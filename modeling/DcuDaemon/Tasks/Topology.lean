/-
  The router table (`crates/dcu-tunnel-daemon/src/tasks/topology.rs`: `get_topology`, against
  `src/ncp-spinel/SpinelNCPTaskGetNetworkTopology.cpp`: `parse_table`, `parse_router_entry`).

  The value packs one row behind the other, each behind its length: "ESCCCCCCb". The C++ task fails at
  the first row that is not there with all its fields. The daemon stops there and answers with the rows
  so far; it even takes a row whose last fields are missing, with zeros in their place.

  Main result: `topology_agrees_iff`.
-/
import DcuDaemon.Tasks.Network
import DcuDaemon.Tasks.Scan
import DcuDaemon.Wfantund.Structs

namespace DcuDaemon.Tasks

open Instance Lib Spinel Spinel.Datatype List PackReader
open Wfantund (HasRoom unpackBool unpackStructs)

/-! ## 1. Rows -/

/-- `RouterEntry`; for the C++ task, the fields of `TableEntry` that a router has. -/
structure RouterEntry where
  extAddress : { octets : List UInt8 // octets.length = 8 }
  rloc16 : UInt16
  routerId : UInt8
  nextHop : UInt8
  pathCost : UInt8
  linkQualityIn : UInt8
  linkQualityOut : UInt8
  age : UInt8
  linkEstablished : Bool
  deriving DecidableEq

/-- The body of the loop of `get_topology` behind the length; `none` is `break`. -/
def RouterEntry.read (entry : List UInt8) : Option RouterEntry :=
  tryOk (PackReader.new entry).readEui64 fun extAddress er =>
    let rloc16 := unwrapOr er.readUint16 0
    let routerId := unwrapOr rloc16.2.readUint8 0
    let nextHop := unwrapOr routerId.2.readUint8 0
    let pathCost := unwrapOr nextHop.2.readUint8 0
    let linkQualityIn := unwrapOr pathCost.2.readUint8 0
    let linkQualityOut := unwrapOr linkQualityIn.2.readUint8 0
    let age := unwrapOr linkQualityOut.2.readUint8 0
    let linkEstablished := unwrapOr age.2.readBool false
    some ⟨extAddress, rloc16.1, routerId.1, nextHop.1, pathCost.1, linkQualityIn.1, linkQualityOut.1,
      age.1, linkEstablished.1⟩

/-- `while r.remaining() > 0`; every turn reads at least two bytes. -/
def routerLoop : Nat → PackReader → List RouterEntry → List RouterEntry
  | 0, _, out => out
  | fuel + 1, r, out =>
    if r.remaining = 0 then out
    else
      match r.readDataWithLen with
      | (.error _, _) => out
      | (.ok entry, r) =>
        match RouterEntry.read entry with
        | none => out
        | some row => routerLoop fuel r (out ++ [row])

/-- The rows that `get_topology` finds in the payload of the reply, behind the key. -/
def routerRows (payload : List UInt8) : List RouterEntry :=
  let r := (PackReader.new payload).readUintPacked.2
  routerLoop r.remaining r []

def propThreadRouterTable : UInt32 := 0x1517

def cmdPropValueGet : UInt32 := 2

section Task

variable {δ μ : Type} (ops : DatasetOps δ μ) (link : NcpLink)

def sendPropGet (prop : UInt32) : NcpTask δ μ SpinelFrame := do
  let w ← Routine.orAbort (PackWriter.new.writeUintPacked prop)
  sendCommand ops link cmdPropValueGet w.intoBytes

def getTopology (prop : UInt32) : NcpTask δ μ (List RouterEntry) :=
  if prop ≠ propThreadRouterTable then
    Routine.fail (.ncp ("unsupported topology property 0x" ++ String.ofList (upperHex 4 prop.toNat) ++
      " (only router table decoded)"))
  else do
    let resp ← sendPropGet ops link prop
    return routerRows resp.payload

/-- **The daemon answers every reply.** -/
theorem getTopology_of_reply {s s' : NcpBase δ μ} {resp : SpinelFrame}
    (h : sendPropGet ops link propThreadRouterTable s = some (.ok resp, s')) :
    getTopology ops link propThreadRouterTable s = some (.ok (routerRows resp.payload), s') := by
  rw [getTopology, if_neg (not_not.mpr rfl), Routine.bind_ok h]
  rfl

end Task

/-- "E". -/
def unpackExtAddress (data : List UInt8) :
    Option ({ octets : List UInt8 // octets.length = 8 } × List UInt8) :=
  if h : data.length < 8 then none
  else some (⟨data.take 8, List.length_take_of_le (Nat.le_of_not_lt h)⟩, data.drop 8)

/-- `parse_router_entry`. -/
def RouterEntry.parse (block : List UInt8) : Option RouterEntry := do
  let (extAddress, block) ← unpackExtAddress block
  let (rloc16, block) ← unpackUint16 block
  let (routerId, block) ← unpackUint8 block
  let (nextHop, block) ← unpackUint8 block
  let (pathCost, block) ← unpackUint8 block
  let (linkQualityIn, block) ← unpackUint8 block
  let (linkQualityOut, block) ← unpackUint8 block
  let (age, block) ← unpackUint8 block
  let (linkEstablished, _) ← unpackBool block
  return ⟨extAddress, rloc16, routerId, nextHop, pathCost, linkQualityIn, linkQualityOut, age,
    linkEstablished⟩

/-- `parse_table` for routers; `none` is `kWPANTUNDStatus_Failure`. -/
def parseTable (value : List UInt8) : Option (List RouterEntry) :=
  let table := unpackStructs RouterEntry.parse value
  if table.2 then some table.1 else none

/-! ## 2. Complete rows -/

section Reader

variable {α : Type} {r : PackReader} {data post : List UInt8}

theorem reads_extAddress (h : r.At data) : PackReader.Reads r.readEui64 (unpackExtAddress data) := by
  by_cases hlen : data.length < 8
  · rw [unpackExtAddress, dif_pos hlen, readEui64, readOctets, dif_pos (by have := h.le_iff 8; omega)]
    exact ⟨_, _, rfl⟩
  · rw [unpackExtAddress, dif_neg hlen]
    exact ⟨r.skip 8, readOctets_append ⟨data.take 8, _⟩ (h.split 8)⟩

theorem reads_bool (h : r.At data) : PackReader.Reads r.readBool (unpackBool data) :=
  (reads_uint8 h).map fun b => decide (b ≠ 0)

theorem unwrapOr_of_reads {read : Except SpinelError α × PackReader} {v : α}
    (h : PackReader.Reads read (some (v, post))) (default : α) :
    (unwrapOr read default).1 = v ∧ (unwrapOr read default).2.At post := by
  obtain ⟨r', rfl, hat⟩ := h
  exact ⟨rfl, hat⟩

end Reader

open RouterEntry

theorem RouterEntry.read_of_parse {block : List UInt8} {row : RouterEntry}
    (h : parse block = some row) : read block = some row := by
  obtain ⟨⟨ext, b₀⟩, h₀, h⟩ := Option.bind_eq_some_iff.mp h
  obtain ⟨⟨rloc, b₁⟩, h₁, h⟩ := Option.bind_eq_some_iff.mp h
  obtain ⟨⟨routerId, b₂⟩, h₂, h⟩ := Option.bind_eq_some_iff.mp h
  obtain ⟨⟨nextHop, b₃⟩, h₃, h⟩ := Option.bind_eq_some_iff.mp h
  obtain ⟨⟨pathCost, b₄⟩, h₄, h⟩ := Option.bind_eq_some_iff.mp h
  obtain ⟨⟨lqIn, b₅⟩, h₅, h⟩ := Option.bind_eq_some_iff.mp h
  obtain ⟨⟨lqOut, b₆⟩, h₆, h⟩ := Option.bind_eq_some_iff.mp h
  obtain ⟨⟨age, b₇⟩, h₇, h⟩ := Option.bind_eq_some_iff.mp h
  obtain ⟨⟨linkEstablished, b₈⟩, h₈, h⟩ := Option.bind_eq_some_iff.mp h
  obtain rfl := Option.some.inj h
  have hext := reads_extAddress (at_new block)
  rw [h₀] at hext
  obtain ⟨er, hread, hat₀⟩ := hext
  obtain ⟨e₁, hat₁⟩ := unwrapOr_of_reads (h₁ ▸ reads_uint16 hat₀) 0
  obtain ⟨e₂, hat₂⟩ := unwrapOr_of_reads (h₂ ▸ reads_uint8 hat₁) 0
  obtain ⟨e₃, hat₃⟩ := unwrapOr_of_reads (h₃ ▸ reads_uint8 hat₂) 0
  obtain ⟨e₄, hat₄⟩ := unwrapOr_of_reads (h₄ ▸ reads_uint8 hat₃) 0
  obtain ⟨e₅, hat₅⟩ := unwrapOr_of_reads (h₅ ▸ reads_uint8 hat₄) 0
  obtain ⟨e₆, hat₆⟩ := unwrapOr_of_reads (h₆ ▸ reads_uint8 hat₅) 0
  obtain ⟨e₇, hat₇⟩ := unwrapOr_of_reads (h₇ ▸ reads_uint8 hat₆) 0
  obtain ⟨e₈, -⟩ := unwrapOr_of_reads (h₈ ▸ reads_bool hat₇) false
  rw [read, hread]
  simp only [tryOk, e₁, e₂, e₃, e₄, e₅, e₆, e₇, e₈]

section Sizes

variable {α β : Type} {n m : Nat} {unpack : List UInt8 → Option (α × List UInt8)}

/-- A field takes so many bytes, and fails only if there are fewer. -/
def Takes (n : Nat) (unpack : List UInt8 → Option (α × List UInt8)) : Prop :=
  ∀ data, match unpack data with
    | none => data.length < n
    | some x => data.length = n + x.2.length

theorem Takes.isSome_bind (h : Takes n unpack) {next : α × List UInt8 → Option β}
    (hnext : ∀ x, (next x).isSome ↔ m ≤ x.2.length) (data : List UInt8) :
    ((unpack data).bind next).isSome ↔ n + m ≤ data.length := by
  have hdata := h data
  cases hu : unpack data with
  | none =>
    rw [hu] at hdata
    exact iff_of_false Bool.false_ne_true (by dsimp only at hdata; omega)
  | some x =>
    rw [hu] at hdata
    rw [Option.bind_some, hnext x]
    omega

theorem takes_extAddress : Takes 8 unpackExtAddress := by
  intro data
  unfold unpackExtAddress
  by_cases h : data.length < 8
  · rw [dif_pos h]
    exact h
  · rw [dif_neg h]
    show data.length = 8 + (data.drop 8).length
    rw [length_drop]
    omega

theorem takes_uint8 : Takes 1 unpackUint8 := by
  intro data
  cases data with
  | nil => exact Nat.one_pos
  | cons b post => exact add_comm post.length 1

theorem takes_uint16 : Takes 2 unpackUint16 := by
  intro data
  unfold unpackUint16 unpackLe unpackBytes
  by_cases h : data.length < 2
  · rw [if_pos h]
    exact h
  · rw [if_neg h]
    show data.length = 2 + (data.drop 2).length
    rw [length_drop]
    omega

theorem takes_bool : Takes 1 unpackBool := by
  intro data
  cases data with
  | nil => exact Nat.one_pos
  | cons b post => exact add_comm post.length 1

end Sizes

/-- **A row of the C++ task** has 17 bytes at least. -/
theorem RouterEntry.parse_isSome_iff (block : List UInt8) : (parse block).isSome ↔ 17 ≤ block.length :=
  takes_extAddress.isSome_bind (fun _ => takes_uint16.isSome_bind (fun _ =>
    takes_uint8.isSome_bind (fun _ => takes_uint8.isSome_bind (fun _ =>
      takes_uint8.isSome_bind (fun _ => takes_uint8.isSome_bind (fun _ =>
        takes_uint8.isSome_bind (fun _ => takes_uint8.isSome_bind (fun _ =>
          takes_bool.isSome_bind (m := 0) (fun _ => iff_of_true rfl (Nat.zero_le _)) _) _) _) _) _)
            _) _) _) block

variable {rows : List RouterEntry} {value : List UInt8}

theorem routerLoop_rows {blocks : List (List UInt8)}
    (hroom : HasRoom blocks) (hrows : blocks.map parse = rows.map some) {fuel : Nat}
    {r : PackReader} (hat : r.At (structEntries blocks)) (hfuel : r.remaining ≤ fuel)
    (out : List RouterEntry) : routerLoop fuel r out = out ++ rows := by
  induction blocks generalizing rows fuel r out with
  | nil =>
    obtain rfl := map_eq_nil_iff.mp hrows.symm
    have hrem : r.remaining = 0 := hat.remaining
    rw [append_nil]
    cases fuel with
    | zero => rfl
    | succ fuel => exact if_pos hrem
  | cons block blocks ih =>
    cases rows with
    | nil => cases hrows
    | cons row rows =>
      obtain ⟨hrow, hrest⟩ := cons.inj hrows
      have hfit : Fits block := lt_of_lt_of_le (hroom.each block mem_cons_self) (by decide)
      have hread := reads_dataWithLen hat
      rw [Wfantund.structEntries_cons, unpackDataWlen_structEntry hfit] at hread
      obtain ⟨r', hread, hat'⟩ := hread
      have hrem := hat.remaining
      rw [Wfantund.structEntries_cons, length_append, Wfantund.length_structEntry] at hrem
      cases fuel with
      | zero => omega
      | succ fuel =>
        have hfuel' : r'.remaining ≤ fuel := by
          rw [hat'.remaining]
          omega
        have hloop := ih (Wfantund.hasRoom_cons hroom) hrest hat' hfuel' (out ++ [row])
        rw [routerLoop, if_neg (by omega), hread]
        dsimp only
        rw [read_of_parse hrow]
        dsimp only
        rw [hloop, append_assoc]
        rfl

/-! ## 3. Both answers -/

/-- The payload of the reply: the key and the value. -/
def routerTablePayload (value : List UInt8) : List UInt8 :=
  PackWriter.uintPackedBytes propThreadRouterTable ++ value

/-- The value packs complete rows, with room for all of them in the C++ task. -/
def CompleteRows (value : List UInt8) : Prop :=
  ∃ blocks, value = structEntries blocks ∧ HasRoom blocks ∧ ∀ block ∈ blocks, 17 ≤ block.length

theorem parseTable_eq_some_iff :
    parseTable value = some rows ↔ unpackStructs parse value = (rows, true) := by
  unfold parseTable
  obtain ⟨table, complete⟩ := unpackStructs parse value
  cases complete with
  | true => simp
  | false => simp

theorem routerRows_of_parseTable
    (h : parseTable value = some rows) : routerRows (routerTablePayload value) = rows := by
  obtain ⟨blocks, rfl, hroom, hrows⟩ := Wfantund.unpackStructs_eq_true_iff.mp (parseTable_eq_some_iff.mp h)
  have hkey := reads_uintPacked (at_new (routerTablePayload (structEntries blocks)))
  rw [routerTablePayload, unpackUintPacked_append (by decide)] at hkey
  obtain ⟨r, hread, hat⟩ := hkey
  have hrows := routerLoop_rows hroom hrows hat le_rfl []
  rw [routerRows, routerTablePayload, hread]
  exact hrows

/-- **What the C++ task takes**: values that pack complete rows. -/
theorem parseTable_isSome_iff (value : List UInt8) :
    (∃ rows, parseTable value = some rows) ↔ CompleteRows value := by
  simp only [parseTable_eq_some_iff, Wfantund.unpackStructs_eq_true_iff]
  constructor
  · intro ⟨rows, blocks, hvalue, hroom, hrows⟩
    refine ⟨blocks, hvalue, hroom, fun block hblock => ?_⟩
    obtain ⟨row, -, hrow⟩ := mem_map.mp (hrows ▸ mem_map_of_mem hblock)
    rw [← parse_isSome_iff, ← hrow]
    rfl
  · intro ⟨blocks, hvalue, hroom, hlen⟩
    have hsome : ∀ block ∈ blocks, (parse block).isSome :=
      fun block hblock => (parse_isSome_iff block).mpr (hlen block hblock)
    refine ⟨blocks.pmap (fun block h => (parse block).get h) hsome, blocks, hvalue, hroom, ?_⟩
    simp only [map_pmap, Option.some_get, pmap_eq_map]

/-- **Both give the same answer** exactly if the value packs complete rows. -/
theorem topology_agrees_iff {δ μ : Type} {ops : DatasetOps δ μ} {link : NcpLink} {s s' : NcpBase δ μ}
    {resp : SpinelFrame} {value : List UInt8}
    (hreply : sendPropGet ops link propThreadRouterTable s = some (.ok resp, s'))
    (hpayload : resp.payload = routerTablePayload value) :
    (∃ answer, getTopology ops link propThreadRouterTable s = some (answer, s') ∧
        answer.toOption = parseTable value) ↔ CompleteRows value := by
  have hanswer := getTopology_of_reply ops link hreply
  rw [hpayload] at hanswer
  constructor
  · intro ⟨answer, h, hsame⟩
    rw [hanswer] at h
    cases h
    exact (parseTable_isSome_iff value).mp ⟨_, hsame.symm⟩
  · intro h
    obtain ⟨rows, hrows⟩ := (parseTable_isSome_iff value).mpr h
    refine ⟨_, hanswer, ?_⟩
    rw [routerRows_of_parseTable hrows, hrows]
    rfl

def routerTableLink (value : List UInt8) : NcpLink :=
  ⟨fun _ => true, fun _ frame => [⟨frame.header, cmdPropValueIs, routerTablePayload value⟩]⟩

def oneRouter : List UInt8 := structEntry ([2, 0, 0x12, 0x4B, 0, 0x14, 0, 1] ++ [0, 0x54, 21, 63, 1, 3, 3, 9, 1])

/-- Both daemons get the row. -/
theorem topology_agrees_on_router :
    ∃ answer s', getTopology idleOps (routerTableLink oneRouter) propThreadRouterTable initialized =
        some (answer, s') ∧ answer.toOption = parseTable oneRouter := by
  have hreply : sendPropGet idleOps (routerTableLink oneRouter) propThreadRouterTable initialized =
      some (.ok ⟨0x81, cmdPropValueIs, routerTablePayload oneRouter⟩,
        exchanged idleOps (routerTableLink oneRouter) cmdPropValueGet
          (PackWriter.uintPackedBytes propThreadRouterTable) initialized) := rfl
  have hrows : CompleteRows oneRouter := ⟨[oneRouter.drop 2], by decide, by decide, by decide⟩
  obtain ⟨answer, h⟩ := (topology_agrees_iff hreply rfl).mpr hrows
  exact ⟨answer, _, h⟩

/-- A row of 16 bytes, and a length that is cut: the daemon answers, the C++ task fails. -/
theorem cut_router_table_answered :
    (getTopology idleOps (routerTableLink (structEntry (List.replicate 16 1)))
        propThreadRouterTable initialized).map (fun x => x.1.toOption) =
      some (some [⟨⟨List.replicate 8 1, rfl⟩, 0x0101, 1, 1, 1, 1, 1, 1, false⟩]) ∧
    parseTable (structEntry (List.replicate 16 1)) = none ∧
    (getTopology idleOps (routerTableLink [0]) propThreadRouterTable initialized).map
        (fun x => x.1.toOption) = some (some []) ∧
    parseTable [0] = none := by
  decide +kernel

end DcuDaemon.Tasks
