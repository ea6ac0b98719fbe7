/-
  Table frames from the NCP (`base.rs`: `handle_address_frame`, `read_struct_entry`).

  A table is a sequence of entries, each behind its length. The loop stops at the first length that runs
  past the end and skips an entry without room for an address and a prefix length; flags that are
  missing count as zero. What it has read is the new table.

  Main result: `malformed_frame_repaired`.
-/
import DcuDaemon.Instance.ListCommands
import DcuDaemon.Spinel.Datatype

namespace DcuDaemon.Instance

open Addresses Lib Spinel List Option PackReader

/-! ## 1. Entries -/

def readStructEntry (r : PackReader) : Option (List UInt8) × PackReader :=
  match r.readUint16 with
  | (.error _, r) => (none, r)
  | (.ok len, r) =>
    match r.readBytes len.toNat with
    | (.error _, r) => (none, r)
    | (.ok entry, r) => (some entry, r)

/-- The loop over the entries; every turn reads at least two bytes. -/
def readEntriesLoop {α : Type} (f : List UInt8 → Option α) : Nat → PackReader → List α
  | 0, _ => []
  | fuel + 1, r =>
    if r.remaining < 2 then []
    else
      match readStructEntry r with
      | (none, _) => []
      | (some entry, r) => (f entry).toList ++ readEntriesLoop f fuel r

/-- `while r.remaining() >= 2`: the values of the entries that have one. -/
def readEntries {α : Type} (f : List UInt8 → Option α) (r : PackReader) : List α :=
  readEntriesLoop f r.remaining r

def addressEntry (entry : List UInt8) : Option (Ipv6Addr × UInt8) :=
  match (PackReader.new entry).readIpv6 with
  | (.error _, _) => none
  | (.ok addr, er) =>
    match er.readUint8 with
    | (.error _, _) => none
    | (.ok prefixLen, _) => some (addr, prefixLen)

def multicastEntry (entry : List UInt8) : Option Ipv6Addr :=
  match (PackReader.new entry).readIpv6 with
  | (.error _, _) => none
  | (.ok addr, _) => some addr

structure MeshFields where
  addr : Ipv6Addr
  prefixLen : UInt8
  stable : Bool
  flags : UInt8
  isLocal : Bool
  deriving DecidableEq

/-- The reads of an on-mesh or off-mesh entry, with their `unwrap_or`. -/
def readMeshFields (entry : List UInt8) : Option MeshFields :=
  match (PackReader.new entry).readIpv6 with
  | (.error _, _) => none
  | (.ok addr, er) =>
    match er.readUint8 with
    | (.error _, _) => none
    | (.ok prefixLen, er) =>
      let (stable, er) := er.readBool
      let (flags, er) := er.readUint8
      let (isLocal, _) := er.readBool
      some ⟨addr, prefixLen, stable.toOption.getD false, flags.toOption.getD 0, isLocal.toOption.getD false⟩

/-- The prefix of an entry, unless it is the device's own. -/
def MeshFields.net (x : MeshFields) : Option Ipv6Net :=
  if x.isLocal then none else newIpv6Net x.addr x.prefixLen

def MeshFields.metric (x : MeshFields) : UInt32 :=
  if x.flags &&& 0xC0 = 0x40 then 1 else if x.flags &&& 0xC0 = 0xC0 then 512 else 256

def onMeshEntry (entry : List UInt8) : Option (Ipv6Net × Bool) :=
  (readMeshFields entry).bind fun x => x.net.map fun net => (net, x.stable)

def offMeshEntry (entry : List UInt8) : Option (Ipv6Net × UInt32) :=
  (readMeshFields entry).bind fun x => x.net.map fun net => (net, x.metric)

/-! ## 2. The frame -/

/-- The orders in which the tables are iterated over. -/
structure Iterations where
  unicast : Iteration Ipv6Addr UnicastEntry
  multicast : Iteration Ipv6Addr Origin
  onMesh : Iteration Ipv6Net OnMeshEntry
  offMesh : Iteration Ipv6Net OffMeshEntry

def handleAddressFrame {t : NetTexts} (iters : Iterations) (s : NcpInstance t)
    (frame : SpinelFrame) : Bool × NcpInstance t :=
  let m := s.addressManager
  match (PackReader.new frame.payload).readUintPacked with
  | (.error _, _) => (false, s)
  | (.ok prop, r) =>
    if prop = propIpv6AddressTable then
      (true, s.update (m.applyNcpAddressTable iters.unicast (readEntries addressEntry r)))
    else if prop = propIpv6MulticastAddressTable then
      (true, s.update (m.applyNcpMulticastTable iters.multicast (readEntries multicastEntry r)))
    else if prop = propThreadOnMeshNets then
      (true, s.update (m.applyNcpOnMeshTable iters.onMesh (readEntries onMeshEntry r)))
    else if prop = propThreadOffMeshRoutes then
      (true, s.update (m.applyNcpOffMeshTable iters.offMesh (readEntries offMeshEntry r)))
    else (false, s)

/-! ## 3. The loop over the entries -/

/-- No complete entry stands at the front: fewer than two bytes, or a length that runs past the
    end. -/
def Cut (bytes : List UInt8) : Prop := ∀ entry post, Fits entry → bytes ≠ structEntry entry ++ post

theorem readStructEntry_eq (r : PackReader) :
    readStructEntry r = (r.readDataWithLen.1.toOption, r.readDataWithLen.2) := by
  rw [readStructEntry, readDataWithLen]
  rcases r.readUint16 with ⟨_ | len, r⟩
  · rfl
  · dsimp only
    rcases r.readBytes len.toNat with ⟨_ | entry, r⟩ <;> rfl

variable {r : PackReader} {entry bytes rest : List UInt8} {α : Type} {entries : List (List UInt8)}
  {t : NetTexts} {frame : SpinelFrame}

theorem readStructEntry_append {post : List UInt8} (hfit : Fits entry)
    (h : r.At (structEntry entry ++ post)) :
    ∃ r', readStructEntry r = (some entry, r') ∧ r'.At post := by
  have hreads := reads_dataWithLen h
  rw [Datatype.unpackDataWlen_structEntry hfit] at hreads
  obtain ⟨r', hread, hat⟩ := hreads
  exact ⟨r', by rw [readStructEntry_eq, hread]; rfl, hat⟩

theorem readStructEntry_some {r' : PackReader} (h : r.At bytes)
    (hread : readStructEntry r = (some entry, r')) :
    ∃ post, Fits entry ∧ bytes = structEntry entry ++ post := by
  rw [readStructEntry_eq] at hread
  have hvalue := (reads_dataWithLen h).toOption.symm.trans (congrArg Prod.fst hread)
  obtain ⟨⟨entry, post⟩, hunpack, rfl⟩ := map_eq_some_iff.mp hvalue
  exact ⟨post, Datatype.unpackDataWlen_eq_some.mp hunpack⟩

/-- **The loop reads the complete entries in front and stops at what is left.** -/
theorem readEntriesLoop_append (f : List UInt8 → Option α) :
    ∀ (entries : List (List UInt8)) (rest : List UInt8) (fuel : Nat) (r : PackReader),
      (∀ e ∈ entries, Fits e) → Cut rest → r.At (structEntries entries ++ rest) →
      r.remaining ≤ fuel → readEntriesLoop f fuel r = entries.filterMap f
  | [], rest, 0, r, _, _, _, _ => rfl
  | [], rest, fuel + 1, r, _, hcut, h, _ => by
      rw [readEntriesLoop]
      split
      · rfl
      · rcases hread : readStructEntry r with ⟨_ | entry, r'⟩
        · rfl
        · obtain ⟨post, hfit, e⟩ := readStructEntry_some h hread
          exact absurd e (hcut entry post hfit)
  | e :: entries, rest, fuel, r, hfit, hcut, h, hfuel => by
      have h' : r.At (structEntry e ++ (structEntries entries ++ rest)) := by
        rw [← append_assoc]
        exact h
      have hrem := h'.remaining
      rw [length_append, structEntry, length_append, length_leBytes] at hrem
      obtain ⟨r', hread, hat⟩ := readStructEntry_append (hfit e mem_cons_self) h'
      cases fuel with
      | zero => omega
      | succ fuel =>
        have ih := readEntriesLoop_append f entries rest fuel r'
          (fun e' he => hfit e' (mem_cons_of_mem _ he)) hcut hat
          (by rw [hat.remaining]; omega)
        rw [readEntriesLoop, if_neg (by omega), hread]
        simp only [ih, filterMap_cons]
        cases f e <;> rfl

theorem exists_entries (bytes : List UInt8) :
    ∃ entries rest, bytes = structEntries entries ++ rest ∧ (∀ e ∈ entries, Fits e) ∧ Cut rest := by
  induction hn : bytes.length using Nat.strong_induction_on generalizing bytes with
  | _ n ih =>
    by_cases hcut : Cut bytes
    · exact ⟨[], bytes, rfl, fun e he => absurd he not_mem_nil, hcut⟩
    · simp only [Cut, not_forall, not_not] at hcut
      obtain ⟨entry, post, hfit, rfl⟩ := hcut
      have hlt : post.length < n := by
        rw [length_append, structEntry, length_append, length_leBytes] at hn
        omega
      obtain ⟨entries, rest, rfl, hentries, hrest⟩ := ih post.length hlt post rfl
      refine ⟨entry :: entries, rest, ?_, ?_, hrest⟩
      · exact (append_assoc _ _ _).symm
      · exact forall_mem_cons.mpr ⟨hfit, hentries⟩

theorem readEntries_append (f : List UInt8 → Option α) (hfit : ∀ e ∈ entries, Fits e) (hcut : Cut rest)
    (h : r.At (structEntries entries ++ rest)) : readEntries f r = entries.filterMap f :=
  readEntriesLoop_append f entries rest r.remaining r hfit hcut h le_rfl

/-! ## 4. The fields of an entry, by their places -/

section Places

variable (entry : List UInt8)

/-- The byte at a place, or zero. -/
def byteAt (i : Nat) : UInt8 := entry.getD i 0

theorem readIpv6_new (h : 16 ≤ entry.length) : ∃ er, (new entry).readIpv6 =
        (.ok ⟨entry.take 16, length_take_of_le h⟩, er) ∧ er.At (entry.drop 16) := by
  have hat : (new entry).At (entry.take 16 ++ entry.drop 16) := by
    rw [take_append_drop]
    exact at_new entry
  obtain ⟨hread, hat'⟩ := readIpv6_append ⟨entry.take 16, length_take_of_le h⟩ hat
  exact ⟨_, hread, hat'⟩

theorem readIpv6_new_short (h : entry.length < 16) :
    (new entry).readIpv6 = (.error .underflow, new entry) :=
  readIpv6_short (at_new entry) h

variable {er : PackReader} {bytes : List UInt8}

theorem readUint8_getD (h : er.At bytes) :
    er.readUint8.1.toOption.getD 0 = bytes.getD 0 0 ∧ er.readUint8.2.At (bytes.drop 1) := by
  cases bytes with
  | nil =>
    rw [readUint8_nil h]
    exact ⟨rfl, h⟩
  | cons b post =>
    obtain ⟨hread, hat⟩ := readUint8_cons h
    rw [hread]
    exact ⟨rfl, hat⟩

theorem readBool_getD (h : er.At bytes) : er.readBool.1.toOption.getD false = (bytes.getD 0 0 != 0) ∧
      er.readBool.2.At (bytes.drop 1) := by
  cases bytes with
  | nil =>
    rw [readBool, readUint8_nil h]
    exact ⟨rfl, h⟩
  | cons b post =>
    obtain ⟨hread, hat⟩ := readUint8_cons h
    rw [readBool, hread]
    exact ⟨by simp [Except.map, Except.toOption, bne]; rfl, hat⟩

/-- **The fields stand at fixed places, and a missing flag byte counts as zero.** -/
theorem readMeshFields_eq (h : 17 ≤ entry.length) :
    readMeshFields entry = some
      { addr := ⟨entry.take 16, length_take_of_le (by omega)⟩
        prefixLen := byteAt entry 16
        stable := byteAt entry 17 != 0
        flags := byteAt entry 18
        isLocal := byteAt entry 19 != 0 } := by
  obtain ⟨er, haddr, hat⟩ := readIpv6_new entry (by omega)
  obtain ⟨b, post, hdrop⟩ : ∃ b post, entry.drop 16 = b :: post := by
    cases hd : entry.drop 16 with
    | nil =>
      have := drop_eq_nil_iff.mp hd
      omega
    | cons b post => exact ⟨b, post, rfl⟩
  have hplace : ∀ i, byteAt entry (16 + i) = (b :: post).getD i 0 := fun i => by
    rw [byteAt, ← hdrop, getD_eq_getElem?_getD, getD_eq_getElem?_getD, getElem?_drop]
  rw [hdrop] at hat
  obtain ⟨hlen, hat⟩ := readUint8_cons hat
  obtain ⟨hstable, hat⟩ := readBool_getD hat
  obtain ⟨hflags, hat⟩ := readUint8_getD hat
  obtain ⟨hlocal, -⟩ := readBool_getD hat
  rw [readMeshFields, haddr]
  simp only [hlen, hstable, hflags, hlocal]
  rw [hplace 0, hplace 1, hplace 2, hplace 3]
  cases post with
  | nil => rfl
  | cons b₁ post =>
    cases post with
    | nil => rfl
    | cons b₂ post => cases post <;> rfl

theorem readMeshFields_short (h : entry.length < 17) : readMeshFields entry = none := by
  rcases lt_or_ge entry.length 16 with hlt | hge
  · rw [readMeshFields, readIpv6_new_short entry hlt]
  · obtain ⟨er, haddr, hat⟩ := readIpv6_new entry hge
    rw [drop_of_length_le (by omega)] at hat
    simp only [readMeshFields, haddr, readUint8_nil hat]

theorem addressEntry_short (h : entry.length < 17) : addressEntry entry = none := by
  rcases lt_or_ge entry.length 16 with hlt | hge
  · rw [addressEntry, readIpv6_new_short entry hlt]
  · obtain ⟨er, haddr, hat⟩ := readIpv6_new entry hge
    rw [drop_of_length_le (by omega)] at hat
    simp only [addressEntry, haddr, readUint8_nil hat]

theorem multicastEntry_short (h : entry.length < 16) : multicastEntry entry = none := by
  rw [multicastEntry, readIpv6_new_short entry h]

theorem readMeshFields_append_zeros (h : 17 ≤ entry.length) (k : Nat) :
    readMeshFields (entry ++ replicate k 0) = readMeshFields entry := by
  have hbyte : ∀ i, byteAt (entry ++ replicate k 0) i = byteAt entry i := fun i => by
    simp only [byteAt, getD_eq_getElem?_getD, getElem?_append]
    split
    · rfl
    · rename_i hi
      rw [getElem?_eq_none (Nat.le_of_not_lt hi)]
      cases hget : (replicate k (0 : UInt8))[i - entry.length]? with
      | none => rfl
      | some b => exact (mem_replicate.mp (mem_of_getElem? hget)).2
  have hlen : 17 ≤ (entry ++ replicate k (0 : UInt8)).length := by
    rw [length_append]
    omega
  have htake : (entry ++ replicate k 0).take 16 = entry.take 16 := take_append_of_le_length (by omega)
  simp only [readMeshFields_eq entry h, readMeshFields_eq _ hlen, hbyte, htake]

end Places

/-! ## 5. Malformed frames -/

inductive AddressTable where
  | unicast
  | multicast
  | onMesh
  | offMesh
  deriving DecidableEq, Repr

namespace AddressTable

def propId : AddressTable → UInt32
  | unicast => propIpv6AddressTable
  | multicast => propIpv6MulticastAddressTable
  | onMesh => propThreadOnMeshNets
  | offMesh => propThreadOffMeshRoutes

def fieldsLength : AddressTable → Nat
  | unicast => 17
  | multicast => 16
  | onMesh => 20
  | offMesh => 20

/-- The length that an entry must have not to be skipped. -/
def minLength : AddressTable → Nat
  | unicast => 17
  | multicast => 16
  | onMesh => 17
  | offMesh => 17

/-- A complete sequence of entries with room for their fields. -/
def Complete (table : AddressTable) (value : List UInt8) : Prop :=
  ∃ entries, value = structEntries entries ∧ ∀ e ∈ entries, Fits e ∧ table.fieldsLength ≤ e.length

/-- The entries that are not skipped, filled up with zeros to the length of their fields. -/
def repair (table : AddressTable) (entries : List (List UInt8)) : List (List UInt8) :=
  (entries.filter fun e => table.minLength ≤ e.length).map
    fun e => e ++ replicate (table.fieldsLength - e.length) 0

/-- The new table that a sequence of entries gives. -/
def apply (iters : Iterations) (m : AddressManager) (entries : List (List UInt8)) :
    AddressTable → AddressManager × List TunOp
  | unicast => m.applyNcpAddressTable iters.unicast (entries.filterMap addressEntry)
  | multicast => m.applyNcpMulticastTable iters.multicast (entries.filterMap multicastEntry)
  | onMesh => m.applyNcpOnMeshTable iters.onMesh (entries.filterMap onMeshEntry)
  | offMesh => m.applyNcpOffMeshTable iters.offMesh (entries.filterMap offMeshEntry)

theorem repair_fits (table : AddressTable) {entries : List (List UInt8)} (h : ∀ e ∈ entries, Fits e) :
    ∀ e ∈ table.repair entries, Fits e ∧ table.fieldsLength ≤ e.length := by
  intro e he
  obtain ⟨e₀, he₀, rfl⟩ := mem_map.mp he
  have hlt : e₀.length < 65536 := h e₀ (mem_filter.mp he₀).1
  have hfields : table.fieldsLength ≤ 20 := by cases table <;> decide
  rw [Fits, length_append, length_replicate]
  omega

theorem filterMap_repair {α : Type} (table : AddressTable) (f : List UInt8 → Option α)
    (hshort : ∀ e, e.length < table.minLength → f e = none) (hpad : ∀ e, table.minLength ≤ e.length →
      f (e ++ replicate (table.fieldsLength - e.length) 0) = f e) (entries : List (List UInt8)) :
    (table.repair entries).filterMap f = entries.filterMap f := by
  induction entries with
  | nil => rfl
  | cons e entries ih =>
    rw [repair] at ih ⊢
    by_cases h : table.minLength ≤ e.length
    · rw [filter_cons_of_pos (by simpa using h), map_cons, filterMap_cons, hpad e h, ih, filterMap_cons]
    · rw [filter_cons_of_neg (by simpa using h), ih, filterMap_cons, hshort e (Nat.lt_of_not_le h)]

theorem apply_repair (iters : Iterations) (m : AddressManager) (table : AddressTable)
    (entries : List (List UInt8)) :
    table.apply iters m (table.repair entries) = table.apply iters m entries := by
  have hfull : ∀ e : List UInt8, ∀ n, n ≤ e.length → e ++ replicate (n - e.length) 0 = e :=
    fun e n h => by rw [Nat.sub_eq_zero_of_le h, replicate_zero, append_nil]
  cases table with
  | unicast =>
    rw [apply, apply, filterMap_repair unicast addressEntry addressEntry_short
      fun e h => congrArg addressEntry (hfull e 17 h)]
  | multicast =>
    rw [apply, apply, filterMap_repair multicast multicastEntry multicastEntry_short
      fun e h => congrArg multicastEntry (hfull e 16 h)]
  | onMesh =>
    rw [apply, apply, filterMap_repair onMesh onMeshEntry
      (fun e h => by rw [onMeshEntry, readMeshFields_short e h, bind_none])
      fun e h => by rw [onMeshEntry, onMeshEntry, readMeshFields_append_zeros e h]]
  | offMesh =>
    rw [apply, apply, filterMap_repair offMesh offMeshEntry
      (fun e h => by rw [offMeshEntry, readMeshFields_short e h, bind_none])
      fun e h => by rw [offMeshEntry, offMeshEntry, readMeshFields_append_zeros e h]]

end AddressTable

theorem handleAddressFrame_eq (iters : Iterations) (s : NcpInstance t) {table : AddressTable}
    (hprop : (new frame.payload).readUintPacked = (.ok table.propId, r))
    (hat : r.At (structEntries entries ++ rest)) (hfit : ∀ e ∈ entries, Fits e) (hcut : Cut rest) :
    handleAddressFrame iters s frame = (true, s.update (table.apply iters s.addressManager entries)) := by
  unfold handleAddressFrame
  rw [hprop]
  simp only [readEntries_append _ hfit hcut hat]
  cases table <;> rfl

theorem cut_nil : Cut [] := fun entry post _ e => by
  have := congrArg length e
  rw [structEntry, length_append, length_append, length_leBytes, length_nil] at this
  omega

theorem handleAddressFrame_complete (iters : Iterations) (s : NcpInstance t) (table : AddressTable)
    (hpayload : frame.payload = PackWriter.uintPackedBytes table.propId ++ structEntries entries)
    (hfit : ∀ e ∈ entries, Fits e) : handleAddressFrame iters s frame =
      (true, s.update (table.apply iters s.addressManager entries)) := by
  have hid : table.propId ≤ spinelMaxUintPacked := by cases table <;> decide
  obtain ⟨hprop, hat⟩ := readUintPacked_append hid
    (at_new (PackWriter.uintPackedBytes table.propId ++ structEntries entries))
  rw [← hpayload] at hprop hat
  rw [← append_nil (structEntries entries)] at hat
  exact handleAddressFrame_eq iters s hprop hat hfit cut_nil

theorem at_of_readUintPacked {prop : UInt32}
    (h : (new bytes).readUintPacked = (.ok prop, r)) : r.At r.rest := by
  have hr : r.offset ≤ r.data.length := by
    have hle : (uintPackedLoop bytes 0 0).2 ≤ bytes.length :=
      (uintPackedLoop_length bytes 0 (Nat.succ_pos 4)).trans_le ((min_le_right _ _).trans (min_le_right _ _))
    have e : r = ⟨bytes, 0 + (uintPackedLoop bytes 0 0).2⟩ := (Prod.mk.inj h).2.symm
    rw [e]
    show 0 + _ ≤ bytes.length
    omega
  exact ⟨hr, rfl⟩

/-- **A table frame does what a complete frame does**: that of the entries before the first length that runs
    past the end, without those too short, and with zeros for missing flags. -/
theorem malformed_frame_repaired {t : NetTexts} (iters : Iterations) (s : NcpInstance t)
    (table : AddressTable) (frame : SpinelFrame) (r : PackReader)
    (hprop : (PackReader.new frame.payload).readUintPacked = (.ok table.propId, r)) :
    ∃ entries rest, r.rest = structEntries entries ++ rest ∧ (∀ e ∈ entries, Fits e) ∧ Cut rest ∧
      table.Complete (structEntries (table.repair entries)) ∧
      handleAddressFrame iters s frame = handleAddressFrame iters s { frame with
        payload :=
          PackWriter.uintPackedBytes table.propId ++ structEntries (table.repair entries) } := by
  obtain ⟨entries, rest, hrest, hfit, hcut⟩ := exists_entries r.rest
  have hrepair := table.repair_fits hfit
  refine ⟨entries, rest, hrest, hfit, hcut, ⟨_, rfl, hrepair⟩, ?_⟩
  have hat := at_of_readUintPacked hprop
  rw [hrest] at hat
  have hrepaired : handleAddressFrame iters s { frame with
      payload := PackWriter.uintPackedBytes table.propId ++ structEntries (table.repair entries) } =
        (true, s.update (table.apply iters s.addressManager (table.repair entries))) :=
    handleAddressFrame_complete iters s table rfl fun e he => (hrepair e he).1
  rw [hrepaired, handleAddressFrame_eq iters s hprop hat hfit hcut, AddressTable.apply_repair]

def storedIterations : Iterations := ⟨.stored _ _, .stored _ _, .stored _ _, .stored _ _⟩

def onMeshFrame (value : List UInt8) : SpinelFrame :=
  ⟨0x80, cmdPropValueIs, PackWriter.uintPackedBytes propThreadOnMeshNets ++ value⟩

def meshNetEntry : List UInt8 := meshNet.addr.val ++ [64, 1, 0x31, 0]

/-- An on-mesh frame that repeats the one before it, but for its last byte: the prefix goes, and its
    route with it. -/
theorem truncated_frame_drops_prefix :
    let s := (handleAddressFrame storedIterations (NcpInstance.new meshNetTexts true)
      (onMeshFrame (structEntry meshNetEntry))).2
    let s' := (handleAddressFrame storedIterations s (onMeshFrame (structEntry meshNetEntry).dropLast)).2
    ¬ AddressTable.onMesh.Complete (structEntry meshNetEntry).dropLast ∧
      s.addressManager.onMesh.lookup meshNet = some ⟨.ncp, true⟩ ∧
      s'.addressManager.onMesh.lookup meshNet = none ∧
      s'.tunOps = s.tunOps ++ [.removeRoute meshNet 256] := by
  refine ⟨?_, by decide +kernel, by decide +kernel, by decide +kernel⟩
  -- 21 bytes are left, and an entry takes 22
  rintro ⟨entries, e, hentries⟩
  have hlen := congrArg length e
  rw [show (structEntry meshNetEntry).dropLast.length = 21 from by decide] at hlen
  cases entries with
  | nil => cases hlen
  | cons entry entries =>
    have h20 : 20 ≤ entry.length := (hentries entry mem_cons_self).2
    rw [structEntries, flatMap_cons, structEntry, length_append, length_append, length_leBytes] at hlen
    omega

/-- A frame that ends in the length of its second entry. -/
theorem malformed_frame_repaired_cut :
    let frame := onMeshFrame (structEntry meshNetEntry ++ [20])
    ∃ entries rest, (mk frame.payload 2).rest = structEntries entries ++ rest ∧
      (∀ e ∈ entries, Fits e) ∧ Cut rest ∧
      AddressTable.onMesh.Complete (structEntries (AddressTable.onMesh.repair entries)) ∧
      handleAddressFrame storedIterations (NcpInstance.new meshNetTexts true) frame =
        handleAddressFrame storedIterations (NcpInstance.new meshNetTexts true) { frame with
          payload := PackWriter.uintPackedBytes AddressTable.onMesh.propId ++
            structEntries (AddressTable.onMesh.repair entries) } :=
  malformed_frame_repaired storedIterations (NcpInstance.new meshNetTexts true) .onMesh
    (onMeshFrame (structEntry meshNetEntry ++ [20]))
    ⟨(onMeshFrame (structEntry meshNetEntry ++ [20])).payload, 2⟩ (by decide +kernel)

end DcuDaemon.Instance
