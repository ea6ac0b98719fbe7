/-
  The reply to a peek (`crates/dcu-tunnel-daemon/src/tasks/peek.rs`, against
  `src/ncp-spinel/SpinelNCPTaskPeek.cpp`).

  The C++ task unpacks the whole frame as "CiLSD": the header and the command, then the address, the
  count and the data. The payload that the daemon gets starts behind the command already. It skips a
  byte and a packed integer all the same, so it reads the four fields from the wrong place. It takes an
  address or count that is not there for 0, and data that is not there for none. It compares the count
  field with the request; the C++ task compares the length of the data.

  Main result: `peek_agrees_iff`.
-/
import DcuDaemon.Instance.Requests
import DcuDaemon.Spinel.Datatype

namespace DcuDaemon.Tasks

open Instance Spinel Spinel.Datatype List Option PackReader

/-! ## 1. The two readings of a reply -/

/-- `{:#x}`. -/
def lowerHexAlt (n : Nat) : String := "0x" ++ String.ofList (Nat.toDigits 16 n)

/-- `ret_addr`, `ret_count` and `data` of `peek`, from the payload of the reply. -/
def peekFields (payload : List UInt8) : UInt32 × UInt16 × List UInt8 :=
  let reader := (PackReader.new payload).readUint8.2
  let reader := reader.readUintPacked.2
  let addr := reader.readUint32
  let retAddr := addr.1.toOption.getD 0
  let cnt := addr.2.readUint16
  let retCount := cnt.1.toOption.getD 0
  (retAddr, retCount, (cnt.2.readBytes retCount.toNat).1.toOption.getD [])

/-- `peek`, from its reply on. -/
def peekReply (address : UInt32) (count : UInt16) (payload : List UInt8) :
    Except DaemonError (List UInt8) :=
  let (retAddr, retCount, data) := peekFields payload
  if retAddr ≠ address ∨ retCount ≠ count then
    .error (.ncp ("peek mismatch: requested " ++ lowerHexAlt address.toNat ++ "/" ++
      toString count.toNat ++ ", got " ++ lowerHexAlt retAddr.toNat ++ "/" ++ toString retCount.toNat))
  else .ok data

/-- `vprocess_event` at `SPINEL_CMD_PEEK_RET`: the frame unpacked as "CiLSD". -/
def vprocessPeekRet (address : UInt32) (count : UInt16) (frame : List UInt8) : Option (List UInt8) :=
  if spinelMaxPackLength < frame.length then none
  else
    (unpackUint8 frame).bind fun header =>
      (unpackUintPacked header.2).bind fun command =>
        (unpackUint32 command.2).bind fun addr =>
          (unpackUint16 addr.2).bind fun cnt =>
            if addr.1 = address ∧ cnt.2.length = count.toNat then some cnt.2 else none

def cmdPeekRet : UInt32 := 19

def peekRetFrame (header : UInt8) (payload : List UInt8) : List UInt8 :=
  header :: (PackWriter.uintPackedBytes cmdPeekRet ++ payload)

/-- The payload as the layout has it: the address, a count field and the data. -/
def IsPeekRet (address : UInt32) (field : UInt16) (data payload : List UInt8) : Prop :=
  payload = leBytes 4 address.toNat ++ (leBytes 2 field.toNat ++ data)

/-! ## 2. What each of them accepts -/

variable {address : UInt32} {count : UInt16} {payload data bytes : List UInt8}

theorem vprocessPeekRet_eq_some_iff {header : UInt8} :
    vprocessPeekRet address count (peekRetFrame header payload) = some data ↔
      ∃ field, payload.length ≤ 32765 ∧ IsPeekRet address field data payload ∧ data.length = count.toNat := by
  have hcommand : unpackUintPacked (PackWriter.uintPackedBytes cmdPeekRet ++ payload) =
      some (cmdPeekRet, payload) := unpackUintPacked_append (by decide) payload
  have hsize : (peekRetFrame header payload).length = payload.length + 2 := rfl
  rw [vprocessPeekRet, hsize, peekRetFrame, unpackUint8, bind_some, hcommand, bind_some]
  constructor
  · intro h
    split at h
    · cases h
    rename_i hmax
    obtain ⟨⟨addr, rest⟩, haddr, h⟩ := bind_eq_some_iff.mp h
    obtain ⟨⟨field, rest'⟩, hfield, h⟩ := bind_eq_some_iff.mp h
    split at h
    · rename_i hcheck
      cases h
      obtain ⟨rfl, hlen⟩ := hcheck
      refine ⟨field, Nat.le_of_not_lt fun hlong => hmax (Nat.add_lt_add_right hlong 2), ?_, hlen⟩
      rw [IsPeekRet, ← eq_append_of_unpackUint16 hfield]
      exact eq_append_of_unpackUint32 haddr
    · cases h
  · rintro ⟨field, hmax, e, hlen⟩
    rw [if_neg (show ¬ spinelMaxPackLength < payload.length + 2 from
      Nat.not_lt.mpr (Nat.add_le_add_right hmax 2)), e, unpackUint32_leBytes, bind_some, unpackUint16_leBytes, bind_some, if_pos ⟨rfl, hlen⟩]

/-- The bytes that `read_uint_packed` moves over, an octet with the top bit clear at the end or not. -/
def packedLength (bytes : List UInt8) : Nat :=
  min ((bytes.takeWhile fun b => 128 ≤ b.toNat).length + 1) (min 5 bytes.length)

/-- The bytes behind those that the daemon skips. -/
def behindSkipped (payload : List UInt8) : List UInt8 := payload.tail.drop (packedLength payload.tail)

/-- The address, the count and the data that the daemon takes from there. -/
def echoed (bytes : List UInt8) : UInt32 × UInt16 × List UInt8 :=
  let addr := (unpackUint32 bytes).getD (0, bytes)
  let cnt := (unpackUint16 addr.2).getD (0, addr.2)
  (addr.1, cnt.1, ((unpackBytes cnt.1.toNat cnt.2).map Prod.fst).getD [])

section Reader

variable {r : PackReader} {bytes : List UInt8}

theorem readLe_getD {α : Type} (f : Nat → α) (d : α) (w : Nat) (h : r.At bytes) :
    ((r.readLe w).1.map f).toOption.getD d =
        (((unpackLe w bytes).map (Prod.map f id)).getD (d, bytes)).1 ∧
      (r.readLe w).2.At (((unpackLe w bytes).map (Prod.map f id)).getD (d, bytes)).2 := by
  by_cases hlen : bytes.length < w
  · rw [readLe_short h hlen, unpackLe, unpackBytes, if_pos hlen]
    exact ⟨rfl, h⟩
  · obtain ⟨hread, hat⟩ := readLe_append (h.split w) (length_take_of_le (Nat.le_of_not_lt hlen))
    rw [hread, unpackLe, unpackBytes, if_neg hlen]
    exact ⟨rfl, hat⟩

theorem readUint32_getD (h : r.At bytes) :
    r.readUint32.1.toOption.getD 0 = ((unpackUint32 bytes).getD (0, bytes)).1 ∧
      r.readUint32.2.At ((unpackUint32 bytes).getD (0, bytes)).2 :=
  readLe_getD UInt32.ofNat 0 4 h

theorem readUint16_getD (h : r.At bytes) :
    r.readUint16.1.toOption.getD 0 = ((unpackUint16 bytes).getD (0, bytes)).1 ∧
      r.readUint16.2.At ((unpackUint16 bytes).getD (0, bytes)).2 :=
  readLe_getD UInt16.ofNat 0 2 h

theorem at_behindPacked (h : r.At bytes) : r.readUintPacked.2.At (bytes.drop (packedLength bytes)) := by
  have hle : packedLength bytes ≤ bytes.length := (min_le_right _ _).trans (min_le_right _ _)
  have hread : r.readUintPacked.2 = r.skip (packedLength bytes) := by
    rw [readUintPacked, h.2, packedLength, ← uintPackedLoop_length bytes 0 (Nat.succ_pos 4)]
    rfl
  rw [hread]
  exact h.drop hle

theorem at_behindSkipped (payload : List UInt8) :
    (new payload).readUint8.2.readUintPacked.2.At (behindSkipped payload) := by
  refine at_behindPacked ?_
  cases payload with
  | nil => exact at_new []
  | cons b bytes => exact (readUint8_cons (at_new (b :: bytes))).2

theorem readBytes_getD (n : Nat) (h : r.At bytes) :
    (r.readBytes n).1.toOption.getD [] = ((unpackBytes n bytes).map Prod.fst).getD [] := by
  rw [(reads_bytes n h).toOption]

end Reader

theorem peekFields_eq (payload : List UInt8) : peekFields payload = echoed (behindSkipped payload) := by
  obtain ⟨haddr, hat⟩ := readUint32_getD (at_behindSkipped payload)
  obtain ⟨hcnt, hat⟩ := readUint16_getD hat
  simp only [peekFields, echoed, haddr, hcnt, readBytes_getD _ hat]

/-- **What the daemon answers**: the data, if address and count are those of the request. -/
theorem peekReply_eq_ok_iff : peekReply address count payload = .ok data ↔
      echoed (behindSkipped payload) = (address, count, data) := by
  rw [peekReply, peekFields_eq]
  obtain ⟨retAddr, retCount, ret⟩ := echoed (behindSkipped payload)
  dsimp only
  split
  · rename_i hne
    constructor
    · intro h
      cases h
    · intro h
      cases h
      exact (hne.elim (· rfl) (· rfl)).elim
  · rename_i heq
    push Not at heq
    obtain ⟨rfl, rfl⟩ := heq
    simp

/-! ## 3. A reply that the layout has -/

theorem packedLength_pos (b : UInt8) (bytes : List UInt8) : 1 ≤ packedLength (b :: bytes) := by
  rw [packedLength, length_cons]
  omega

theorem packedLength_eq_one_iff {b b' : UInt8} : packedLength (b :: b' :: bytes) = 1 ↔ b.toNat < 128 := by
  rw [packedLength, length_cons, length_cons]
  by_cases hb : b.toNat < 128
  · rw [takeWhile_cons_of_neg (by simpa using hb), length_nil]
    omega
  · rw [takeWhile_cons_of_pos (by simpa using hb), length_cons]
    omega

theorem exists_of_length_four (h : bytes.length = 4) : ∃ a b c d, bytes = [a, b, c, d] := by
  match bytes, h with
  | [a, b, c, d], _ => exact ⟨a, b, c, d, rfl⟩

/-- **The one reply that both read alike**: no data, and an address whose halves are equal to each other and
    to the count. -/
structure ReadAlike (address : UInt32) (count : UInt16) (payload : List UInt8) (a b : UInt8) : Prop where
  one : b.toNat < 128
  noData : count = 0
  address : leBytes 4 address.toNat = [a, b, a, b]
  payload : payload = [a, b, a, b, a, b]

theorem echoed_readAlike {a b : UInt8} (h : ReadAlike address count payload a b) :
    echoed (behindSkipped payload) = (address, count, []) := by
  obtain ⟨hb, rfl, haddr, rfl⟩ := h
  have hbehind : behindSkipped [a, b, a, b, a, b] = leBytes 4 address.toNat ++ [] := by
    have hone : packedLength [b, a, b, a, b] = 1 := packedLength_eq_one_iff.mpr hb
    rw [behindSkipped, tail_cons, hone, haddr]
    rfl
  rw [hbehind, echoed, unpackUint32_leBytes]
  rfl

section Layout

variable {address : UInt32} {count field : UInt16} {payload data : List UInt8}

/-- How much of a reply is left behind the skipped bytes: less than the fields and the data take. -/
theorem IsPeekRet.length_behindSkipped (hret : IsPeekRet address field data payload) :
    1 ≤ packedLength payload.tail ∧
      (behindSkipped payload).length + packedLength payload.tail = 5 + data.length := by
  obtain ⟨a, b, c, d, haddr⟩ := exists_of_length_four (length_leBytes 4 address.toNat)
  rw [IsPeekRet, haddr] at hret
  have hlength : payload.tail.length = 5 + data.length := by
    rw [hret]
    simp
    omega
  have hle : packedLength payload.tail ≤ payload.tail.length := (min_le_right _ _).trans (min_le_right _ _)
  refine ⟨?_, ?_⟩
  · rw [hret]
    exact packedLength_pos b _
  · rw [behindSkipped, length_drop]
    omega

/-- The address cannot be missing there: of the address 0 one byte is skipped, with four bytes left. -/
theorem IsPeekRet.four_le (hret : IsPeekRet 0 field data payload) : 4 ≤ (behindSkipped payload).length := by
  obtain ⟨_, hlength⟩ := hret.length_behindSkipped
  have hone : packedLength payload.tail = 1 := by
    rw [show payload = _ from hret]
    exact packedLength_eq_one_iff.mpr (by decide)
  omega

theorem IsPeekRet.length_lt_six (hret : IsPeekRet address field data payload)
    (hlen : data.length = count.toNat) (h : echoed (behindSkipped payload) = (address, count, data)) :
    (behindSkipped payload).length < 6 := by
  obtain ⟨hpos, hlength⟩ := hret.length_behindSkipped
  by_contra hsix
  obtain ⟨⟨addr, rest⟩, hu⟩ := isSome_iff_exists.mp
    ((isSome_unpackUint32 (behindSkipped payload)).mpr (by omega))
  have hrest : (behindSkipped payload).length = 4 + rest.length := by
    rw [eq_append_of_unpackUint32 hu, length_append, length_leBytes]
  obtain ⟨⟨cnt, rest'⟩, hv⟩ := isSome_iff_exists.mp ((isSome_unpackUint16 rest).mpr (by omega))
  have hrest' : rest.length = 2 + rest'.length := by
    rw [eq_append_of_unpackUint16 hv, length_append, length_leBytes]
  simp only [echoed, hu, hv, getD_some, Prod.mk.injEq] at h
  obtain ⟨-, rfl, hdata⟩ := h
  have hnone : unpackBytes cnt.toNat rest' = none := by
    rw [unpackBytes, if_pos (by omega)]
  rw [hnone, map_none, getD_none] at hdata
  rw [← hdata, length_nil] at hlength
  omega

/-- **A reply of the layout that the daemon accepts with its data** is that one. -/
theorem IsPeekRet.readAlike (hret : IsPeekRet address field data payload)
    (hlen : data.length = count.toNat) (h : echoed (behindSkipped payload) = (address, count, data)) :
    ∃ a b, ReadAlike address count payload a b ∧ leBytes 2 field.toNat = [a, b] := by
  obtain ⟨hpos, hlength⟩ := hret.length_behindSkipped
  have hlt := hret.length_lt_six hlen h
  rw [echoed] at h
  cases hu : unpackUint32 (behindSkipped payload) with
  | none =>
    rw [hu] at h
    obtain rfl : address = 0 := (congrArg Prod.fst h).symm
    have hsome := (isSome_unpackUint32 _).mpr hret.four_le
    rw [hu] at hsome
    cases hsome
  | some x =>
    obtain ⟨addr, rest⟩ := x
    have happ := eq_append_of_unpackUint32 hu
    have hrest : (behindSkipped payload).length = 4 + rest.length := by
      rw [happ, length_append, length_leBytes]
    have hnone : unpackUint16 rest = none := by
      rw [unpackUint16, unpackLe, unpackBytes, if_pos (by omega)]
      rfl
    simp only [hu, hnone, getD_some, Prod.mk.injEq] at h
    obtain ⟨rfl, rfl, hdata⟩ := h
    -- no data, so nothing but the address is left, two bytes further on
    obtain rfl : data = [] := eq_nil_of_length_eq_zero hlen
    rw [length_nil] at hlength
    obtain rfl : rest = [] := eq_nil_of_length_eq_zero (by omega)
    have hone : packedLength payload.tail = 1 := by omega
    obtain ⟨a, b, c, d, haddr⟩ := exists_of_length_four (length_leBytes 4 addr.toNat)
    rw [IsPeekRet, haddr] at hret
    rw [haddr, behindSkipped, hone, hret] at happ
    obtain ⟨rfl, rfl, hfield⟩ : c = a ∧ d = b ∧ leBytes 2 field.toNat = [c, d] := by
      simpa using happ
    refine ⟨c, d, ⟨?_, rfl, haddr, ?_⟩, hfield⟩
    · rw [hret] at hone
      exact packedLength_eq_one_iff.mp hone
    · rw [hret, hfield]
      rfl

end Layout

/-! ## 4. Where they agree -/

section Agreement

variable {address : UInt32} {count : UInt16} {payload : List UInt8}

/-- The daemon finds the address and the count of the request. -/
def DaemonAccepts (address : UInt32) (count : UInt16) (payload : List UInt8) : Prop :=
  (echoed (behindSkipped payload)).1 = address ∧ (echoed (behindSkipped payload)).2.1 = count

theorem peekReply_of_daemonAccepts (h : DaemonAccepts address count payload) :
    peekReply address count payload = .ok (echoed (behindSkipped payload)).2.2 :=
  peekReply_eq_ok_iff.mpr (Prod.ext h.1 (Prod.ext h.2 rfl))

theorem daemonAccepts_of_peekReply {data : List UInt8}
    (h : peekReply address count payload = .ok data) : DaemonAccepts address count payload := by
  have hechoed := peekReply_eq_ok_iff.mp h
  exact ⟨congrArg Prod.fst hechoed, congrArg (fun x => x.2.1) hechoed⟩

theorem peekReply_layout_iff (address : UInt32) (count : UInt16) (payload : List UInt8)
    (allowed : UInt16 → Prop) : (∀ data, peekReply address count payload = .ok data ↔
        ∃ field, allowed field ∧ IsPeekRet address field data payload ∧ data.length = count.toNat) ↔
      (¬ DaemonAccepts address count payload ∧ ∀ field data, allowed field → data.length = count.toNat →
            ¬ IsPeekRet address field data payload) ∨
        ∃ a b, ∃ field : UInt16, ReadAlike address count payload a b ∧
          leBytes 2 field.toNat = [a, b] ∧ allowed field := by
  constructor
  · intro h
    by_cases hacc : DaemonAccepts address count payload
    · have hok := peekReply_of_daemonAccepts hacc
      obtain ⟨field, hallowed, hret, hlen⟩ := (h _).mp hok
      obtain ⟨a, b, halike, hfield⟩ := hret.readAlike hlen (peekReply_eq_ok_iff.mp hok)
      exact .inr ⟨a, b, field, halike, hfield, hallowed⟩
    · refine .inl ⟨hacc, fun field data hallowed hlen hret => ?_⟩
      exact hacc (daemonAccepts_of_peekReply ((h data).mpr ⟨field, hallowed, hret, hlen⟩))
  · intro h data
    obtain ⟨hreject, hnone⟩ | ⟨a, b, field, halike, hfield, hallowed⟩ := h
    · constructor
      · intro hok
        exact (hreject (daemonAccepts_of_peekReply hok)).elim
      · intro ⟨field, hallowed, hret, hlen⟩
        exact (hnone field data hallowed hlen hret).elim
    · rw [peekReply_eq_ok_iff, echoed_readAlike halike]
      obtain ⟨-, rfl, haddr, hpayload⟩ := halike
      constructor
      · intro h
        obtain rfl : [] = data := congrArg (fun x => x.2.2) h
        refine ⟨field, hallowed, ?_, rfl⟩
        rw [IsPeekRet, haddr, hfield, hpayload]
        rfl
      · intro ⟨_, _, _, hlen⟩
        rw [eq_nil_of_length_eq_zero hlen]

/-- With the count of the request in its field, the reply that is read alike is all zero. -/
theorem readAlike_count_iff :
    (∃ a b, ReadAlike address count payload a b ∧ leBytes 2 count.toNat = [a, b]) ↔
      address = 0 ∧ count = 0 ∧ payload = [0, 0, 0, 0, 0, 0] := by
  constructor
  · intro ⟨a, b, ⟨_, hcount, haddr, hpayload⟩, hfield⟩
    rw [hcount] at hfield
    cases hfield
    refine ⟨?_, hcount, hpayload⟩
    have hvalue := congrArg leValue haddr
    have hlt : address.toNat < 256 ^ 4 := address.toNat_lt
    rw [leValue_leBytes, Nat.mod_eq_of_lt hlt] at hvalue
    exact UInt32.toNat_inj.mp hvalue
  · intro ⟨haddr, hcount, hpayload⟩
    refine ⟨0, 0, ⟨by decide, hcount, ?_, hpayload⟩, ?_⟩
    · rw [haddr]
      decide
    · rw [hcount]
      decide

/-- The C++ task finds the address of the request, and as many data behind the count field as it asked for. -/
def TaskAccepts (address : UInt32) (count : UInt16) (payload : List UInt8) : Prop :=
  payload.take 4 = leBytes 4 address.toNat ∧ payload.length = 6 + count.toNat ∧ payload.length ≤ 32765

/-- The layout has the count as well. -/
def LayoutAccepts (address : UInt32) (count : UInt16) (payload : List UInt8) : Prop :=
  payload.take 6 = leBytes 4 address.toNat ++ leBytes 2 count.toNat ∧ payload.length = 6 + count.toNat

theorem exists_isPeekRet_iff {n : Nat} : (∃ field data, data.length = n ∧ IsPeekRet address field data payload) ↔
    payload.take 4 = leBytes 4 address.toNat ∧ payload.length = 6 + n := by
  constructor
  · rintro ⟨field, data, rfl, h⟩
    rw [IsPeekRet] at h
    rw [h, take_left' (length_leBytes 4 _), length_append, length_append, length_leBytes, length_leBytes]
    exact ⟨rfl, by omega⟩
  · intro ⟨haddr, hlen⟩
    obtain ⟨a, b, hab⟩ := length_eq_two.mp (show ((payload.drop 4).take 2).length = 2 by
      rw [length_take, length_drop]; omega)
    obtain ⟨field, hfield⟩ := exists_leBytes_two a b
    refine ⟨field, payload.drop 6, by rw [length_drop]; omega, ?_⟩
    rw [IsPeekRet, ← haddr, hfield, ← hab, ← drop_drop (i := 2) (j := 4), take_append_drop, take_append_drop]

theorem exists_isPeekRet_count_iff : (∃ data, data.length = count.toNat ∧ IsPeekRet address count data payload) ↔
    LayoutAccepts address count payload := by
  have hsix : (leBytes 4 address.toNat ++ leBytes 2 count.toNat).length = 6 := by
    rw [length_append, length_leBytes, length_leBytes]
  constructor
  · rintro ⟨data, hlen, h⟩
    rw [IsPeekRet, ← append_assoc] at h
    rw [LayoutAccepts, h, take_left' hsix, length_append, hsix, hlen]
    exact ⟨rfl, rfl⟩
  · intro ⟨hfields, hlen⟩
    refine ⟨payload.drop 6, by rw [length_drop]; omega, ?_⟩
    rw [IsPeekRet, ← append_assoc, ← hfields, take_append_drop]

/-- **Where the daemon reads a reply as the C++ task does**: if both reject it, or it is the one that they
    read alike. With the count compared as well: if both reject it, or six zero bytes answer a request for no
    byte at address 0. -/
theorem peek_agrees_iff (header : UInt8) (address : UInt32) (count : UInt16) (payload : List UInt8) :
    ((∀ data, peekReply address count payload = .ok data ↔
          vprocessPeekRet address count (peekRetFrame header payload) = some data) ↔
        (¬ DaemonAccepts address count payload ∧ ¬ TaskAccepts address count payload) ∨
          ∃ a b, ReadAlike address count payload a b) ∧
      ((∀ data, peekReply address count payload = .ok data ↔
          IsPeekRet address count data payload ∧ data.length = count.toNat) ↔
        (¬ DaemonAccepts address count payload ∧ ¬ LayoutAccepts address count payload) ∨
          address = 0 ∧ count = 0 ∧ payload = [0, 0, 0, 0, 0, 0]) := by
  constructor
  · have hnone : ¬ TaskAccepts address count payload ↔ ∀ field data, payload.length ≤ 32765 →
        data.length = count.toNat → ¬ IsPeekRet address field data payload := by
      rw [TaskAccepts, ← and_assoc, ← exists_isPeekRet_iff]
      constructor
      · intro h field data hmax hlen hret
        exact h ⟨⟨field, data, hlen, hret⟩, hmax⟩
      · rintro h ⟨⟨field, data, hlen, hret⟩, hmax⟩
        exact h field data hmax hlen hret
    have hfield : (∃ a b, ReadAlike address count payload a b) ↔ ∃ a b, ∃ field : UInt16,
        ReadAlike address count payload a b ∧ leBytes 2 field.toNat = [a, b] ∧ payload.length ≤ 32765 := by
      constructor
      · intro ⟨a, b, halike⟩
        obtain ⟨field, hfield⟩ := exists_leBytes_two a b
        have hsix : payload.length = 6 := by
          rw [halike.payload]
          rfl
        exact ⟨a, b, field, halike, hfield, by omega⟩
      · intro ⟨a, b, _, halike, _⟩
        exact ⟨a, b, halike⟩
    rw [hnone, hfield, ← peekReply_layout_iff]
    simp only [vprocessPeekRet_eq_some_iff]
  · have hnone : ¬ LayoutAccepts address count payload ↔ ∀ field data, field = count →
        data.length = count.toNat → ¬ IsPeekRet address field data payload := by
      rw [← exists_isPeekRet_count_iff]
      constructor
      · rintro h field data rfl hlen hret
        exact h ⟨data, hlen, hret⟩
      · rintro h ⟨data, hlen, hret⟩
        exact h count data rfl hlen hret
    rw [hnone, ← readAlike_count_iff]
    have hlayout := peekReply_layout_iff address count payload (· = count)
    simp only [exists_eq_left, exists_eq_right_right] at hlayout
    exact hlayout

end Agreement

/-- A reply with two bytes at `0x1000`. -/
theorem peek_rejects_reply :
    vprocessPeekRet 0x1000 2 (peekRetFrame 0x81 [0x00, 0x10, 0, 0, 2, 0, 0xAA, 0xBB]) =
        some [0xAA, 0xBB] ∧ IsPeekRet 0x1000 2 [0xAA, 0xBB] [0x00, 0x10, 0, 0, 2, 0, 0xAA, 0xBB] ∧
      (peekReply 0x1000 2 [0x00, 0x10, 0, 0, 2, 0, 0xAA, 0xBB]).toOption = none := by
  refine ⟨by decide, by unfold IsPeekRet; decide, by decide⟩

end DcuDaemon.Tasks
