/-
  Messages of the MT interface (`linux-host/src/mt_interface/api/src/mt_msg.c`).

  A message carries its bytes in `iobuf`, with a read and write position and the number of valid bytes.
  Writes are checked and set `is_error`; a read behind the last valid byte gives all ones and reports
  nothing.

  Main result: `bytes_format`.
-/
import DcuDaemon.Lib.Block

namespace DcuDaemon.Mt

open Lib List Option

/-! ## 1. Interfaces and messages -/

/-- `mt_msg_interface`: the settings that the message code reads. `stack_id` has three bits of the extension
    byte; a negative `retry_max` is as zero. -/
structure Iface where
  frameSync : Bool
  includeChksum : Bool
  len2bytes : Bool
  stackId : Fin 8
  txFragSize : Nat
  retryMax : Nat
  deriving DecidableEq, Repr

namespace Iface

/-- Sync byte and length field. -/
def lengthEnd (mi : Iface) : Nat := (if mi.frameSync then 1 else 0) + (if mi.len2bytes then 2 else 1)

def headerLen (mi : Iface) : Nat := mi.lengthEnd + 1 + 1

/-- All of a message but its payload. -/
def frameLen (mi : Iface) : Nat := mi.headerLen + (if mi.includeChksum then 1 else 0)

end Iface

/-- `sizeof(iobuf)`, `iobuf_idx_max`. -/
def iobufSize : Nat := 4096

/-- The kinds of request that have an extended form. -/
inductive Kind where
  | sreq
  | areq
  | srsp
  deriving DecidableEq, Repr

/-- `mt_msg_type`. -/
inductive MsgType where
  | unknown
  | poll
  | plain (k : Kind)
  | stack (k : Kind)
  | fragData (k : Kind)
  | fragAck (k : Kind)
  | extStatus (k : Kind)
  deriving DecidableEq, Repr

/-- `mt_msg`. An `iobuf_idx` below zero, which is not set yet, is `none`. -/
structure Msg where
  iobuf : Block UInt8 iobufSize
  iobufNvalid : Nat
  iobufIdx : Option Nat
  expectedLen : Int
  cmd0 : UInt8
  cmd1 : UInt8
  mType : MsgType
  isError : Bool

/-- The low two bits of the major type, in the tables of extended types. -/
def extendedKind : Nat → Option Kind
  | 1 => some .sreq
  | 2 => some .areq
  | 3 => some .srsp
  | _ => none

/-- The table that the extension byte selects. -/
def extendedType (minor : Nat) (k : Kind) : MsgType :=
  match minor with
  | 1 => .stack k
  | 2 => .fragData k
  | 3 => .fragAck k
  | 4 => .extStatus k
  | _ => .unknown

namespace Msg

/-- `MT_MSG_set_type`; without an interface the extension byte is not looked at. -/
def setType (mi : Option Iface) (m : Msg) : MsgType :=
  match m.cmd0.toNat / 32 with
  | 0 => .poll
  | 1 => .plain .sreq
  | 2 => .plain .areq
  | 3 => .plain .srsp
  | major =>
    match mi with
    | none => .unknown
    | some mi =>
      if m.iobufNvalid < mi.headerLen then .unknown
      else
        match extendedKind (major % 4) with
        | none => .unknown
        | some k => extendedType ((m.iobuf.cells.getD mi.headerLen 0).toNat / 8) k

/-- `MT_MSG_alloc` and `MT_MSG_resetMsg`. -/
def alloc (len : Int) (cmd0 cmd1 : UInt8) : Msg :=
  let m : Msg := ⟨Block.fill iobufSize 0, 0, none, len, cmd0, cmd1, .unknown, false⟩
  { m with mType := m.setType none }

def seek (i : Nat) (m : Msg) : Msg := { m with iobufIdx := some i }

@[simp] theorem seek_iobuf (i : Nat) (m : Msg) : (m.seek i).iobuf = m.iobuf := rfl
@[simp] theorem seek_iobufNvalid (i : Nat) (m : Msg) : (m.seek i).iobufNvalid = m.iobufNvalid := rfl
@[simp] theorem seek_seek (i j : Nat) (m : Msg) : (m.seek i).seek j = m.seek j := rfl

theorem seek_self {i : Nat} {m : Msg} (h : m.iobufIdx = some i) : m.seek i = m := by
  rw [seek, ← h]

/-! ## 2. Writing -/

/-- The write position, at the payload if it is not set. -/
def wrIdx (mi : Iface) (m : Msg) : Nat := m.iobufIdx.getD mi.headerLen

/-- `MT_MSG_wrU8`. -/
def wrU8 (mi : Iface) (value : UInt8) (m : Msg) : Msg :=
  if m.isError then m
  else
    match m.iobuf.store (m.wrIdx mi) value with
    | none => { m with iobufIdx := some (m.wrIdx mi), isError := true }
    | some iobuf =>
      { m with iobuf := iobuf, iobufIdx := some (m.wrIdx mi + 1), iobufNvalid := m.wrIdx mi + 1 }

/-- `MT_MSG_wrU16`, little-endian. -/
def wrU16 (mi : Iface) (value : Nat) (m : Msg) : Msg :=
  wrU8 mi (UInt8.ofNat (value / 256)) (wrU8 mi (UInt8.ofNat value) m)

/-- `MT_MSG_wrBuf`. -/
def wrBuf (mi : Iface) (data : List UInt8) (m : Msg) : Msg :=
  if m.isError then m
  else if data = [] then { m with iobufIdx := some (m.wrIdx mi) }
  else
    match m.iobuf.write (m.wrIdx mi) data with
    | none => { m with iobufIdx := some (m.wrIdx mi), isError := true }
    | some iobuf =>
      { m with
        iobuf := iobuf
        iobufIdx := some (m.wrIdx mi + data.length)
        iobufNvalid := m.iobufNvalid + data.length }

/-- `MT_MSG_wrBuf` without data, which steps over `n` bytes. -/
def wrSkip (mi : Iface) (n : Nat) (m : Msg) : Msg :=
  if m.isError then m
  else if n = 0 then { m with iobufIdx := some (m.wrIdx mi) }
  else if m.wrIdx mi + n > iobufSize then
    { m with iobufIdx := some (m.wrIdx mi), isError := true }
  else
    { m with iobufIdx := some (m.wrIdx mi + n), iobufNvalid := m.iobufNvalid + n }

/-! ## 3. Reading -/

/-- `MT_MSG_rdUX`: `none` behind the last valid byte. The position moves over the bytes that were
    there. -/
def rdUX : Nat → Msg → Option Nat × Msg
  | 0, m => (some 0, m)
  | n + 1, m =>
    let idx := m.iobufIdx.getD 0
    if idx < m.iobufNvalid then
      let (rest, m') := rdUX n (m.seek (idx + 1))
      (rest.map fun v => (m.iobuf.cells.getD idx 0).toNat + 256 * v, m')
    else (none, m.seek idx)

/-- `MT_MSG_rdU8`. -/
def rdU8 (m : Msg) : UInt8 × Msg :=
  if m.isError then (0, m) else (UInt8.ofNat ((m.rdUX 1).1.getD 0xFF), (m.rdUX 1).2)

/-- `MT_MSG_rdU16`. -/
def rdU16 (m : Msg) : Nat × Msg :=
  if m.isError then (0, m) else ((m.rdUX 2).1.getD 0xFFFF, (m.rdUX 2).2)

/-- `MT_MSG_rdBuf` without a destination, which steps over `n` bytes. -/
def rdSkip (n : Nat) (m : Msg) : Msg :=
  let idx := m.iobufIdx.getD 0
  if m.isError then m
  else if n = 0 then m.seek idx
  else if idx + n > iobufSize then { m.seek idx with isError := true }
  else m.seek (idx + n)

/-- The payload of a message that was received or is to be sent. -/
def payload (mi : Iface) (m : Msg) : List UInt8 := m.iobuf.slice mi.headerLen m.expectedLen.toNat

end Msg

/-! ## 4. Formatting -/

def xorSum (bytes : List UInt8) : UInt8 := bytes.foldl (· ^^^ ·) 0

namespace Msg

/-- `MT_MSG_calc_chksum`: from behind the sync byte to `len`. -/
def calcChksum (mi : Iface) (len : Nat) (m : Msg) : UInt8 :=
  let x := if mi.frameSync then 1 else 0
  xorSum (m.iobuf.slice x (len - x))

/-- `MT_MSG_format_msg`, before the header. -/
def startFormat (mi : Iface) (m : Msg) : Msg :=
  let idx := m.wrIdx mi
  { m with
    iobufIdx := some 0
    expectedLen := if m.expectedLen < 0 then (idx : Int) - mi.headerLen else m.expectedLen }

/-- `MT_MSG_format_msg`, sync byte to `cmd1`. -/
def wrHeader (mi : Iface) (m : Msg) : Msg :=
  let synced := if mi.frameSync then m.wrU8 mi 0xFE else m
  let sized := if mi.len2bytes then synced.wrU16 mi m.expectedLen.toNat
    else synced.wrU8 mi (UInt8.ofNat m.expectedLen.toNat)
  (sized.wrU8 mi m.cmd0).wrU8 mi m.cmd1

/-- `MT_MSG_format_msg`, up to the checksum. -/
def wrBody (mi : Iface) (m : Msg) : Msg :=
  let header := (m.startFormat mi).wrHeader mi
  let skipped := header.wrSkip mi header.expectedLen.toNat
  { skipped with iobufNvalid := skipped.iobufIdx.getD 0 }

/-- `MT_MSG_format_msg`, the checksum. -/
def wrChksum (mi : Iface) (m : Msg) : Msg :=
  if mi.includeChksum then m.wrU8 mi (m.calcChksum mi m.iobufNvalid) else m

/-- `MT_MSG_format_msg`. -/
def format (mi : Iface) (m : Msg) : Msg := (m.wrBody mi).wrChksum mi

/-- The bytes that `MT_MSG_tx_raw` sends. -/
def bytes (m : Msg) : List UInt8 := m.iobuf.slice 0 m.iobufNvalid

end Msg

/-! ## 5. The bytes of a message -/

def lengthField (mi : Iface) (n : Nat) : List UInt8 :=
  if mi.len2bytes then [UInt8.ofNat n, UInt8.ofNat (n / 256)] else [UInt8.ofNat n]

def syncField (mi : Iface) : List UInt8 := if mi.frameSync then [0xFE] else []

/-- What the checksum is taken of. -/
def body (mi : Iface) (cmd0 cmd1 : UInt8) (payload : List UInt8) : List UInt8 :=
  lengthField mi payload.length ++ [cmd0, cmd1] ++ payload

def chksumField (mi : Iface) (body : List UInt8) : List UInt8 :=
  if mi.includeChksum then [xorSum body] else []

/-- **A message on the wire.** -/
def wire (mi : Iface) (cmd0 cmd1 : UInt8) (payload : List UInt8) : List UInt8 :=
  syncField mi ++ body mi cmd0 cmd1 payload ++ chksumField mi (body mi cmd0 cmd1 payload)

section Lengths

variable (mi : Iface)

theorem length_syncField : (syncField mi).length = if mi.frameSync then 1 else 0 := by
  unfold syncField
  cases mi.frameSync <;> rfl

theorem length_lengthField (n : Nat) : (lengthField mi n).length = if mi.len2bytes then 2 else 1 := by
  unfold lengthField
  cases mi.len2bytes <;> rfl

theorem length_chksumField (body : List UInt8) :
    (chksumField mi body).length = if mi.includeChksum then 1 else 0 := by
  unfold chksumField
  cases mi.includeChksum <;> rfl

theorem length_wire (cmd0 cmd1 : UInt8) (payload : List UInt8) :
    (wire mi cmd0 cmd1 payload).length = mi.frameLen + payload.length := by
  simp only [wire, body, length_append, length_syncField, length_lengthField,
    length_chksumField, Iface.frameLen, Iface.headerLen, Iface.lengthEnd, length_cons, length_nil]
  omega

end Lengths

/-- **The checksum makes the XOR of all bytes zero.** -/
theorem xorSum_chksum (bytes : List UInt8) : xorSum (bytes ++ [xorSum bytes]) = 0 := by
  simp [xorSum]

namespace Msg

/-! ## 6. What formatting leaves in the buffer -/

/-- Bytes written one after another. -/
def wrAll (mi : Iface) (bytes : List UInt8) (m : Msg) : Msg := bytes.foldl (fun m v => m.wrU8 mi v) m

variable (mi : Iface)

theorem wrAll_nil (m : Msg) : m.wrAll mi [] = m := rfl

theorem wrAll_cons (v : UInt8) (bytes : List UInt8) (m : Msg) :
    m.wrAll mi (v :: bytes) = (m.wrU8 mi v).wrAll mi bytes := rfl

theorem wrAll_append (bytes rest : List UInt8) (m : Msg) :
    m.wrAll mi (bytes ++ rest) = (m.wrAll mi bytes).wrAll mi rest :=
  foldl_append ..

theorem wrSync_eq (m : Msg) : (if mi.frameSync then m.wrU8 mi 0xFE else m) = m.wrAll mi (syncField mi) := by
  unfold syncField
  by_cases h : mi.frameSync
  · rw [if_pos h, if_pos h, wrAll_cons, wrAll_nil]
  · rw [if_neg h, if_neg h, wrAll_nil]

theorem wrLength_eq (n : Nat) (m : Msg) :
    (if mi.len2bytes then m.wrU16 mi n else m.wrU8 mi (UInt8.ofNat n)) = m.wrAll mi (lengthField mi n) := by
  unfold lengthField
  by_cases h : mi.len2bytes
  · rw [if_pos h, if_pos h, wrAll_cons, wrAll_cons, wrAll_nil, wrU16]
  · rw [if_neg h, if_neg h, wrAll_cons, wrAll_nil]

theorem wrHeader_eq (m : Msg) : m.wrHeader mi =
      m.wrAll mi (syncField mi ++ lengthField mi m.expectedLen.toNat ++ [m.cmd0, m.cmd1]) := by
  rw [wrHeader, wrSync_eq, wrLength_eq, wrAll_append, wrAll_append, wrAll_cons, wrAll_cons, wrAll_nil]

variable {m : Msg} {x : Nat} {payload : List UInt8}

theorem wrU8_eq (v : UInt8) (hok : m.isError = false) (hidx : m.wrIdx mi = x) (hfit : x < iobufSize) :
    ∃ iobuf, m.iobuf.write x [v] = some iobuf ∧
      m.wrU8 mi v = { m with iobuf := iobuf, iobufIdx := some (x + 1), iobufNvalid := x + 1 } := by
  subst hidx
  have hsome : (m.iobuf.write (m.wrIdx mi) [v]).isSome := Block.write_isSome.mpr (.inr hfit)
  obtain ⟨iobuf, hio⟩ := isSome_iff_exists.mp hsome
  refine ⟨iobuf, hio, ?_⟩
  unfold wrU8
  rw [hok, if_neg Bool.false_ne_true, Block.store_eq_write, hio]

/-- **A run of single bytes that has room is one copy.** -/
theorem wrAll_cons_eq (v : UInt8) (bytes : List UInt8)
    (hok : m.isError = false) (hidx : m.wrIdx mi = x) (hfit : x + (v :: bytes).length ≤ iobufSize) :
    ∃ iobuf n, m.iobuf.write x (v :: bytes) = some iobuf ∧ m.wrAll mi (v :: bytes) =
        { m with iobuf := iobuf, iobufIdx := some (x + (v :: bytes).length), iobufNvalid := n } := by
  induction bytes generalizing m x v with
  | nil =>
    obtain ⟨iobuf, hio, hwr⟩ := wrU8_eq mi v hok hidx hfit
    exact ⟨iobuf, x + 1, hio, by rw [wrAll_cons, hwr]; rfl⟩
  | cons w bytes ih =>
    rw [length_cons] at hfit
    obtain ⟨b, hb, hwr⟩ := wrU8_eq mi v hok hidx (by omega)
    obtain ⟨iobuf, n, hio, hall⟩ := ih w (m := m.wrU8 mi v) (x := x + 1) (by rw [hwr]; exact hok)
      (by rw [hwr]; rfl) (by omega)
    refine ⟨iobuf, n, ?_, ?_⟩
    · rw [← singleton_append, ← Block.write_write, hb]
      rw [hwr] at hio
      exact hio
    · rw [wrAll_cons, hall, hwr, length_cons (a := v), Nat.add_assoc x 1, Nat.add_comm 1]

theorem wrAll_eq (bytes : List UInt8) (hok : m.isError = false)
    (hidx : m.iobufIdx = some x) (hfit : x + bytes.length ≤ iobufSize) :
    ∃ iobuf n, m.iobuf.write x bytes = some iobuf ∧ m.wrAll mi bytes =
        { m with iobuf := iobuf, iobufIdx := some (x + bytes.length), iobufNvalid := n } := by
  cases bytes with
  | nil =>
    refine ⟨m.iobuf, m.iobufNvalid, Block.write_nil _ _, ?_⟩
    rw [wrAll_nil, length_nil, Nat.add_zero, ← hidx]
  | cons v bytes =>
    exact wrAll_cons_eq mi v bytes hok (by rw [wrIdx, hidx, getD_some]) hfit

theorem nvalid_wrU8_of_full (v : UInt8) (h : iobufSize ≤ m.wrIdx mi) :
    (m.wrU8 mi v).iobufNvalid = m.iobufNvalid := by
  have hnone : m.iobuf.store (m.wrIdx mi) v = none := if_neg (by omega)
  unfold wrU8
  rw [hnone]
  split <;> rfl

theorem wrU8_of_isError (v : UInt8) (h : m.isError) : m.wrU8 mi v = m := by
  unfold wrU8
  rw [if_pos h]

theorem wrAll_of_isError (bytes : List UInt8) (h : m.isError) : m.wrAll mi bytes = m := by
  induction bytes with
  | nil => rfl
  | cons v bytes ih => rw [wrAll_cons, wrU8_of_isError mi v h, ih]

/-- **A message with an error sends nothing.** -/
theorem nvalid_format_of_isError (h : m.isError) : (m.format mi).iobufNvalid = 0 := by
  have hheader : (m.startFormat mi).wrHeader mi = m.startFormat mi := by
    rw [wrHeader_eq]
    exact wrAll_of_isError mi _ h
  have hskip : (m.startFormat mi).wrSkip mi (m.startFormat mi).expectedLen.toNat = m.startFormat mi := by
    exact if_pos h
  have hbody : m.wrBody mi = { m.startFormat mi with iobufNvalid := 0 } := by
    unfold wrBody
    dsimp only
    rw [hheader, hskip]
    rfl
  have hchk : (m.wrBody mi).wrChksum mi = m.wrBody mi := by
    unfold wrChksum
    split
    · exact wrU8_of_isError mi _ (by rw [hbody]; exact h)
    · rfl
  rw [format, hchk, hbody]

theorem wrSkip_eq {n : Nat} (hok : m.isError = false)
    (hidx : m.iobufIdx = some x) (hfit : x + n ≤ iobufSize) :
    ∃ k, m.wrSkip mi n = { m with iobufIdx := some (x + n), iobufNvalid := k } := by
  have hwr : m.wrIdx mi = x := by rw [wrIdx, hidx, getD_some]
  unfold wrSkip
  rw [hok, hwr, if_neg Bool.false_ne_true]
  by_cases hn : n = 0
  · exact ⟨m.iobufNvalid, by rw [if_pos hn, hn, Nat.add_zero]⟩
  · exact ⟨m.iobufNvalid + n, by rw [if_neg hn, if_neg (Nat.not_lt.mpr hfit)]⟩

theorem length_header (cmd0 cmd1 : UInt8) (n : Nat) :
    (syncField mi ++ lengthField mi n ++ [cmd0, cmd1]).length = mi.headerLen := by
  simp only [length_append, length_syncField, length_lengthField, Iface.headerLen,
    Iface.lengthEnd, length_cons, length_nil]

theorem wrBody_eq (hok : m.isError = false) (hidx : m.wrIdx mi = mi.headerLen + payload.length)
    (hlen : m.expectedLen < 0 ∨ m.expectedLen = payload.length) (hold : m.iobuf.Holds mi.headerLen payload)
    (hfit : mi.headerLen + payload.length ≤ iobufSize) :
    ∃ iobuf, iobuf.Holds 0 (syncField mi ++ body mi m.cmd0 m.cmd1 payload) ∧
      m.wrBody mi =
        { m with
          iobuf := iobuf
          iobufIdx := some (mi.headerLen + payload.length)
          iobufNvalid := mi.headerLen + payload.length
          expectedLen := payload.length } := by
  have hstart : m.startFormat mi = { m with iobufIdx := some 0, expectedLen := payload.length } := by
    have hexp : (if m.expectedLen < 0 then (m.wrIdx mi : Int) - mi.headerLen else m.expectedLen) =
        payload.length := by
      rw [hidx]
      split
      · push_cast
        omega
      · omega
    rw [startFormat, hexp]
  have hheader : ((m.startFormat mi).wrHeader mi) = (m.startFormat mi).wrAll mi
      (syncField mi ++ lengthField mi payload.length ++ [m.cmd0, m.cmd1]) := by
    rw [wrHeader_eq, hstart, Int.toNat_natCast]
  have hlenHeader := length_header mi m.cmd0 m.cmd1 payload.length
  obtain ⟨iobuf, n, hio, hall⟩ := wrAll_eq mi
    (syncField mi ++ lengthField mi payload.length ++ [m.cmd0, m.cmd1])
    (m := m.startFormat mi) (x := 0) (by rw [hstart]; exact hok) (by rw [hstart]) (by omega)
  rw [hlenHeader, Nat.zero_add, hstart] at hall
  obtain ⟨k, hskip⟩ := wrSkip_eq mi (n := payload.length) (x := mi.headerLen)
    (m := { m with
      iobuf := iobuf, iobufIdx := some mi.headerLen, iobufNvalid := n,
      expectedLen := payload.length }) hok rfl hfit
  refine ⟨iobuf, ?_, ?_⟩
  · have hkeep : iobuf.Holds mi.headerLen payload := by
      refine Block.Holds.write (hstart ▸ hold) hio (.inr ?_)
      omega
    rw [body, ← append_assoc, ← append_assoc]
    refine Block.holds_append.mpr ⟨Block.holds_write hio, ?_⟩
    rw [hlenHeader, Nat.zero_add]
    exact hkeep
  · unfold wrBody
    dsimp only
    rw [hheader, hstart, hall]
    dsimp only
    rw [Int.toNat_natCast, hskip]
    rfl

theorem length_sync_body (cmd0 cmd1 : UInt8) (payload : List UInt8) :
    (syncField mi ++ body mi cmd0 cmd1 payload).length = mi.headerLen + payload.length := by
  rw [body, ← append_assoc, ← append_assoc, length_append, length_header]

theorem calcChksum_eq {body : List UInt8} (hold : m.iobuf.Holds 0 (syncField mi ++ body)) :
    m.calcChksum mi (syncField mi ++ body).length = xorSum body := by
  have hbody := (Block.holds_append.mp hold).2
  rw [Nat.zero_add] at hbody
  rw [calcChksum, ← length_syncField, length_append, Nat.add_sub_cancel_left, hbody.slice_eq]

/-- **Formatting leaves the wire form of the message in the buffer**, and the message sends it. -/
theorem bytes_format (hok : m.isError = false) (hidx : m.wrIdx mi = mi.headerLen + payload.length)
    (hlen : m.expectedLen < 0 ∨ m.expectedLen = payload.length) (hold : m.iobuf.Holds mi.headerLen payload)
    (hfit : mi.frameLen + payload.length ≤ iobufSize) :
    (m.format mi).bytes = wire mi m.cmd0 m.cmd1 payload ∧
      (m.format mi).iobufNvalid = mi.frameLen + payload.length ∧
      (m.format mi).expectedLen = payload.length := by
  have hroom : mi.headerLen + payload.length ≤ iobufSize := by
    unfold Iface.frameLen at hfit
    omega
  obtain ⟨iobuf, hio, hbody⟩ := wrBody_eq mi hok hidx hlen hold hroom
  have hsize := length_sync_body mi m.cmd0 m.cmd1 payload
  rw [format, hbody, wrChksum, wire]
  by_cases hchk : mi.includeChksum
  · rw [if_pos hchk, chksumField, if_pos hchk, ← hsize, calcChksum_eq mi hio]
    obtain ⟨iobuf', hio', hwr⟩ := wrU8_eq mi (xorSum (body mi m.cmd0 m.cmd1 payload))
      (x := (syncField mi ++ body mi m.cmd0 m.cmd1 payload).length)
      (m := { m with
        iobuf := iobuf
        iobufIdx := some (syncField mi ++ body mi m.cmd0 m.cmd1 payload).length
        iobufNvalid := (syncField mi ++ body mi m.cmd0 m.cmd1 payload).length
        expectedLen := payload.length }) hok rfl (by
          rw [Iface.frameLen, if_pos hchk] at hfit
          omega)
    rw [hwr, bytes]
    have hnvalid : (syncField mi ++ body mi m.cmd0 m.cmd1 payload).length + 1 =
        mi.frameLen + payload.length := by
      rw [hsize, Iface.frameLen, if_pos hchk]
      omega
    refine ⟨?_, hnvalid, rfl⟩
    have hall : iobuf'.Holds 0 (syncField mi ++ body mi m.cmd0 m.cmd1 payload ++
        [xorSum (body mi m.cmd0 m.cmd1 payload)]) := by
      refine Block.holds_append.mpr ⟨hio.write hio' (.inl (by omega)), ?_⟩
      rw [Nat.zero_add]
      exact Block.holds_write hio'
    have hslice := hall.slice_eq
    rw [length_append] at hslice
    exact hslice
  · rw [if_neg hchk, chksumField, if_neg hchk, append_nil, bytes, ← hsize]
    exact ⟨hio.slice_eq, by rw [hsize, Iface.frameLen, if_neg hchk, Nat.add_zero], rfl⟩

end Msg

/-- The bytes of a message that is allocated, filled and formatted. -/
def formatted (mi : Iface) (cmd0 cmd1 : UInt8) (payload : List UInt8) : List UInt8 :=
  (((Msg.alloc (-1) cmd0 cmd1).wrBuf mi payload).format mi).bytes

/-- A payload that goes into the buffer, and its length into the length field. -/
def PayloadFits (mi : Iface) (payload : List UInt8) : Prop :=
  mi.frameLen + payload.length ≤ iobufSize ∧ (mi.len2bytes = false → payload.length ≤ 255)

theorem Msg.wrBuf_eq (mi : Iface) {m : Msg} (data : List UInt8) {x : Nat} (hok : m.isError = false)
    (hidx : m.wrIdx mi = x) (hfit : x + data.length ≤ iobufSize) :
    ∃ iobuf k, m.iobuf.write x data = some iobuf ∧ m.wrBuf mi data =
        { m with iobuf := iobuf, iobufIdx := some (x + data.length), iobufNvalid := k } := by
  unfold Msg.wrBuf
  rw [hok, hidx, if_neg Bool.false_ne_true]
  by_cases hnil : data = []
  · refine ⟨m.iobuf, m.iobufNvalid, ?_, ?_⟩
    · rw [hnil, Block.write_nil]
    · rw [if_pos hnil, hnil, length_nil, Nat.add_zero]
  · have hsome : (m.iobuf.write x data).isSome := Block.write_isSome.mpr (.inr hfit)
    obtain ⟨iobuf, hio⟩ := isSome_iff_exists.mp hsome
    exact ⟨iobuf, m.iobufNvalid + data.length, hio, by rw [if_neg hnil, hio]⟩

/-- **The bytes of a formatted message.** -/
theorem formatted_eq (mi : Iface) (cmd0 cmd1 : UInt8) {payload : List UInt8}
    (h : mi.frameLen + payload.length ≤ iobufSize) :
    formatted mi cmd0 cmd1 payload = wire mi cmd0 cmd1 payload := by
  obtain ⟨iobuf, k, hio, hwr⟩ := Msg.wrBuf_eq mi (m := Msg.alloc (-1) cmd0 cmd1) payload
    (x := mi.headerLen) rfl rfl (by unfold Iface.frameLen at h; omega)
  rw [formatted, hwr]
  have hunset : (-1 : Int) < 0 := by decide
  exact (Msg.bytes_format mi rfl rfl (.inl hunset) (Block.holds_write hio) h).1

end DcuDaemon.Mt
