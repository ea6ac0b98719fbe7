/-
  Receiving a message (`mt_msg_rx`, `mt_msg_rx_bytes` in `linux-host/src/mt_interface/api/src/mt_msg.c`,
  the build without `NPI_USE_NLI`).

  The receiver asks for the bytes of a message without a payload, reads the header out of what it got,
  adds the length to what it needs and asks again. It does not check that the header is there, and after
  a short read it adds the length once more, so that a message that does not come in two reads is mostly
  never complete.

  Main result: `rx_formatted_iff`.
-/
import DcuDaemon.Mt.Msg
import DcuDaemon.Spinel.Fields

namespace DcuDaemon.Mt

open Lib Spinel List Option

/-! ## 1. The stream -/

/-- What the reads of an interface find. An empty chunk is a timeout, and so is every read behind the last. -/
abbrev Stream := List (List UInt8)

/-- `STREAM_rdBytes`: at most `n` bytes, the rest of a chunk stays for the next read. -/
def rdBytes (n : Nat) : Stream → List UInt8 × Stream
  | [] => ([], [])
  | c :: cs => if c.length ≤ n then (c, cs) else (c.take n, c.drop n :: cs)

/-- `STREAM_rdDump`: everything up to a read that times out. -/
def rdDump : Stream → Stream
  | [] => []
  | [] :: cs => cs
  | (_ :: _) :: cs => rdDump cs

/-! ## 2. The receiver -/

/-- `pCurRxMsg` while it is received, and `nneed`. -/
structure RxState where
  iobuf : Block UInt8 iobufSize
  nvalid : Nat
  nneed : Nat

variable (mi : Iface)

/-- At the label `try_again`. -/
def RxState.tryAgain : RxState := ⟨Block.fill iobufSize 0, 0, mi.frameLen⟩

/-- `mt_msg_rx_bytes`: the result, `none` if the read goes behind the buffer. -/
def rxBytes (n : Nat) (st : RxState) (s : Stream) : Option (Nat × RxState × Stream) :=
  if st.nvalid ≥ n then some (n, st, s)
  else
    (st.iobuf.write st.nvalid (rdBytes (n - st.nvalid) s).1).map fun iobuf =>
      (st.nvalid + (rdBytes (n - st.nvalid) s).1.length,
        { st with iobuf := iobuf, nvalid := st.nvalid + (rdBytes (n - st.nvalid) s).1.length },
        (rdBytes (n - st.nvalid) s).2)

/-- What the hunt for the sync byte ends with. -/
inductive Hunt where
  /-- There is none. -/
  | lost
  /-- It was moved to the front, and more bytes are needed. -/
  | short (st : RxState)
  | found (st : RxState)

/-- The hunt for the sync byte; `memmove` and `memset` are copies too. -/
def huntSync (st : RxState) : Option Hunt :=
  if mi.frameSync then
    match (st.iobuf.slice 0 st.nvalid).findIdx? (· == 0xFE) with
    | none => some .lost
    | some 0 => some (.found st)
    | some k =>
      (st.iobuf.write 0 (st.iobuf.slice k (st.nvalid - k))).bind fun moved =>
        (moved.write (st.nvalid - k) (List.replicate k 0)).map fun iobuf =>
          if st.nneed > st.nvalid - k then .short { st with iobuf := iobuf, nvalid := st.nvalid - k }
          else .found { st with iobuf := iobuf, nvalid := st.nvalid - k }
  else some (.found st)

/-- A message of which nothing is read yet. -/
def RxState.msg (st : RxState) : Msg := ⟨st.iobuf, st.nvalid, some 0, -1, 0, 0, .unknown, false⟩

def readLength (m : Msg) : Nat × Msg :=
  if mi.len2bytes then m.rdU16 else (m.rdU8.1.toNat, m.rdU8.2)

/-- The header, as far as it was received. -/
def parseHeader (st : RxState) : Msg :=
  let synced := if mi.frameSync then st.msg.rdU8.2 else st.msg
  let (len, sized) := readLength mi synced
  let (cmd0, m) := sized.rdU8
  let (cmd1, m) := m.rdU8
  { m with expectedLen := len, cmd0 := cmd0, cmd1 := cmd1 }

inductive PassResult where
  /-- `return NULL`. -/
  | null (s : Stream)
  /-- `goto read_more`, or `goto try_again`. -/
  | again (st : RxState) (s : Stream)
  | done (m : Msg) (s : Stream)

/-- All bytes are there: checksum and type. -/
def complete (m : Msg) (st : RxState) (s : Stream) : PassResult :=
  let m := Msg.rdSkip m.expectedLen.toNat { m with iobuf := st.iobuf, iobufNvalid := st.nvalid }
  if mi.includeChksum = true ∧ m.calcChksum mi m.iobufNvalid ≠ 0 then
    .again (.tryAgain mi) (rdDump s)
  else .done { m with mType := m.setType (some mi), iobufIdx := some mi.headerLen } s

/-- From the header on. -/
def readPayload (st : RxState) (s : Stream) : Option PassResult :=
  let m := parseHeader mi st
  let nneed := st.nneed + m.expectedLen.toNat
  (rxBytes nneed { st with nneed := nneed } s).map fun (r, st, s) =>
    if r ≠ nneed then
      if r > 0 then .again st s else .again (.tryAgain mi) (rdDump s)
    else complete mi m st s

/-- From `read_more` to the next jump or return. -/
def pass (st : RxState) (s : Stream) : Option PassResult := (rxBytes st.nneed st s).bind fun (r, st, s) =>
    if r = 0 then some (.null s)
    else
      (huntSync mi st).bind fun
        | .lost => some (.again (.tryAgain mi) s)
        | .short st => some (.again st s)
        | .found st => readPayload mi st s

inductive RxOutcome where
  /-- A read went behind the buffer. -/
  | fault
  | null (s : Stream)
  | message (m : Msg) (s : Stream)

/-- The passes of a call, as many as the fuel allows. -/
def rxLoop : Nat → RxState → Stream → Option RxOutcome
  | 0, _, _ => none
  | fuel + 1, st, s =>
    match pass mi st s with
    | none => some .fault
    | some (.null s) => some (.null s)
    | some (.done m s) => some (.message m s)
    | some (.again st s) => rxLoop fuel st s

/-- `mt_msg_rx`. What an earlier call left in `pCurRxMsg` is cleared first. -/
def mtMsgRx (fuel : Nat) (s : Stream) : Option RxOutcome := rxLoop mi fuel (.tryAgain mi) s

/-! ## 3. Reading from a stream -/

section Reads

variable {n : Nat} {s : Stream}

theorem rdBytes_flatten (n : Nat) (s : Stream) :
    (rdBytes n s).1 ++ (rdBytes n s).2.flatten = s.flatten := by
  cases s with
  | nil => rfl
  | cons c cs =>
    rw [rdBytes]
    split
    · rfl
    · rw [flatten_cons, ← append_assoc, take_append_drop, flatten_cons]

theorem rdBytes_ne_nil (h : ∀ c ∈ s, c ≠ []) : ∀ c ∈ (rdBytes n s).2, c ≠ [] := by
  cases s with
  | nil => exact h
  | cons c cs =>
    rw [rdBytes]
    split
    · exact fun d hd => h d (mem_cons_of_mem _ hd)
    · intro d hd
      rcases mem_cons.mp hd with rfl | hd
      · rw [ne_eq, drop_eq_nil_iff]
        assumption
      · exact h d (mem_cons_of_mem _ hd)

end Reads

/-! ## 4. Parts of a message -/

/-- The receiver has the first `k` bytes of `w`. -/
structure Collected (w : List UInt8) (k : Nat) (st : RxState) : Prop where
  nvalid : st.nvalid = k
  holds : st.iobuf.Holds 0 (w.take k)
  le : k ≤ w.length

/-- Where a request for `n` bytes leaves a receiver that has `k`. -/
def readTo (n k : Nat) (s : Stream) : Nat × Stream :=
  if n ≤ k then (k, s) else (k + (rdBytes (n - k) s).1.length, (rdBytes (n - k) s).2)

section Collected

variable {w : List UInt8} {k n : Nat} {st : RxState} {s : Stream}

theorem readTo_flatten (hs : s.flatten = w.drop k) :
    (readTo n k s).2.flatten = w.drop (readTo n k s).1 := by
  unfold readTo
  split
  · exact hs
  · have hsplit := rdBytes_flatten (n - k) s
    rw [hs] at hsplit
    rw [← drop_drop, ← hsplit, drop_left]

theorem readTo_ne_nil (h : ∀ c ∈ s, c ≠ []) : ∀ c ∈ (readTo n k s).2, c ≠ [] := by
  unfold readTo
  split
  · exact h
  · exact rdBytes_ne_nil h

theorem le_readTo (n k : Nat) (s : Stream) : k ≤ (readTo n k s).1 := by
  unfold readTo
  split
  · exact Nat.le_refl k
  · exact Nat.le_add_right _ _

theorem readTo_le_length (hk : k ≤ w.length) (hs : s.flatten = w.drop k) : (readTo n k s).1 ≤ w.length := by
  have hsplit := congrArg length (rdBytes_flatten (n - k) s)
  rw [hs, length_append, length_drop] at hsplit
  unfold readTo
  split
  · exact hk
  · omega

theorem readTo_spec {k' : Nat} {s' : Stream} (h : readTo n k s = (k', s')) (hk : k ≤ w.length)
    (hs : s.flatten = w.drop k) : k ≤ k' ∧ k' ≤ w.length ∧ s'.flatten = w.drop k' := by
  have hmono := le_readTo n k s
  have hle := readTo_le_length (n := n) hk hs
  have hrest := readTo_flatten (n := n) hs
  rw [h] at hmono hle hrest
  exact ⟨hmono, hle, hrest⟩

/-- **A read goes on collecting.** -/
theorem rxBytes_collected (hw : w.length ≤ iobufSize) (h : Collected w k st)
    (hs : s.flatten = w.drop k) (n : Nat) :
    ∃ st', rxBytes n st s =
        some (if n ≤ k then n else (readTo n k s).1, st', (readTo n k s).2) ∧
      Collected w (readTo n k s).1 st' ∧ st'.nneed = st.nneed := by
  unfold rxBytes
  rw [h.nvalid]
  by_cases hn : n ≤ k
  · refine ⟨st, ?_, ?_, rfl⟩
    · rw [if_pos hn, if_pos hn, readTo, if_pos hn]
    · rw [readTo, if_pos hn]
      exact h
  · have hle := readTo_le_length (n := n) h.le hs
    have hread : readTo n k s = (k + (rdBytes (n - k) s).1.length, (rdBytes (n - k) s).2) := if_neg hn
    rw [hread] at hle
    have hsome : (st.iobuf.write k (rdBytes (n - k) s).1).isSome :=
      Block.write_isSome.mpr (.inr (hle.trans hw))
    obtain ⟨iobuf, hio⟩ := isSome_iff_exists.mp hsome
    refine ⟨{ st with iobuf := iobuf, nvalid := k + (rdBytes (n - k) s).1.length }, ?_, ?_, rfl⟩
    · rw [if_neg hn, if_neg hn, hio, hread, map_some]
    · rw [hread]
      refine ⟨rfl, ?_, hle⟩
      have hsplit := rdBytes_flatten (n - k) s
      rw [hs] at hsplit
      have htake : w.take (k + (rdBytes (n - k) s).1.length) = w.take k ++ (rdBytes (n - k) s).1 := by
        rw [take_add, ← hsplit, take_left]
      have hlen : (w.take k).length = k := by
        rw [length_take]
        exact Nat.min_eq_left h.le
      rw [htake]
      refine Block.holds_append.mpr ⟨h.holds.write hio (.inl (by omega)), ?_⟩
      rw [hlen, Nat.zero_add]
      exact Block.holds_write hio

end Collected

/-! ## 5. The header of a part of a message -/

/-- A message that has the first bytes of `w`, before its byte `i`. -/
structure Reading (w : List UInt8) (i : Nat) (m : Msg) : Prop where
  ok : m.isError = false
  idx : m.iobufIdx = some i
  idx_le : i ≤ m.iobufNvalid
  le : m.iobufNvalid ≤ w.length
  holds : m.iobuf.Holds 0 (w.take m.iobufNvalid)

namespace Reading

variable {w : List UInt8} {i : Nat} {m : Msg}

variable (h : Reading w i m)

include h

theorem not_error : ¬ m.isError := by
  rw [h.ok]
  exact Bool.false_ne_true

theorem cell (hlt : i < m.iobufNvalid) : m.iobuf.cells.getD i 0 = w.getD i 0 := by
  have hat := h.holds i (by rw [length_take]; have := h.le; omega)
  rw [Nat.zero_add, List.getElem?_take_of_lt hlt] at hat
  rw [getD_eq_getElem?_getD, getD_eq_getElem?_getD, hat]

theorem move {j : Nat} (hj : j ≤ m.iobufNvalid) : Reading w j (m.seek j) := ⟨h.ok, rfl, hj, h.le, h.holds⟩

theorem rdUX (n : Nat) :
    m.rdUX n =
      (if i + n ≤ m.iobufNvalid then some (PackReader.leValue ((w.drop i).take n)) else none,
        m.seek (min (i + n) m.iobufNvalid)) := by
  induction n generalizing i m with
  | zero =>
    have hmin : min (i + 0) m.iobufNvalid = i := Nat.min_eq_left h.idx_le
    rw [hmin, Msg.seek_self h.idx]
    exact Prod.ext (if_pos h.idx_le).symm rfl
  | succ n ih =>
    unfold Msg.rdUX
    rw [h.idx, getD_some]
    rcases Nat.lt_or_ge i m.iobufNvalid with hlt | hge
    · have hlen := h.le
      have hcons : w.drop i = w.getD i 0 :: w.drop (i + 1) := by
        rw [drop_eq_getElem_cons (by omega), getD_eq_getElem?_getD,
          List.getElem?_eq_getElem (by omega), getD_some]
      rw [if_pos hlt]
      dsimp only
      rw [ih (h.move hlt), h.cell hlt, hcons, take_succ_cons, PackReader.leValue,
        Nat.add_assoc i 1 n, Nat.add_comm 1 n, Msg.seek_iobufNvalid, Msg.seek_seek]
      by_cases hroom : i + (n + 1) ≤ m.iobufNvalid
      · rw [if_pos hroom, if_pos hroom, map_some]
      · rw [if_neg hroom, if_neg hroom, map_none]
    · have hend : i = m.iobufNvalid := Nat.le_antisymm h.idx_le hge
      have hmin : min (i + (n + 1)) m.iobufNvalid = i := by omega
      rw [if_neg (by omega), if_neg (by omega), hmin]

theorem rdU8 :
    m.rdU8 =
      (if i + 1 ≤ m.iobufNvalid then w.getD i 0 else 0xFF, m.seek (min (i + 1) m.iobufNvalid)) := by
  unfold Msg.rdU8
  rw [if_neg h.not_error, h.rdUX]
  by_cases hroom : i + 1 ≤ m.iobufNvalid
  · have hlen := h.le
    have hone : (w.drop i).take 1 = [w.getD i 0] := by
      rw [drop_eq_getElem_cons (by omega), take_succ_cons, take_zero,
        getD_eq_getElem?_getD, List.getElem?_eq_getElem (by omega), getD_some]
    rw [if_pos hroom, if_pos hroom, hone]
    rw [getD_some, PackReader.leValue, PackReader.leValue, Nat.add_zero, UInt8.ofNat_toNat]
  · rw [if_neg hroom, if_neg hroom]
    rfl

theorem rdU16 :
    m.rdU16 =
      (if i + 2 ≤ m.iobufNvalid then PackReader.leValue ((w.drop i).take 2) else 0xFFFF,
        m.seek (min (i + 2) m.iobufNvalid)) := by
  unfold Msg.rdU16
  rw [if_neg h.not_error, h.rdUX]
  by_cases hroom : i + 2 ≤ m.iobufNvalid
  · rw [if_pos hroom, if_pos hroom]
    rfl
  · rw [if_neg hroom, if_neg hroom]
    rfl

end Reading

/-- A message that is sent. -/
structure Request where
  cmd0 : UInt8
  cmd1 : UInt8
  payload : List UInt8

abbrev Request.wire (q : Request) : List UInt8 := Mt.wire mi q.cmd0 q.cmd1 q.payload

theorem Request.length_wire (q : Request) : (q.wire mi).length = mi.frameLen + q.payload.length :=
  Mt.length_wire mi q.cmd0 q.cmd1 q.payload

section Header

variable {mi : Iface} {q : Request}

/-- The length that is read out of the first `k` bytes. -/
def lengthAt (mi : Iface) (length k : Nat) : Nat :=
  if mi.lengthEnd ≤ k then length else if mi.len2bytes then 0xFFFF else 0xFF

def cmd0At (mi : Iface) (cmd0 : UInt8) (k : Nat) : UInt8 :=
  if mi.lengthEnd + 1 ≤ k then cmd0 else 0xFF

def cmd1At (mi : Iface) (cmd1 : UInt8) (k : Nat) : UInt8 :=
  if mi.headerLen ≤ k then cmd1 else 0xFF

theorem lengthEnd_eq (mi : Iface) (n : Nat) :
    mi.lengthEnd = (syncField mi).length + (lengthField mi n).length := by
  rw [length_syncField, length_lengthField, Iface.lengthEnd]

theorem drop_sync (mi : Iface) (q : Request) :
    (q.wire mi).drop (syncField mi).length =
      lengthField mi q.payload.length ++ (q.cmd0 :: q.cmd1 :: (q.payload ++
        chksumField mi (body mi q.cmd0 q.cmd1 q.payload))) := by
  rw [Request.wire, wire, body]
  simp

theorem getD_wire (mi : Iface) (q : Request) (j : Nat) :
    (q.wire mi).getD (mi.lengthEnd + j) 0 =
      (q.cmd0 :: q.cmd1 :: (q.payload ++ chksumField mi (body mi q.cmd0 q.cmd1 q.payload))).getD j 0 := by
  have hdrop := drop_sync mi q
  rw [lengthEnd_eq mi q.payload.length, getD_eq_getElem?_getD, getD_eq_getElem?_getD,
    Nat.add_assoc, ← List.getElem?_drop, hdrop, List.getElem?_append_right (Nat.le_add_right _ _),
    Nat.add_sub_cancel_left]

theorem leValue_lengthField {n : Nat} (hn : n < 65536) (h : mi.len2bytes = false → n ≤ 255) :
    PackReader.leValue (lengthField mi n) = n := by
  have hle : lengthField mi n = leBytes (if mi.len2bytes then 2 else 1) n := by
    unfold lengthField
    cases mi.len2bytes <;> rfl
  rw [hle, leValue_leBytes]
  cases hlen : mi.len2bytes with
  | true => exact Nat.mod_eq_of_lt hn
  | false => exact Nat.mod_eq_of_lt (Nat.lt_succ_of_le (h hlen))

variable {m : Msg} {w : List UInt8} {k : Nat}

/-- **The length field**, read behind the sync byte. -/
theorem readLength_eq (hfit : PayloadFits mi q.payload)
    (h : Reading (q.wire mi) (syncField mi).length m) : readLength mi m =
      (lengthAt mi q.payload.length m.iobufNvalid, m.seek (min mi.lengthEnd m.iobufNvalid)) := by
  have hsmall : q.payload.length < 65536 := by
    have := hfit.1
    unfold iobufSize at this
    omega
  have hvalue := leValue_lengthField hsmall hfit.2
  have hend := lengthEnd_eq mi q.payload.length
  rw [length_lengthField] at hend
  have hdrop := drop_sync mi q
  unfold readLength lengthAt
  by_cases hlen : mi.len2bytes
  · rw [if_pos hlen] at hend
    rw [if_pos hlen, h.rdU16, hend, if_pos hlen, hdrop, take_left' (by
      rw [length_lengthField, if_pos hlen]), hvalue]
  · rw [if_neg hlen] at hend
    have hbyte : ((q.wire mi).getD (syncField mi).length 0).toNat = q.payload.length := by
      have hfalse : mi.len2bytes = false := Bool.eq_false_iff.mpr hlen
      rw [← Nat.add_zero (syncField mi).length, getD_eq_getElem?_getD, ← List.getElem?_drop,
        hdrop, lengthField, if_neg hlen]
      exact UInt8.toNat_ofNat_of_lt' (Nat.lt_succ_of_le (hfit.2 hfalse))
    rw [if_neg hlen, h.rdU8, hend, if_neg hlen]
    by_cases hroom : (syncField mi).length + 1 ≤ m.iobufNvalid
    · rw [if_pos hroom, if_pos hroom, hbyte]
    · rw [if_neg hroom, if_neg hroom]
      rfl

theorem Reading.rdU8_min {i : Nat} (h : Reading w (min i k) m) (hk : m.iobufNvalid = k) :
    m.rdU8 = (if i + 1 ≤ k then w.getD i 0 else 0xFF, m.seek (min (i + 1) k)) := by
  subst hk
  rw [h.rdU8]
  rcases lt_or_ge i m.iobufNvalid with hlt | hge
  · rw [min_eq_left hlt.le]
  · have hmin : min (i + 1) m.iobufNvalid = m.iobufNvalid := by omega
    rw [min_eq_right hge, if_neg (by omega), if_neg (by omega), hmin, min_eq_right (Nat.le_succ _)]

theorem rdSync_eq (h : Reading w 0 m) (hk : 1 ≤ m.iobufNvalid) :
    (if mi.frameSync then m.rdU8.2 else m) = m.seek (syncField mi).length := by
  rw [length_syncField]
  by_cases hsync : mi.frameSync
  · rw [if_pos hsync, if_pos hsync, h.rdU8, min_eq_left hk]
  · rw [if_neg hsync, if_neg hsync, Msg.seek_self h.idx]

theorem length_syncField_le (mi : Iface) : (syncField mi).length ≤ 1 := by
  rw [length_syncField]
  split
  · exact Nat.le_refl 1
  · exact Nat.zero_le 1

/-- **The header of the first `k` bytes of a message.** -/
theorem parseHeader_collected {st : RxState} (hfit : PayloadFits mi q.payload)
    (h : Collected (q.wire mi) k st) (hk : 1 ≤ k) : parseHeader mi st =
      ⟨st.iobuf, k, some (min mi.headerLen k), lengthAt mi q.payload.length k, cmd0At mi q.cmd0 k,
        cmd1At mi q.cmd1 k, .unknown, false⟩ := by
  obtain ⟨rfl, hholds, hle⟩ := h
  have hstart : Reading (q.wire mi) 0 st.msg := ⟨rfl, rfl, Nat.zero_le _, hle, hholds⟩
  have hsynced := hstart.move ((length_syncField_le mi).trans hk)
  have hsized := hstart.move (Nat.min_le_right mi.lengthEnd st.nvalid)
  have hcmd0 := hstart.move (Nat.min_le_right (mi.lengthEnd + 1) st.nvalid)
  unfold parseHeader
  dsimp only
  rw [rdSync_eq hstart hk, readLength_eq hfit hsynced, Msg.seek_seek, Msg.seek_iobufNvalid]
  rw [show st.msg.iobufNvalid = st.nvalid from rfl]
  rw [hsized.rdU8_min rfl, Msg.seek_seek]
  rw [hcmd0.rdU8_min rfl, getD_wire mi q 1, ← Nat.add_zero mi.lengthEnd, getD_wire mi q 0]
  rfl

end Header

/-! ## 6. One pass over a part of a message -/

/-- Before a pass: the receiver has `k` bytes of the message and asks for the frame at least; the other
    bytes are still to come. -/
structure Midway (mi : Iface) (q : Request) (k : Nat) (st : RxState) (s : Stream) : Prop
    extends Collected (q.wire mi) k st where
  rest : s.flatten = (q.wire mi).drop k
  asked : mi.frameLen ≤ st.nneed

/-- The two reads of a pass: to `k₁`, where the header is read, and to `k₂`. -/
structure PassReads (mi : Iface) (q : Request) (k : Nat) (st : RxState) (s : Stream) (nneed k₁ k₂ : Nat)
    (s₂ : Stream) : Prop where
  pos : 1 ≤ k₁
  adds : nneed = st.nneed + lengthAt mi q.payload.length k₁
  reads : ∃ s₁, readTo st.nneed k s = (k₁, s₁) ∧ readTo nneed k₁ s₁ = (k₂, s₂)

/-- The message that is returned for the bytes `w`, `len` of them payload. -/
structure Returned (mi : Iface) (w : List UInt8) (len : Nat) (cmd0 cmd1 : UInt8) (m : Msg) :
    Prop where
  holds : m.iobuf.Holds 0 w
  nvalid : m.iobufNvalid = w.length
  idx : m.iobufIdx = some mi.headerLen
  expectedLen : m.expectedLen = len
  cmd0 : m.cmd0 = cmd0
  cmd1 : m.cmd1 = cmd1
  mType : m.mType = m.setType (some mi)
  ok : m.isError = false

section Pass

variable {mi : Iface} {q : Request} {st : RxState} {k nneed k₁ k₂ : Nat} {s s₂ : Stream}

theorem huntSync_collected (h : Collected (q.wire mi) k st) (hk : 1 ≤ k) :
    huntSync mi st = some (.found st) := by
  unfold huntSync
  by_cases hsync : mi.frameSync
  · have hfront : st.iobuf.slice 0 st.nvalid = (q.wire mi).take k := by
      have hslice := h.holds.slice_eq
      rw [length_take, min_eq_left h.le] at hslice
      rw [h.nvalid, hslice]
    obtain ⟨j, rfl⟩ : ∃ j, k = j + 1 := ⟨k - 1, by omega⟩
    rw [if_pos hsync, hfront, Request.wire, wire, syncField, if_pos hsync]
    rfl
  · rw [if_neg hsync]

variable {m : Msg}

theorem calcChksum_wire (hchk : mi.includeChksum) (hold : m.iobuf.Holds 0 (q.wire mi)) :
    m.calcChksum mi (q.wire mi).length = 0 := by
  rw [Request.wire, wire, chksumField, if_pos hchk, append_assoc] at hold ⊢
  rw [Msg.calcChksum_eq mi hold, xorSum_chksum]

theorem holds_payload {iobuf : Block UInt8 iobufSize} (hold : iobuf.Holds 0 (q.wire mi)) :
    iobuf.Holds mi.headerLen q.payload := by
  have hsplit : q.wire mi = (syncField mi ++ lengthField mi q.payload.length ++ [q.cmd0, q.cmd1]) ++
        (q.payload ++ chksumField mi (body mi q.cmd0 q.cmd1 q.payload)) := by
    simp [wire, body]
  rw [hsplit] at hold
  have hpart := (Block.holds_append.mp (Block.holds_append.mp hold).2).1
  rwa [Msg.length_header, Nat.zero_add] at hpart

theorem payload_of_holds (hold : m.iobuf.Holds 0 (q.wire mi)) (hlen : m.expectedLen = q.payload.length) :
    m.payload mi = q.payload := by
  rw [Msg.payload, hlen, Int.toNat_natCast, (holds_payload hold).slice_eq]

theorem PassReads.ne_nil (hr : PassReads mi q k st s nneed k₁ k₂ s₂) (hne : ∀ c ∈ s, c ≠ []) :
    ∀ c ∈ s₂, c ≠ [] := by
  obtain ⟨s₁, hfirst, hsecond⟩ := hr.reads
  have hne₁ := readTo_ne_nil (n := st.nneed) (k := k) hne
  rw [hfirst] at hne₁
  have hne₂ := readTo_ne_nil (n := nneed) (k := k₁) hne₁
  rwa [hsecond] at hne₂

variable (hfit : PayloadFits mi q.payload)

include hfit

theorem le_lengthAt (k : Nat) : q.payload.length ≤ lengthAt mi q.payload.length k := by
  have hsmall := hfit.1
  unfold iobufSize at hsmall
  unfold lengthAt
  split
  · exact Nat.le_refl _
  · cases hlen : mi.len2bytes with
    | true => simp only [if_true]; omega
    | false => exact hfit.2 hlen

theorem PassReads.spec (h : Midway mi q k st s) (hr : PassReads mi q k st s nneed k₁ k₂ s₂) :
    1 ≤ k₂ ∧ k₂ ≤ (q.wire mi).length ∧ st.nneed + q.payload.length ≤ nneed ∧
      s₂.flatten = (q.wire mi).drop k₂ := by
  obtain ⟨hpos, hadd, s₁, hfirst, hsecond⟩ := hr
  obtain ⟨_, hle₁, hs₁⟩ := readTo_spec hfirst h.le h.rest
  obtain ⟨hk₂, hle₂, hs₂⟩ := readTo_spec hsecond hle₁ hs₁
  have hlen := le_lengthAt hfit k₁
  exact ⟨hpos.trans hk₂, hle₂, by omega, hs₂⟩

/-- **A whole message is returned**, with the header fields that were read before. -/
theorem complete_collected (h : Collected (q.wire mi) (q.wire mi).length st)
    (hok : m.isError = false) {i : Nat} (hidx : m.iobufIdx = some i) (hi : i ≤ mi.headerLen)
    (hlen : m.expectedLen = q.payload.length) : ∃ m', complete mi m st s = .done m' s ∧
      Returned mi (q.wire mi) q.payload.length m.cmd0 m.cmd1 m' := by
  have hroom := hfit.1
  have hhold := h.holds
  rw [take_length] at hhold
  have hskip : Msg.rdSkip m.expectedLen.toNat { m with iobuf := st.iobuf, iobufNvalid := st.nvalid } =
      Msg.seek (i + q.payload.length) { m with iobuf := st.iobuf, iobufNvalid := st.nvalid } := by
    unfold Msg.rdSkip
    rw [hok, if_neg Bool.false_ne_true, hidx, getD_some, hlen, Int.toNat_natCast]
    by_cases hzero : q.payload.length = 0
    · rw [if_pos hzero, hzero, Nat.add_zero]
    · unfold Iface.frameLen at hroom
      rw [if_neg hzero, if_neg (by omega)]
  have hsum : ¬ (mi.includeChksum ∧
      (Msg.seek (i + q.payload.length) { m with iobuf := st.iobuf, iobufNvalid := st.nvalid }).calcChksum
        mi st.nvalid ≠ 0) := by
    intro ⟨hchk, hne⟩
    rw [h.nvalid] at hne
    exact hne (calcChksum_wire hchk hhold)
  unfold complete
  dsimp only
  rw [hskip, Msg.seek_iobufNvalid, if_neg hsum]
  exact ⟨_, rfl, hhold, h.nvalid, rfl, hlen, rfl, rfl, rfl, hok⟩

theorem readPayload_midway (h : Midway mi q k st s) (hk : 1 ≤ k)
    (hadd : nneed = st.nneed + lengthAt mi q.payload.length k) (hread : readTo nneed k s = (k₂, s₂)) :
    (k₂ = nneed → ∃ m, readPayload mi st s = some (.done m s₂) ∧
      Returned mi (q.wire mi) q.payload.length (cmd0At mi q.cmd0 k) (cmd1At mi q.cmd1 k) m) ∧
    (k₂ ≠ nneed → ∃ st', readPayload mi st s = some (.again st' s₂) ∧
      Midway mi q k₂ st' s₂ ∧ st'.nneed = nneed) := by
  have hwire := q.length_wire mi
  have hlen := le_lengthAt hfit k
  have hneed := h.asked
  have hkeep : Collected (q.wire mi) k { st with nneed := nneed } := ⟨h.nvalid, h.holds, h.le⟩
  obtain ⟨st', hrx, hst', hneed'⟩ := rxBytes_collected (hwire.trans_le hfit.1) hkeep h.rest nneed
  obtain ⟨hmono, hle, hs₂⟩ := readTo_spec hread h.le h.rest
  rw [hread] at hrx hst'
  -- The receiver never asks for less than the whole message here, so what `rxBytes` returns is how
  -- far it got.
  have hr : (if nneed ≤ k then nneed else k₂) = k₂ := by
    split
    · omega
    · rfl
  rw [hr] at hrx
  have hheader := parseHeader_collected hfit h.toCollected hk
  have hpass : readPayload mi st s =
      some (if k₂ ≠ nneed then (if k₂ > 0 then .again st' s₂ else .again (.tryAgain mi) (rdDump s₂))
        else complete mi (parseHeader mi st) st' s₂) := by
    have hexp : (parseHeader mi st).expectedLen.toNat = lengthAt mi q.payload.length k := by
      rw [hheader]
      exact Int.toNat_natCast _
    unfold readPayload
    dsimp only
    rw [hexp, ← hadd, hrx]
    rfl
  constructor
  · intro hdone
    have hexact : lengthAt mi q.payload.length k = q.payload.length := by omega
    rw [show k₂ = (q.wire mi).length by omega] at hst'
    obtain ⟨m, hm, hret⟩ := complete_collected (m := parseHeader mi st) (s := s₂) hfit hst'
      (by rw [hheader]) (by rw [hheader]) (Nat.min_le_left mi.headerLen k) (by rw [hheader, hexact])
    rw [hpass, if_neg (not_not.mpr hdone), hm]
    rw [hheader] at hret
    exact ⟨m, rfl, hret⟩
  · intro hshort
    rw [hpass, if_pos hshort, if_pos (by omega)]
    exact ⟨st', rfl, ⟨hst', hs₂, by rw [hneed']; exact hadd ▸ Nat.le_add_right_of_le hneed⟩, hneed'⟩

/-- **One pass**: two reads, with the header read in between. -/
theorem pass_midway (h : Midway mi q k st s) (hr : PassReads mi q k st s nneed k₁ k₂ s₂) :
    (k₂ = nneed → ∃ m, pass mi st s = some (.done m s₂) ∧
      Returned mi (q.wire mi) q.payload.length (cmd0At mi q.cmd0 k₁) (cmd1At mi q.cmd1 k₁) m) ∧
    (k₂ ≠ nneed → ∃ st', pass mi st s = some (.again st' s₂) ∧
      Midway mi q k₂ st' s₂ ∧ st'.nneed = nneed) := by
  obtain ⟨hk, hadd, s₁, hfirst, hsecond⟩ := hr
  have hsize : (q.wire mi).length ≤ iobufSize := (q.length_wire mi).trans_le hfit.1
  obtain ⟨st₁, hrx, hst₁, hneed₁⟩ := rxBytes_collected hsize h.toCollected h.rest st.nneed
  have hs₁ := (readTo_spec hfirst h.le h.rest).2.2
  rw [hfirst] at hrx hst₁
  have hneed := h.asked
  have hpos : (if st.nneed ≤ k then st.nneed else k₁) ≠ 0 := by
    have : 0 < mi.frameLen := lt_of_lt_of_le (Nat.succ_pos _) (Nat.le_add_right _ _)
    split <;> omega
  have hpass : pass mi st s = readPayload mi st₁ s₁ := by
    unfold pass
    rw [hrx, bind_some]
    dsimp only
    rw [if_neg hpos, huntSync_collected hst₁ hk, bind_some]
  rw [hpass]
  exact readPayload_midway hfit ⟨hst₁, hs₁, hneed₁ ▸ hneed⟩ hk (by rw [hneed₁, hadd]) hsecond

end Pass

/-! ## 7. All passes of a call -/

/-- From here the call returns the message, and nothing is left of the stream. -/
def ReturnsFrom (q : Request) (st : RxState) (s : Stream) : Prop :=
  ∃ fuel m, rxLoop mi fuel st s = some (.message m []) ∧ m.cmd0 = q.cmd0 ∧ m.cmd1 = q.cmd1 ∧
    m.payload mi = q.payload

/-- A header that is read right out of the first `k` bytes: a `cmd1` that is missing reads as
    `0xFF`. -/
def HeaderRead (cmd1 : UInt8) (k : Nat) : Prop := mi.lengthEnd + 1 ≤ k ∧ (mi.headerLen ≤ k ∨ cmd1 = 0xFF)

section Run

variable {mi : Iface} {q : Request} {st st' : RxState} {k : Nat} {s s' : Stream}

theorem returnsFrom_again (h : pass mi st s = some (.again st' s')) :
    ReturnsFrom mi q st s ↔ ReturnsFrom mi q st' s' := by
  constructor
  · intro ⟨fuel, m, hrun, hm⟩
    cases fuel with
    | zero => cases hrun
    | succ fuel =>
      rw [rxLoop, h] at hrun
      exact ⟨fuel, m, hrun, hm⟩
  · intro ⟨fuel, m, hrun, hm⟩
    exact ⟨fuel + 1, m, by rw [rxLoop, h]; exact hrun, hm⟩

theorem returnsFrom_done {m : Msg} (h : pass mi st s = some (.done m [])) :
    ReturnsFrom mi q st s ↔ m.cmd0 = q.cmd0 ∧ m.cmd1 = q.cmd1 ∧ m.payload mi = q.payload := by
  constructor
  · intro ⟨fuel, m', hrun, hm⟩
    cases fuel with
    | zero => cases hrun
    | succ fuel =>
      rw [rxLoop, h] at hrun
      cases hrun
      exact hm
  · intro hm
    exact ⟨1, m, by rw [rxLoop, h], hm⟩

theorem headerRead_iff (mi : Iface) (hcmd0 : q.cmd0 < 0x80) (k : Nat) :
    (cmd0At mi q.cmd0 k = q.cmd0 ∧ cmd1At mi q.cmd1 k = q.cmd1) ↔ HeaderRead mi q.cmd1 k := by
  unfold cmd0At cmd1At HeaderRead
  grind

theorem eq_nil_of_flatten (hne : ∀ c ∈ s, c ≠ []) (h : s.flatten = []) : s = [] := by
  cases s with
  | nil => rfl
  | cons c cs =>
    rw [flatten_cons, append_eq_nil_iff] at h
    exact absurd h.1 (hne c mem_cons_self)

variable {k₁ k₂ n nneed : Nat} {s₁ s₂ : Stream} {c : List UInt8}

theorem readTo_cons (hlt : k < n) (hc : k + c.length ≤ n) : readTo n k (c :: s) = (k + c.length, s) := by
  rw [readTo, if_neg (by omega), rdBytes, if_pos (by omega)]

theorem headerLen_eq (mi : Iface) : mi.headerLen = mi.lengthEnd + 2 := rfl

theorem headerLen_le (mi : Iface) : mi.headerLen ≤ mi.frameLen := Nat.le_add_right _ _

theorem lengthAt_of_le {length : Nat} (h : mi.lengthEnd ≤ k) : lengthAt mi length k = length := if_pos h

theorem lengthAt_pos (length : Nat) (h : ¬ mi.lengthEnd ≤ k) : 0 < lengthAt mi length k := by
  rw [lengthAt, if_neg h]
  split <;> decide

theorem length_pos_of_mem (hne : ∀ c ∈ s, c ≠ []) (hc : c ∈ s) : 0 < c.length :=
  length_pos_iff.mpr (hne c hc)

theorem midway_tryAgain (hs : s.flatten = q.wire mi) : Midway mi q 0 (.tryAgain mi) s :=
  ⟨⟨rfl, fun i hi => absurd hi (by simp), Nat.zero_le _⟩, hs, Nat.le_refl _⟩

theorem readTo_part (hpos : 0 < n) (hlt : n < c.length) (r : Stream) :
    readTo n 0 (c :: r) = (n, c.drop n :: r) := by
  rw [readTo, if_neg (by omega), rdBytes, if_neg (by omega)]
  simp only [length_take, Nat.sub_zero, Prod.mk.injEq, and_true]
  omega

theorem readTo_rest {m : Nat} (hlt : n < c.length) (hm : c.length ≤ m)
    (r : Stream) : readTo m n (c.drop n :: r) = (c.length, r) := by
  rw [readTo_cons (by omega) (by rw [length_drop]; omega), length_drop]
  congr 1
  omega

theorem readTo_chunk (hpos : 0 < n) (hn : n ≤ c.length) :
    ∃ s, readTo n 0 [c] = (n, s) ∧ readTo c.length n s = (c.length, []) := by
  rcases Nat.lt_or_ge n c.length with hlt | hge
  · exact ⟨[c.drop n], readTo_part hpos hlt [], readTo_rest hlt (Nat.le_refl _) []⟩
  · obtain rfl : n = c.length := Nat.le_antisymm hn hge
    refine ⟨[], ?_, if_pos (Nat.le_refl _)⟩
    rw [readTo_cons hpos (by omega), Nat.zero_add]

variable (hfit : PayloadFits mi q.payload)

include hfit

/-- **A receiver that asks for more than the message never returns it**: every further pass adds
    the length once more. -/
theorem rxLoop_stuck (fuel : Nat) (h : Midway mi q k st s) (hk : 1 ≤ k)
    (hmore : (q.wire mi).length < st.nneed + q.payload.length) : rxLoop mi fuel st s = none := by
  induction fuel generalizing k st s with
  | zero => rfl
  | succ fuel ih =>
    have hr : PassReads mi q k st s _ _ _ _ := ⟨hk.trans (le_readTo st.nneed k s), rfl, _, rfl, rfl⟩
    obtain ⟨hpos, hle, hneed, -⟩ := hr.spec hfit h
    obtain ⟨st', hpass, hst', hneed'⟩ := (pass_midway hfit h hr).2 (by omega)
    rw [rxLoop, hpass]
    exact ih hst' hpos (by omega)

theorem not_returnsFrom_of_stuck (h : Midway mi q k st s) (hk : 1 ≤ k)
    (hmore : (q.wire mi).length < st.nneed + q.payload.length) : ¬ ReturnsFrom mi q st s := by
  intro ⟨fuel, m, hrun, _⟩
  rw [rxLoop_stuck hfit fuel h hk hmore] at hrun
  cases hrun

/-- **A message in one chunk is returned by the first pass.** -/
theorem pass_one_chunk : ∃ m, pass mi (.tryAgain mi) [q.wire mi] = some (.done m []) ∧
      Returned mi (q.wire mi) q.payload.length q.cmd0 q.cmd1 m := by
  have hwire := q.length_wire mi
  have hheader := headerLen_le mi
  have hheader' := headerLen_eq mi
  have hlength : lengthAt mi q.payload.length mi.frameLen = q.payload.length := lengthAt_of_le (by omega)
  have hcmd0 : cmd0At mi q.cmd0 mi.frameLen = q.cmd0 := if_pos (by omega)
  have hcmd1 : cmd1At mi q.cmd1 mi.frameLen = q.cmd1 := if_pos hheader
  have hreads := readTo_chunk (n := mi.frameLen) (c := q.wire mi) (by omega) (by omega)
  obtain ⟨m, hpass, hret⟩ := (pass_midway hfit (midway_tryAgain (append_nil _))
    ⟨by omega, by rw [hlength]; exact hwire, hreads⟩).1 rfl
  rw [hcmd0, hcmd1] at hret
  exact ⟨m, hpass, hret⟩

variable (hcmd0 : q.cmd0 < 0x80)

include hcmd0

/-- A pass that collects the whole message ends the call; any other one leaves it to the next. -/
theorem returnsFrom_pass (h : Midway mi q k st s) (hne : ∀ c ∈ s, c ≠ [])
    (hr : PassReads mi q k st s nneed k₁ k₂ s₂) :
    (k₂ = nneed → (ReturnsFrom mi q st s ↔ HeaderRead mi q.cmd1 k₁)) ∧
    (k₂ ≠ nneed → ∃ st', Midway mi q k₂ st' s₂ ∧ st'.nneed = nneed ∧
      (ReturnsFrom mi q st s ↔ ReturnsFrom mi q st' s₂)) := by
  obtain ⟨hdone, hagain⟩ := pass_midway hfit h hr
  constructor
  · intro heq
    obtain ⟨m, hpass, hret⟩ := hdone heq
    have hp := payload_of_holds hret.holds hret.expectedLen
    have hnil : s₂ = [] := by
      obtain ⟨-, -, hneed, hs₂⟩ := hr.spec hfit h
      have hasked := h.asked
      refine eq_nil_of_flatten (hr.ne_nil hne) ?_
      rw [hs₂, drop_eq_nil_iff, length_wire]
      omega
    rw [hnil] at hpass
    rw [returnsFrom_done hpass, hret.cmd0, hret.cmd1, ← headerRead_iff mi hcmd0 k₁]
    exact ⟨fun hm => ⟨hm.1, hm.2.1⟩, fun hm => ⟨hm.1, hm.2, hp⟩⟩
  · intro hshort
    obtain ⟨st', hpass, hst', hneed'⟩ := hagain hshort
    exact ⟨st', hst', hneed', returnsFrom_again hpass⟩

section Empty

variable (hzero : q.payload.length = 0) {d : List UInt8} {r : Stream}

include hzero

/-- A chunk comes short, without a payload: the length is there and the second read is one chunk more, or
    the receiver is stuck. -/
theorem passReads_or_stuck (hne : ∀ x ∈ c :: d :: r, x ≠ []) (h : Midway mi q k st (c :: d :: r))
    (hneed : st.nneed = mi.frameLen) :
    if mi.lengthEnd ≤ k + c.length then
      PassReads mi q k st (c :: d :: r) mi.frameLen (k + c.length) (k + c.length + d.length) r ∧
        k + c.length + d.length + r.flatten.length = mi.frameLen
    else ¬ ReturnsFrom mi q st (c :: d :: r) := by
  have hwire := q.length_wire mi
  have hc := length_pos_of_mem hne mem_cons_self
  have hd := length_pos_of_mem hne (mem_cons_of_mem _ mem_cons_self)
  have hlen := congrArg List.length h.rest
  simp only [flatten_cons, length_append, length_drop] at hlen
  have hfirst : readTo st.nneed k (c :: d :: r) = (k + c.length, d :: r) :=
    readTo_cons (by omega) (by omega)
  split
  · rename_i hlength
    refine ⟨⟨by omega, ?_, _, hfirst, readTo_cons (by omega) (by omega)⟩, by omega⟩
    rw [lengthAt_of_le hlength, hneed, hzero, Nat.add_zero]
  · rename_i hshort
    have hr : PassReads mi q k st (c :: d :: r) _ _ _ _ := ⟨by omega, rfl, _, hfirst, rfl⟩
    have hpos := lengthAt_pos q.payload.length hshort
    obtain ⟨hk₂, hle, -⟩ := hr.spec hfit h
    obtain ⟨st', hst', hneed', hiff⟩ := (returnsFrom_pass hfit hcmd0 h hne hr).2 (by omega)
    rw [hiff]
    exact not_returnsFrom_of_stuck hfit hst' hk₂ (by omega)

/-- **Without a payload** any number of reads will do, if the first has the length and the header is there for
    the last pass. -/
theorem returnsFrom_empty : ∀ (s : Stream) {k : Nat} {st : RxState}, s ≠ [] → (∀ c ∈ s, c ≠ []) →
      Midway mi q k st s → st.nneed = mi.frameLen →
      (ReturnsFrom mi q st s ↔ mi.lengthEnd ≤ k + (s.headD []).length ∧
          (s.length % 2 = 1 ∨ HeaderRead mi q.cmd1 (k + s.dropLast.flatten.length)))
  | [], _, _, h, _, _, _ => absurd rfl h
  | [c], k, st, _, hne, h, hneed => by
    have hwire := q.length_wire mi
    have hheader := headerLen_le mi
    have hheader' := headerLen_eq mi
    have hc := length_pos_of_mem hne (mem_singleton_self c)
    have hlen := congrArg List.length h.rest
    simp only [flatten_cons, flatten_nil, append_nil, length_drop] at hlen
    have hr : PassReads mi q k st [c] mi.frameLen mi.frameLen mi.frameLen [] := by
      refine ⟨by omega, ?_, [], ?_, if_pos (Nat.le_refl _)⟩
      · rw [lengthAt_of_le (by omega), hneed, hzero, Nat.add_zero]
      · rw [readTo_cons (by omega) (by omega)]
        congr 1
        omega
    rw [(returnsFrom_pass hfit hcmd0 h hne hr).1 rfl]
    refine iff_of_true ⟨by omega, .inl (by omega)⟩ ⟨?_, .inl rfl⟩
    rw [headD_cons]
    omega
  | c :: d :: r, k, st, _, hne, h, hneed => by
    have hcases := passReads_or_stuck hfit hcmd0 hzero hne h hneed
    rw [headD_cons]
    split at hcases
    · rename_i hlength
      obtain ⟨hr, hall⟩ := hcases
      obtain ⟨hdone, hagain⟩ := returnsFrom_pass hfit hcmd0 h hne hr
      rw [and_iff_right hlength]
      cases r with
      | nil =>
        rw [hdone hall]
        simp
      | cons e r =>
        have he := length_pos_of_mem hne (mem_cons_of_mem _ (mem_cons_of_mem _ mem_cons_self))
        rw [flatten_cons, length_append] at hall
        obtain ⟨st', hst', hneed', hiff⟩ := hagain (by omega)
        have hne' : ∀ x ∈ e :: r, x ≠ [] := fun x hx =>
          hne x (mem_cons_of_mem _ (mem_cons_of_mem _ hx))
        have hparity : (c :: d :: e :: r).length % 2 = (e :: r).length % 2 := by
          simp only [length_cons]
          omega
        have hbefore : k + (c :: d :: e :: r).dropLast.flatten.length =
            k + c.length + d.length + (e :: r).dropLast.flatten.length := by
          simp only [dropLast_cons_cons, flatten_cons, length_append]
          omega
        rw [hiff, returnsFrom_empty (e :: r) (cons_ne_nil _ _) hne' hst' hneed', hparity, hbefore,
          and_iff_right (by omega)]
    · exact iff_of_false hcases fun hgood => absurd hgood.1 (by assumption)

end Empty

/-- The first pass over a message with a payload: it is the last one that can succeed. -/
theorem returnsFrom_payload (hpay : 0 < q.payload.length) (hne : ∀ c ∈ s, c ≠ [])
    (hs : s.flatten = q.wire mi) (hfirst : readTo mi.frameLen 0 s = (k₁, s₁)) (hk : 1 ≤ k₁)
    (hsecond : readTo (mi.frameLen + q.payload.length) k₁ s₁ = (k₂, s₂)) :
    ReturnsFrom mi q (.tryAgain mi) s ↔ k₂ = mi.frameLen + q.payload.length ∧ HeaderRead mi q.cmd1 k₁ := by
  have hwire := q.length_wire mi
  have hstart := midway_tryAgain hs
  obtain ⟨k₃, s₃, hthird⟩ : ∃ k₃ s₃,
      readTo (mi.frameLen + lengthAt mi q.payload.length k₁) k₁ s₁ = (k₃, s₃) := ⟨_, _, rfl⟩
  have hr : PassReads mi q 0 (.tryAgain mi) s (mi.frameLen + lengthAt mi q.payload.length k₁) k₁ k₃ s₃ :=
    ⟨hk, rfl, s₁, hfirst, hthird⟩
  obtain ⟨hk₃, -, hneed, -⟩ := hr.spec hfit hstart
  obtain ⟨hdone, hagain⟩ := returnsFrom_pass hfit hcmd0 hstart hne hr
  -- A pass that does not end the call leaves the receiver stuck.
  have hstuck : k₃ ≠ mi.frameLen + lengthAt mi q.payload.length k₁ →
      ¬ ReturnsFrom mi q (.tryAgain mi) s := by
    intro hshort
    obtain ⟨st', hst', hneed', hiff⟩ := hagain hshort
    have hlen := le_lengthAt hfit k₁
    rw [hiff]
    exact not_returnsFrom_of_stuck hfit hst' hk₃ (by omega)
  by_cases hlength : mi.lengthEnd ≤ k₁
  · rw [lengthAt_of_le hlength] at hthird hdone hstuck
    rw [hthird] at hsecond
    cases hsecond
    by_cases hall : k₂ = mi.frameLen + q.payload.length
    · rw [hdone hall]
      exact ⟨fun hh => ⟨hall, hh⟩, fun hh => hh.2⟩
    · exact iff_of_false (hstuck hall) fun hh => hall hh.1
  · have hnot : ¬ HeaderRead mi q.cmd1 k₁ := fun hh => hlength (by have := hh.1; omega)
    refine iff_of_false ?_ fun hh => hnot hh.2
    by_cases hall : k₃ = mi.frameLen + lengthAt mi q.payload.length k₁
    · exact fun hr => hnot ((hdone hall).mp hr)
    · exact hstuck hall

end Run

/-- **The splits that the receiver puts together.** Without a payload: the first read has the length, and the
    last is the first of its pass or behind the header. With one: one chunk, or two of which the first has the
    header and is no longer than a message without a payload. -/
def SplitWell (cmd1 : UInt8) (length : Nat) (s : Stream) : Prop :=
  (length = 0 ∧ mi.lengthEnd ≤ (s.headD []).length ∧
    (s.length % 2 = 1 ∨ HeaderRead mi cmd1 s.dropLast.flatten.length)) ∨
  (0 < length ∧ (s.length = 1 ∨
    (s.length = 2 ∧ (s.headD []).length ≤ mi.frameLen ∧ HeaderRead mi cmd1 (s.headD []).length)))

section Splits

variable {mi : Iface} {q : Request} {s : Stream}

theorem ne_nil_of_flatten_wire (hs : s.flatten = q.wire mi) : s ≠ [] := by
  intro h
  have hlen := congrArg length hs
  rw [h, flatten_nil, length_wire, length_nil, Iface.frameLen, headerLen_eq] at hlen
  omega

variable {c : List UInt8} {r : Stream} (hfit : PayloadFits mi q.payload) (hcmd0 : q.cmd0 < 0x80)
variable (hpay : 0 < q.payload.length) (hne : ∀ x ∈ c :: r, x ≠ []) (hs : (c :: r).flatten = q.wire mi)

include hfit hcmd0 hpay hne hs

theorem returnsFrom_long (hc : mi.frameLen < c.length) :
    ReturnsFrom mi q (.tryAgain mi) (c :: r) ↔ r = [] := by
  have hheader := headerLen_le mi
  have hheader' := headerLen_eq mi
  have hlen := congrArg length hs
  rw [flatten_cons, length_append, length_wire] at hlen
  have hfirst : readTo mi.frameLen 0 (c :: r) = (mi.frameLen, c.drop mi.frameLen :: r) :=
    readTo_part (by omega) hc r
  have hsecond : readTo (mi.frameLen + q.payload.length) mi.frameLen (c.drop mi.frameLen :: r) =
      (c.length, r) := readTo_rest hc (by omega) r
  rw [returnsFrom_payload hfit hcmd0 hpay hne hs hfirst (by omega) hsecond]
  constructor
  · intro ⟨hall, _⟩
    refine eq_nil_of_flatten (fun x hx => hne x (mem_cons_of_mem _ hx)) ?_
    exact eq_nil_of_length_eq_zero (by omega)
  · intro hr
    rw [hr, flatten_nil] at hlen
    exact ⟨by omega, by omega, .inl hheader⟩

theorem returnsFrom_short (hc : c.length ≤ mi.frameLen) :
    ReturnsFrom mi q (.tryAgain mi) (c :: r) ↔ r.length = 1 ∧ HeaderRead mi q.cmd1 c.length := by
  have hlen := congrArg List.length hs
  rw [flatten_cons, length_append, length_wire] at hlen
  have hpos := length_pos_of_mem hne mem_cons_self
  have hfirst : readTo mi.frameLen 0 (c :: r) = (c.length, r) := by
    rw [readTo_cons (by omega) (by omega), Nat.zero_add]
  cases r with
  | nil =>
    rw [flatten_nil, length_nil] at hlen
    omega
  | cons d r =>
    rw [flatten_cons, length_append] at hlen
    have hsecond : readTo (mi.frameLen + q.payload.length) c.length (d :: r) =
        (c.length + d.length, r) := readTo_cons (by omega) (by omega)
    rw [returnsFrom_payload hfit hcmd0 hpay hne hs hfirst hpos hsecond]
    refine and_congr_left fun _ => ?_
    rw [length_cons, Nat.add_eq_right]
    constructor
    · intro hall
      rw [length_eq_zero_iff]
      refine eq_nil_of_flatten (fun x hx => hne x ?_) (eq_nil_of_length_eq_zero (by omega))
      exact mem_cons_of_mem _ (mem_cons_of_mem _ hx)
    · intro hr
      rw [length_eq_zero_iff.mp hr, flatten_nil] at hlen
      omega

end Splits

/-- **`mt_msg_rx` returns a formatted message and consumes exactly its bytes iff they are split well.** -/
theorem rx_formatted_iff (mi : Iface) (cmd0 cmd1 : UInt8) (payload : List UInt8) (s : Stream)
    (hcmd0 : cmd0 < 0x80) (hfit : PayloadFits mi payload) (hne : ∀ c ∈ s, c ≠ [])
    (hs : s.flatten = formatted mi cmd0 cmd1 payload) :
    (∃ fuel m, mtMsgRx mi fuel s = some (.message m []) ∧ m.cmd0 = cmd0 ∧ m.cmd1 = cmd1 ∧
      m.payload mi = payload) ↔ SplitWell mi cmd1 payload.length s := by
  rw [formatted_eq mi cmd0 cmd1 hfit.1] at hs
  have hnil := ne_nil_of_flatten_wire (q := ⟨cmd0, cmd1, payload⟩) hs
  show ReturnsFrom mi ⟨cmd0, cmd1, payload⟩ (.tryAgain mi) s ↔ _
  unfold SplitWell
  rcases Nat.eq_zero_or_pos payload.length with hzero | hpay
  · rw [returnsFrom_empty hfit hcmd0 hzero s hnil hne (midway_tryAgain hs) rfl]
    simp [hzero]
  · cases s with
    | nil => exact absurd rfl hnil
    | cons c r =>
      simp only [ne_of_gt hpay, hpay, false_and, true_and, false_or, headD_cons, length_cons]
      rcases lt_or_ge mi.frameLen c.length with hlong | hshort
      · rw [returnsFrom_long hfit hcmd0 hpay hne hs hlong, ← length_eq_zero_iff]
        omega
      · rw [returnsFrom_short hfit hcmd0 hpay hne hs hshort]
        have hlen := congrArg length hs
        rw [flatten_cons, length_append, length_wire] at hlen
        have hone : r.length ≠ 0 := by
          intro hr
          rw [length_eq_zero_iff.mp hr, flatten_nil, length_nil] at hlen
          omega
        constructor
        · intro ⟨htwo, hread⟩
          exact .inr ⟨by omega, hshort, hread⟩
        · rintro (hsingle | ⟨htwo, _, hread⟩)
          · omega
          · exact ⟨by omega, hread⟩

/-- An interface without sync byte and checksum, with a one-byte length. -/
def plainIface : Iface := ⟨false, false, false, 0, 247, 3⟩

/-- Header, and then the two bytes of the payload one by one. -/
theorem payload_in_two_reads_lost :
    ¬ ∃ fuel m, mtMsgRx plainIface fuel [[2, 0x21, 0x02], [7], [8]] = some (.message m []) ∧
      m.cmd0 = 0x21 ∧ m.cmd1 = 0x02 ∧ m.payload plainIface = [7, 8] := by
  intro h
  have hsplit : ReturnsFrom plainIface ⟨0x21, 0x02, [7, 8]⟩ (.tryAgain plainIface)
      ([2, 0x21, 0x02] :: [[7], [8]]) ↔ _ :=
    returnsFrom_short ⟨by decide, by decide⟩ (by decide) (by decide) (by decide) (by decide) (by decide)
  exact absurd (hsplit.mp h).1 (by decide)

/-- Header, and then the payload. -/
theorem rx_formatted_two_reads :
    ∃ fuel m, mtMsgRx plainIface fuel [[2, 0x21, 0x02], [7, 8]] = some (.message m []) ∧
      m.cmd0 = 0x21 ∧ m.cmd1 = 0x02 ∧ m.payload plainIface = [7, 8] :=
  (rx_formatted_iff plainIface 0x21 0x02 [7, 8] [[2, 0x21, 0x02], [7, 8]] (by decide)
    ⟨by decide, by decide⟩ (by decide) (by rw [formatted_eq _ _ _ (by decide)]; decide)).mpr
    (.inr ⟨by decide, .inr ⟨rfl, by decide, by decide, .inl (by decide)⟩⟩)

end DcuDaemon.Mt
