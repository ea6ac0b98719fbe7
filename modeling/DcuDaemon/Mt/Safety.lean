/-
  Where the receiver of an interface writes (`mt_msg_rx`, `rx_first_frag_block`, `handle_data_fragment`
  under `mt_msg_rx_thread`).

  The thread goes on from read to read, whatever comes. It faults where a read or a copy leaves the
  message buffer, where the size of a first block is zero, and where `nneed` overflows: it grows with every
  short read. Nothing that it reads out of a header is compared with the size of the buffer.

  Main result: `never_faults_iff`.
-/
import DcuDaemon.Mt.Fragments

namespace DcuDaemon.Mt

open Lib Spinel List Option

/-! ## 1. What a step needs -/

/-- A read of up to `need` bytes in all: they fit the buffer, or those that come do. -/
def Room (st : RxState) (need : Nat) (s : Stream) : Prop :=
  need ≤ iobufSize ∨ st.nvalid + (s.headD []).length ≤ iobufSize

/-- The bytes that are there after it. -/
def received (st : RxState) (need : Nat) (s : Stream) : List UInt8 :=
  st.iobuf.slice 0 st.nvalid ++ (s.headD []).take (need - st.nvalid)

/-- The fields in the header of a block, all ones where they did not come. -/
def blockAt (mi : Iface) (w : List UInt8) : Nat := (w.getD (mi.headerLen + 1) 0xFF).toNat

def totalAt (mi : Iface) (w : List UInt8) : Nat :=
  if mi.headerLen + 4 ≤ w.length then PackReader.leValue ((w.drop (mi.headerLen + 2)).take 2) else 0xFFFF

/-- A whole message in the bytes `w` that is a block of data: checksum, `cmd0`, and the extension byte, or what
    the buffer has there. -/
def IsBlock (mi : Iface) (st : RxState) (w : List UInt8) : Prop :=
  (mi.includeChksum = true → xorSum (w.drop (syncField mi).length) = 0) ∧
    160 ≤ (parseHeader mi st).cmd0.toNat ∧
    (w.getD mi.headerLen (st.iobuf.cells.getD mi.headerLen 0)).toNat / 8 = 2

/-- `handle_data_fragment`: the size of a block, which only the last one may be below. -/
def SizesAgree (f : RxFrag) (len : Int) (block : Nat) : Prop :=
  if (block : Int) + 1 = f.blockCount then len - 4 ≤ f.thisFragSize else len - 4 = f.thisFragSize

/-- What a block must be to be taken: a first block has data, unless its number is wrong; the next one, if its
    sizes agree, has its header and ends inside the buffer. -/
def FragGuard (mi : Iface) (frag : Option RxFrag) (len : Int) (block total : Nat) : Prop :=
  match frag with
  | none => len ≠ 4 ∧ (len < 4 → block ≠ 0)
  | some f =>
    f.blockCur + 1 = block → f.totalSize = total → SizesAgree f len block →
    len = 4 ∨ (4 < len ∧ mi.headerLen + block * f.thisFragSize + (len - 4) ≤ iobufSize)

/-- What must hold before the second read, for the length `len` in the header. -/
def PayloadGuard (mi : Iface) (st : RxState) (frag : Option RxFrag) (s : Stream) (len need : Nat) : Prop :=
  need ≤ intMax ∧ Room st need s ∧ (need ≤ (received st need s).length → IsBlock mi st (received st need s) →
    FragGuard mi frag len (blockAt mi (received st need s)) (totalAt mi (received st need s)))

/-- **What lengths and block numbers must be for the next step to stay inside.** -/
def Guard (mi : Iface) (t : Thread) : Prop :=
  match t.phase with
  | .more st => Room st st.nneed t.stream
  | .payload st =>
    PayloadGuard mi st t.frag t.stream (parseHeader mi st).expectedLen.toNat
      (st.nneed + (parseHeader mi st).expectedLen.toNat)

structure RxOk (mi : Iface) (st : RxState) : Prop where
  nvalid : st.nvalid ≤ iobufSize
  nneed : mi.frameLen ≤ st.nneed

def FragOk (frag : Option RxFrag) : Prop := ∀ f, frag = some f → 0 < f.thisFragSize

/-! ## 2. Reads -/

section Reads

variable {mi : Iface} {st : RxState} {s : Stream} {n : Nat}

theorem rxOk_tryAgain (mi : Iface) : RxOk mi (.tryAgain mi) := ⟨Nat.zero_le _, Nat.le_refl _⟩

theorem rdBytes_eq (n : Nat) (s : Stream) : (rdBytes n s).1 = (s.headD []).take n := by
  cases s with
  | nil => exact (take_nil ..).symm
  | cons c cs =>
    rw [rdBytes, headD_cons]
    split
    · rw [take_of_length_le (by assumption)]
    · rfl

theorem length_received (h : st.nvalid ≤ iobufSize) (n : Nat) (s : Stream) :
    (received st n s).length = st.nvalid + min (n - st.nvalid) (s.headD []).length := by
  have hcells := st.iobuf.length_cells
  rw [received, length_append, Block.slice, length_take, length_take, drop_zero, hcells, Nat.min_eq_left h]

/-- **A read stays inside exactly if there is room.** -/
theorem rxBytes_isSome (h : st.nvalid ≤ iobufSize) : (rxBytes n st s).isSome ↔ Room st n s := by
  unfold rxBytes Room
  rcases lt_or_ge st.nvalid n with hlt | hge
  · rw [if_neg (not_le.mpr hlt), isSome_map, Block.write_isSome, Block.Fits, rdBytes_eq, length_take]
    omega
  · rw [if_pos hge]
    exact iff_of_true rfl (.inl (hge.trans h))

/-- **What a read leaves.** -/
theorem rxBytes_spec (h : st.nvalid ≤ iobufSize) {r : Nat} {st' : RxState} {s' : Stream}
    (hread : rxBytes n st s = some (r, st', s')) :
    st'.nvalid = (received st n s).length ∧ st'.nvalid ≤ iobufSize ∧ st'.nneed = st.nneed ∧
      st'.iobuf.slice 0 st'.nvalid = received st n s ∧ (r = n ↔ n ≤ st'.nvalid) ∧ r ≤ st'.nvalid ∧
      ∀ i, (received st n s).length ≤ i → st'.iobuf.cells[i]? = st.iobuf.cells[i]? := by
  have hlen := length_received h n s
  unfold rxBytes at hread
  split at hread
  · cases hread
    have hnone : n - st.nvalid = 0 := by omega
    rw [hnone, Nat.zero_min, Nat.add_zero] at hlen
    refine ⟨hlen.symm, h, rfl, ?_, ⟨fun _ => by assumption, fun _ => rfl⟩, by assumption, fun _ _ => rfl⟩
    rw [received, hnone, take_zero, append_nil]
  · obtain ⟨iobuf, hio, heq⟩ := map_eq_some_iff.mp hread
    rw [rdBytes_eq] at hio heq
    have hsize : ((s.headD []).take (n - st.nvalid)).length = min (n - st.nvalid) (s.headD []).length :=
      length_take
    obtain ⟨hfit, hcells⟩ := Block.write_eq_some.mp hio
    rw [Block.Fits, hsize] at hfit
    cases heq
    dsimp only
    rw [hsize, hlen]
    refine ⟨rfl, by omega, rfl, ?_, by omega, Nat.le_refl _, fun i hi => ?_⟩
    · rw [Block.slice, hcells, drop_zero, ← hsize, Block.take_overwrite _ (by
        rw [st.iobuf.length_cells]; exact h), received, Block.slice, drop_zero]
    · rw [Block.getElem?_write hio, if_neg (by omega)]

theorem rxBytes_keeps (hok : RxOk mi st) {r : Nat} {st' : RxState} {s' : Stream}
    (h : rxBytes n st s = some (r, st', s')) : RxOk mi st' := by
  obtain ⟨-, hnvalid, hneed, -⟩ := rxBytes_spec hok.nvalid h
  exact ⟨hnvalid, hneed ▸ hok.nneed⟩

/-- The bytes from the sync byte on are moved to the front, and what they leave is cleared. -/
theorem moveSync_isSome (h : st.nvalid ≤ iobufSize) {k : Nat} (hk : k ≤ st.nvalid) :
    ∃ moved iobuf, st.iobuf.write 0 (st.iobuf.slice k (st.nvalid - k)) = some moved ∧
      moved.write (st.nvalid - k) (replicate k 0) = some iobuf := by
  have hmoved : (st.iobuf.write 0 (st.iobuf.slice k (st.nvalid - k))).isSome := by
    rw [Block.write_isSome, Block.slice, length_take]
    exact .inr (by omega)
  obtain ⟨moved, hmoved⟩ := isSome_iff_exists.mp hmoved
  have hclear : (moved.write (st.nvalid - k) (replicate k 0)).isSome := by
    rw [Block.write_isSome, length_replicate]
    exact .inr (by omega)
  obtain ⟨iobuf, hclear⟩ := isSome_iff_exists.mp hclear
  exact ⟨moved, iobuf, hmoved, hclear⟩

/-- **The hunt for the sync byte stays inside.** -/
theorem huntSync_keeps (hok : RxOk mi st) : ∃ hunt, huntSync mi st = some hunt ∧
      ∀ st', hunt = .short st' ∨ hunt = .found st' → RxOk mi st' := by
  have hfound : ∀ st', Hunt.found st = .short st' ∨ Hunt.found st = .found st' → RxOk mi st' := by
    rintro st' (h | h) <;> cases h
    exact hok
  unfold huntSync
  split
  · cases hidx : (st.iobuf.slice 0 st.nvalid).findIdx? (· == 0xFE) with
    | none =>
      refine ⟨.lost, rfl, ?_⟩
      rintro st' (h | h) <;> cases h
    | some k =>
      cases k with
      | zero => exact ⟨.found st, rfl, hfound⟩
      | succ k =>
        have hlt := (findIdx?_eq_some_iff_findIdx_eq.mp hidx).1
        rw [Block.slice, length_take] at hlt
        obtain ⟨moved, iobuf, hmoved, hclear⟩ := moveSync_isSome (k := k + 1) hok.nvalid (by omega)
        simp only [hmoved, hclear, bind_some]
        refine ⟨_, rfl, ?_⟩
        have hshorter : RxOk mi { st with iobuf := iobuf, nvalid := st.nvalid - (k + 1) } :=
          ⟨le_trans (Nat.sub_le _ _) hok.nvalid, hok.nneed⟩
        intro st' h
        split at h
        · rcases h with h | h <;> cases h
          exact hshorter
        · rcases h with h | h <;> cases h
          exact hshorter
  · exact ⟨.found st, rfl, hfound⟩

end Reads

/-! ## 3. Messages and blocks -/

section Messages

variable {mi : Iface} {m : Msg}

theorem idx_rdUX (n : Nat) (m : Msg) : (m.rdUX n).2.iobufIdx.getD 0 ≤ m.iobufIdx.getD 0 + n := by
  induction n generalizing m with
  | zero => exact Nat.le_refl _
  | succ n ih =>
    unfold Msg.rdUX
    dsimp only
    split
    · refine (ih (m.seek (m.iobufIdx.getD 0 + 1))).trans ?_
      change m.iobufIdx.getD 0 + 1 + n ≤ _
      omega
    · exact Nat.le_add_right _ _

theorem idx_rdU8 (m : Msg) : m.rdU8.2.iobufIdx.getD 0 ≤ m.iobufIdx.getD 0 + 1 := by
  unfold Msg.rdU8
  split
  · exact Nat.le_succ _
  · exact idx_rdUX 1 m

theorem idx_readLength (mi : Iface) (m : Msg) :
    (readLength mi m).2.iobufIdx.getD 0 ≤ m.iobufIdx.getD 0 + (if mi.len2bytes then 2 else 1) := by
  unfold readLength
  split
  · unfold Msg.rdU16
    split
    · exact Nat.le_add_right _ _
    · exact idx_rdUX 2 m
  · exact idx_rdU8 m

/-- The header moves the position behind it at most, and finds no error. -/
theorem parseHeader_spec (mi : Iface) (st : RxState) : 0 ≤ (parseHeader mi st).expectedLen ∧
    (parseHeader mi st).isError = false ∧ (parseHeader mi st).iobufIdx.getD 0 ≤ mi.headerLen := by
  have hkeep := rdU8_keeps Msg.isError fun _ _ => rfl
  refine ⟨Int.natCast_nonneg _, ?_, ?_⟩
  · unfold parseHeader readLength
    dsimp only
    rw [hkeep, hkeep]
    split
    · rw [rdU16_keeps Msg.isError fun _ _ => rfl]
      split
      · exact hkeep _
      · rfl
    · dsimp only
      rw [hkeep]
      split
      · exact hkeep _
      · rfl
  · unfold parseHeader
    dsimp only
    have hsync : (if mi.frameSync then st.msg.rdU8.2 else st.msg).iobufIdx.getD 0 ≤
        if mi.frameSync then 1 else 0 := by
      split
      · exact idx_rdU8 st.msg
      · exact Nat.le_refl 0
    have hlen := idx_readLength mi (if mi.frameSync then st.msg.rdU8.2 else st.msg)
    have hcmd0 := idx_rdU8 (readLength mi (if mi.frameSync then st.msg.rdU8.2 else st.msg)).2
    have hcmd1 := idx_rdU8 (readLength mi (if mi.frameSync then st.msg.rdU8.2 else st.msg)).2.rdU8.2
    unfold Iface.headerLen Iface.lengthEnd
    omega

/-- The message that a pass ends with: its header, and the bytes that came. -/
structure Completed (mi : Iface) (st : RxState) (w : List UInt8) (m : Msg) : Prop where
  len : m.expectedLen = (parseHeader mi st).expectedLen
  cmd0 : m.cmd0 = (parseHeader mi st).cmd0
  mType : m.mType = m.setType (some mi)
  chksum : mi.includeChksum = true → xorSum (w.drop (syncField mi).length) = 0
  reading : Reading w mi.headerLen m
  nvalid : m.iobufNvalid = w.length
  ext : m.iobuf.cells.getD mi.headerLen 0 = w.getD mi.headerLen (st.iobuf.cells.getD mi.headerLen 0)
  fits : mi.headerLen + m.expectedLen ≤ iobufSize

theorem readPayload_cases {st : RxState} {s : Stream} {result : PassResult} {need : Nat} (hok : RxOk mi st)
    (hneed : need = st.nneed + (parseHeader mi st).expectedLen.toNat)
    (h : readPayload mi st s = some result) :
    (∃ st' s', result = .again st' s' ∧ RxOk mi st' ∧ (need ≤ (received st need s).length →
        ¬ IsBlock mi st (received st need s))) ∨
      ∃ m s', result = .done m s' ∧ need ≤ (received st need s).length ∧
        Completed mi st (received st need s) m := by
  obtain ⟨⟨r, st', s'⟩, hread, heq⟩ := map_eq_some_iff.mp h
  rw [← hneed] at hread
  obtain ⟨hnvalid, hsize, hneed', hslice, hdone, hr, hbehind⟩ :=
    rxBytes_spec (show ({ st with nneed := need } : RxState).nvalid ≤ iobufSize from hok.nvalid) hread
  rw [show received { st with nneed := need } need s = received st need s from rfl] at hnvalid hslice hbehind
  have hst' : RxOk mi st' := ⟨hsize, by rw [hneed']; exact hok.nneed.trans (hneed ▸ Nat.le_add_right _ _)⟩
  dsimp only at heq
  rw [← hneed] at heq
  rw [hnvalid] at hdone
  split at heq
  · have hshort : ¬ need ≤ (received st need s).length := fun hle => absurd (hdone.mpr hle) (by assumption)
    refine .inl ?_
    split at heq
    · exact ⟨st', s', heq.symm, hst', fun hle => absurd hle hshort⟩
    · exact ⟨_, _, heq.symm, rxOk_tryAgain mi, fun hle => absurd hle hshort⟩
  · have hfull : need ≤ (received st need s).length := hdone.mp (not_not.mp (by assumption))
    obtain ⟨hnonneg, herror, hidx⟩ := parseHeader_spec mi st
    have hheader := headerLen_le mi
    have hframe := hok.nneed
    have hskip : Msg.rdSkip (parseHeader mi st).expectedLen.toNat
        { parseHeader mi st with iobuf := st'.iobuf, iobufNvalid := st'.nvalid } =
        Msg.seek ((parseHeader mi st).iobufIdx.getD 0 + (parseHeader mi st).expectedLen.toNat)
          { parseHeader mi st with iobuf := st'.iobuf, iobufNvalid := st'.nvalid } := by
      unfold Msg.rdSkip
      dsimp only
      rw [herror, if_neg Bool.false_ne_true]
      split
      · rename_i hzero
        rw [hzero, Nat.add_zero]
      · rw [if_neg (by omega)]
    have hsum : Msg.calcChksum mi st'.nvalid (Msg.seek ((parseHeader mi st).iobufIdx.getD 0 +
        (parseHeader mi st).expectedLen.toNat)
          { parseHeader mi st with iobuf := st'.iobuf, iobufNvalid := st'.nvalid }) =
        xorSum ((received st need s).drop (syncField mi).length) := by
      rw [Msg.calcChksum, ← length_syncField, ← hslice, Block.slice, Block.slice, drop_zero, drop_take]
      rfl
    unfold complete at heq
    dsimp only at heq
    rw [hskip, Msg.seek_iobufNvalid] at heq
    dsimp only at heq
    rw [hsum] at heq
    split at heq
    · rename_i hbad
      exact .inl ⟨_, _, heq.symm, rxOk_tryAgain mi, fun _ hblock => hbad.2 (hblock.1 hbad.1)⟩
    · rename_i hgood
      refine .inr ⟨_, _, heq.symm, hfull, rfl, rfl, rfl, fun hchk => ?_, ⟨herror, rfl, ?_, hnvalid.le, ?_⟩,
        hnvalid, ?_, ?_⟩
      · exact not_not.mp fun hne => hgood ⟨hchk, hne⟩
      · change mi.headerLen ≤ st'.nvalid
        omega
      · intro i hi
        change st'.iobuf.cells[0 + i]? = _
        change i < ((received st need s).take st'.nvalid).length at hi
        rw [hnvalid, take_length] at hi ⊢
        rw [← hslice, Block.getElem?_slice, hnvalid, if_pos hi]
      · change st'.iobuf.cells.getD mi.headerLen 0 = _
        rcases lt_or_ge mi.headerLen (received st need s).length with hlt | hge
        · rw [← hslice, getD_eq_getElem?_getD, getD_eq_getElem?_getD, Block.getElem?_slice, hnvalid,
            if_pos hlt]
          have hin : mi.headerLen < st'.iobuf.cells.length := by rw [st'.iobuf.length_cells]; omega
          rw [Nat.zero_add, getElem?_eq_getElem hin]
          rfl
        · rw [getD_eq_getElem?_getD, getD_eq_getElem?_getD, getElem?_eq_none hge, hbehind _ hge,
            getD_eq_getElem?_getD]
          rfl
      · change (mi.headerLen : Int) + (parseHeader mi st).expectedLen ≤ iobufSize
        omega

/-- **The type of a whole message.** -/
theorem isData_iff (hm : m.mType = m.setType (some mi)) (hn : mi.headerLen ≤ m.iobufNvalid) :
    (m.cmd0 &&& 0x80 ≠ 0 ∧ IsData m) ↔
      160 ≤ m.cmd0.toNat ∧ (m.iobuf.cells.getD mi.headerLen 0).toNat / 8 = 2 := by
  have hbit : 160 ≤ m.cmd0.toNat → m.cmd0 &&& 0x80 ≠ 0 := by
    generalize m.cmd0 = c
    cases c with
    | ofBitVec c =>
      cases c with
      | ofFin c =>
        revert c
        decide +kernel
  have hext : ∀ minor k, (∃ k', extendedType minor k = .fragData k') ↔ minor = 2 := by
    intro minor k
    unfold extendedType
    split <;> simp_all
  have hlt := UInt8.toNat_lt m.cmd0
  have hnever : ∀ {type : MsgType}, (∀ k, type ≠ .fragData k) → m.cmd0.toNat < 160 →
      ((m.cmd0 &&& 0x80 ≠ 0 ∧ ∃ k, type = .fragData k) ↔
        160 ≤ m.cmd0.toNat ∧ (m.iobuf.cells.getD mi.headerLen 0).toNat / 8 = 2) := by
    intro type htype hsmall
    exact iff_of_false (fun h => h.2.elim htype) (by omega)
  unfold IsData
  rw [hm, Msg.setType]
  split
  · exact hnever (fun _ => MsgType.noConfusion) (by omega)
  · exact hnever (fun _ => MsgType.noConfusion) (by omega)
  · exact hnever (fun _ => MsgType.noConfusion) (by omega)
  · exact hnever (fun _ => MsgType.noConfusion) (by omega)
  · rename_i h0 h1 h2 h3
    simp only [imp_false] at h0 h1 h2 h3
    dsimp only
    rw [if_neg (not_lt.mpr hn)]
    have hkinds : ∀ n < 4, extendedKind n = none ↔ n = 0 := by decide
    have hzero := hkinds (m.cmd0.toNat / 32 % 4) (by omega)
    cases hkind : extendedKind (m.cmd0.toNat / 32 % 4) with
    | none =>
      have := hzero.mp hkind
      exact hnever (fun _ => MsgType.noConfusion) (by omega)
    | some k =>
      have hne : m.cmd0.toNat / 32 % 4 ≠ 0 := fun h => some_ne_none k (hkind.symm.trans (hzero.mpr h))
      have hlarge : 160 ≤ m.cmd0.toNat := by omega
      dsimp only
      rw [hext]
      exact ⟨fun h => ⟨hlarge, h.2⟩, fun h => ⟨hbit hlarge, h.2⟩⟩

theorem Reading.fragHeader_eq {w : List UInt8} (h : Reading w mi.headerLen m) (hn : m.iobufNvalid = w.length) :
    m.fragHeader.1 = blockAt mi w ∧ m.fragHeader.2.1 = totalAt mi w := by
  have hle : mi.headerLen ≤ w.length := hn ▸ h.idx_le
  have hfirst : m.rdU8.2 = m.seek (min (mi.headerLen + 1) w.length) := by rw [h.rdU8, hn]
  have hmove : ∀ j, Reading w (min j w.length) (m.seek (min j w.length)) := fun j =>
    h.move (hn ▸ Nat.min_le_right _ _)
  unfold Msg.fragHeader
  dsimp only
  rw [hfirst, (hmove (mi.headerLen + 1)).rdU8_min hn, Msg.seek_seek, (hmove (mi.headerLen + 1 + 1)).rdU16]
  constructor
  · unfold blockAt
    dsimp only
    rcases lt_or_ge (mi.headerLen + 1) w.length with hlt | hge
    · rw [if_pos (by omega), getD_eq_getElem?_getD, getD_eq_getElem?_getD, getElem?_eq_getElem hlt]
      rfl
    · rw [if_neg (by omega), getD_eq_getElem?_getD, getElem?_eq_none hge]
      rfl
  · unfold totalAt
    rw [Msg.seek_iobufNvalid, hn]
    rcases lt_or_ge (mi.headerLen + 3) w.length with hlt | hge
    · rw [if_pos (by omega), if_pos (by omega), Nat.min_eq_left (by omega)]
    · rw [if_neg (by omega), if_neg (by omega)]

/-- **A first block**: it must have data. -/
theorem rxFirstFragBlock_isSome (hfits : mi.headerLen + m.expectedLen ≤ iobufSize) :
    (rxFirstFragBlock mi m).isSome ↔ FragGuard mi none m.expectedLen m.fragHeader.1 m.fragHeader.2.1 := by
  have hlen : m.fragHeader.2.2.expectedLen = m.expectedLen :=
    fragHeader_keeps Msg.expectedLen (fun _ _ => rfl) m
  unfold rxFirstFragBlock FragGuard
  dsimp only
  rw [hlen]
  split_ifs with hzero hblock
  · exact iff_of_false Bool.false_ne_true fun h => h.1 (by omega)
  · exact iff_of_true rfl ⟨by omega, fun _ => hblock⟩
  · rw [isSome_map, Block.copy_isSome]
    constructor
    · intro h
      exact ⟨by omega, by omega⟩
    · intro ⟨hfour, hshort⟩
      omega

/-- **A block behind the first one**: it must end inside the buffer. -/
theorem handleNext_isSome {f : RxFrag} (hf : 0 < f.thisFragSize) :
    (handleDataFragment mi (some f) m).isSome ↔
      FragGuard mi (some f) m.expectedLen m.fragHeader.1 m.fragHeader.2.1 := by
  have hlen : m.fragHeader.2.2.expectedLen = m.expectedLen :=
    fragHeader_keeps Msg.expectedLen (fun _ _ => rfl) m
  have hoffset : 0 ≤ (m.fragHeader.1 : Int) * f.thisFragSize :=
    Int.mul_nonneg (Int.natCast_nonneg _) (Int.le_of_lt hf)
  have hcopy : ∀ src, (f.msg.iobuf.copy (m.fragHeader.1 * f.thisFragSize + mi.headerLen) src
      (m.expectedLen - 4)).isSome ↔
      m.expectedLen = 4 ∨ (4 < m.expectedLen ∧
        mi.headerLen + m.fragHeader.1 * f.thisFragSize + (m.expectedLen - 4) ≤ iobufSize) := by
    intro src
    rw [Block.copy_isSome]
    omega
  have hsizes : ((m.fragHeader.1 : Int) + 1 = f.blockCount ∧ m.expectedLen - 4 > f.thisFragSize ∨
      ¬ (m.fragHeader.1 : Int) + 1 = f.blockCount ∧ m.expectedLen - 4 ≠ f.thisFragSize) ↔
      ¬ SizesAgree f m.expectedLen m.fragHeader.1 := by
    unfold SizesAgree
    split <;> omega
  unfold handleDataFragment FragGuard
  dsimp only
  rw [hlen]
  by_cases hagain : f.blockCur = m.fragHeader.1
  · rw [if_pos hagain]
    exact iff_of_true rfl fun horder => absurd hagain (by omega)
  by_cases htotal : f.totalSize ≠ m.fragHeader.2.1
  · rw [if_neg hagain, if_pos htotal]
    exact iff_of_true rfl fun _ heq => absurd heq htotal
  by_cases horder : f.blockCur + 1 ≠ m.fragHeader.1
  · rw [if_neg hagain, if_neg htotal, if_pos horder]
    exact iff_of_true rfl fun heq => absurd heq horder
  rw [if_neg hagain, if_neg htotal, if_neg horder]
  by_cases hagree : SizesAgree f m.expectedLen m.fragHeader.1
  · rw [if_neg (fun hbad => hsizes.mp hbad hagree), isSome_map, hcopy]
    exact ⟨fun h _ _ _ => h, fun h => h (not_not.mp horder) (not_not.mp htotal) hagree⟩
  · rw [if_pos (hsizes.mpr hagree)]
    exact iff_of_true rfl fun _ _ hyes => absurd hyes hagree

/-- **What a message needs.** -/
theorem handle_isSome {st : RxState} {w : List UInt8} {t : Thread} (hm : Completed mi st w m)
    (hfrag : FragOk t.frag) : (t.handle mi m).isSome ↔ (IsBlock mi st w →
      FragGuard mi t.frag (parseHeader mi st).expectedLen (blockAt mi w) (totalAt mi w)) := by
  obtain ⟨hblock, htotal⟩ := hm.reading.fragHeader_eq hm.nvalid
  have htype := isData_iff hm.mType hm.reading.idx_le
  rw [hm.ext] at htype
  have hguard : (handleDataFragment mi t.frag m).isSome ↔
      FragGuard mi t.frag (parseHeader mi st).expectedLen (blockAt mi w) (totalAt mi w) := by
    rw [← hblock, ← htotal, ← hm.len]
    cases hf : t.frag with
    | none => exact rxFirstFragBlock_isSome hm.fits
    | some f => exact handleNext_isSome (hfrag f hf)
  unfold Thread.handle IsBlock
  rw [← hm.cmd0, ← htype]
  by_cases hext : m.cmd0 &&& 0x80 ≠ 0
  · rw [if_pos hext, isSome_map, handleExtendPacket]
    by_cases hdata : IsData m
    · obtain ⟨k, hk⟩ := hdata
      rw [hk]
      exact hguard.trans ⟨fun h _ => h, fun h => h ⟨hm.chksum, hext, k, hk⟩⟩
    · refine iff_of_true ?_ fun h => absurd h.2.2 hdata
      split
      · exact absurd ⟨_, by assumption⟩ hdata
      · rfl
  · rw [if_neg hext]
    exact iff_of_true rfl fun h => absurd h.2.1 hext

/-- **A block that is kept has data.** -/
theorem handle_keeps {t t' : Thread} (hfrag : FragOk t.frag) (h : t.handle mi m = some t') :
    FragOk t'.frag := by
  unfold Thread.handle handleExtendPacket at h
  split at h
  · split at h
    · obtain ⟨hd, hh, rfl⟩ := map_eq_some_iff.mp h
      intro f hf
      rcases handleDataFragment_cases hh with ⟨hnone, -⟩ | ⟨f', hfollows, rfl | rfl⟩
      · cases hnone.symm.trans hf
      · cases hf
        cases hold : t.frag with
        | none =>
          rw [hold] at hfollows
          exact hfollows.2
        | some f₀ =>
          rw [hold] at hfollows
          exact hfollows.2 ▸ hfrag f₀ hold
      · cases hf
    · cases h
      exact hfrag
  · cases h
    exact hfrag

end Messages

/-! ## 4. The whole run -/

section Run

variable {mi : Iface} {t t' : Thread} {st : RxState}

def PhaseOk (mi : Iface) : Phase → Prop
  | .more st => RxOk mi st
  | .payload st => RxOk mi st

structure ThreadOk (mi : Iface) (t : Thread) : Prop where
  rx : PhaseOk mi t.phase
  frag : FragOk t.frag

theorem step_more (hphase : t.phase = .more st) (hok : RxOk mi st) :
    ((t.step mi).isSome ↔ Room st st.nneed t.stream) ∧
      ∀ t', t.step mi = some t' → PhaseOk mi t'.phase ∧ t'.frag = t.frag := by
  rw [← rxBytes_isSome hok.nvalid]
  unfold Thread.step
  rw [hphase]
  dsimp only
  cases hread : rxBytes st.nneed st t.stream with
  | none => exact ⟨Iff.rfl, fun _ h => (by cases h)⟩
  | some read =>
    obtain ⟨r, st', s'⟩ := read
    obtain ⟨hunt, hhunt, hkeeps⟩ := huntSync_keeps (rxBytes_keeps hok hread)
    rw [bind_some]
    dsimp only
    split
    · refine ⟨iff_of_true rfl rfl, fun _ h => ?_⟩
      cases h
      exact ⟨rxOk_tryAgain mi, rfl⟩
    · rw [hhunt, map_some]
      refine ⟨iff_of_true rfl rfl, fun _ h => ?_⟩
      cases h
      cases hunt with
      | lost => exact ⟨rxOk_tryAgain mi, rfl⟩
      | short st => exact ⟨hkeeps st (.inl rfl), rfl⟩
      | found st => exact ⟨hkeeps st (.inr rfl), rfl⟩

theorem step_payload (hphase : t.phase = .payload st) (hok : RxOk mi st) (hfrag : FragOk t.frag) :
    ((t.step mi).isSome ↔ Guard mi t) ∧
      ∀ t', t.step mi = some t' → PhaseOk mi t'.phase ∧ FragOk t'.frag := by
  obtain ⟨need, hneed⟩ : ∃ need, need = st.nneed + (parseHeader mi st).expectedLen.toNat := ⟨_, rfl⟩
  have hlen : ((parseHeader mi st).expectedLen.toNat : Int) = (parseHeader mi st).expectedLen :=
    Int.toNat_of_nonneg (parseHeader_spec mi st).1
  have hroom : (readPayload mi st t.stream).isSome ↔ Room st need t.stream := by
    unfold readPayload
    rw [isSome_map, ← hneed]
    exact rxBytes_isSome (show ({ st with nneed := need } : RxState).nvalid ≤ iobufSize from hok.nvalid)
  unfold Thread.step Guard PayloadGuard
  rw [hphase]
  dsimp only
  rw [← hneed, ← hroom, hlen]
  rcases lt_or_ge intMax need with hover | hsmall
  · rw [if_pos hover]
    exact ⟨iff_of_false Bool.false_ne_true fun h => not_le.mpr hover h.1, fun _ h => (by cases h)⟩
  · rw [if_neg (not_lt.mpr hsmall)]
    cases hread : readPayload mi st t.stream with
    | none => exact ⟨iff_of_false Bool.false_ne_true fun h => Bool.false_ne_true h.2.1, fun _ h => (by cases h)⟩
    | some result =>
      rw [bind_some]
      rcases readPayload_cases hok hneed hread with ⟨st', s', rfl, hst', hnot⟩ | ⟨m, s', rfl, hfull, hm⟩
      · refine ⟨iff_of_true rfl ⟨hsmall, rfl, fun hle hblock => absurd hblock (hnot hle)⟩, fun _ h => ?_⟩
        cases h
        exact ⟨hst', hfrag⟩
      · rw [Thread.afterPass, handle_isSome (t := t.next mi s') hm hfrag]
        refine ⟨⟨fun h => ⟨hsmall, rfl, fun _ => h⟩, fun h => h.2.2 hfull⟩, fun t' h => ?_⟩
        exact ⟨(handle_reader h).1 ▸ rxOk_tryAgain mi, handle_keeps (t := t.next mi s') hfrag h⟩

/-- **A step stays inside exactly if its guard holds.** -/
theorem step_isSome_iff (hok : ThreadOk mi t) : (t.step mi).isSome ↔ Guard mi t := by
  cases hphase : t.phase with
  | more st =>
    have hrx := hok.rx
    rw [hphase] at hrx
    rw [(step_more hphase hrx).1, Guard, hphase]
  | payload st =>
    have hrx := hok.rx
    rw [hphase] at hrx
    exact (step_payload hphase hrx hok.frag).1

theorem step_keeps (hok : ThreadOk mi t) (h : t.step mi = some t') : ThreadOk mi t' := by
  cases hphase : t.phase with
  | more st =>
    have hrx := hok.rx
    rw [hphase] at hrx
    obtain ⟨hphase', hfrag⟩ := (step_more hphase hrx).2 t' h
    exact ⟨hphase', hfrag ▸ hok.frag⟩
  | payload st =>
    have hrx := hok.rx
    rw [hphase] at hrx
    obtain ⟨hphase', hfrag⟩ := (step_payload hphase hrx hok.frag).2 t' h
    exact ⟨hphase', hfrag⟩

end Run

/-- **The thread never writes outside a message, divides by zero or overflows exactly if the guard holds.** -/
theorem never_faults_iff (mi : Iface) (s : Stream) :
    (∀ n, (iter (Thread.step mi) n (Thread.start mi s)).isSome = true) ↔
      ∀ n t, iter (Thread.step mi) n (Thread.start mi s) = some t → Guard mi t :=
  iter_isSome_iff (fun _ hok => step_isSome_iff hok) (fun _ _ hok h => step_keeps hok h)
    ⟨rxOk_tryAgain mi, fun _ h => nomatch h⟩

/-- A first block without data: the receiver divides by its size. -/
theorem empty_block_faults : ¬ ∀ n, (iter (Thread.step plainIface) n
      (Thread.start plainIface [[4, 0xC1, 0x02, 0x10, 0, 5, 0]])).isSome = true := by
  intro h
  have hfault : (iter (Thread.step plainIface) 2
      (Thread.start plainIface [[4, 0xC1, 0x02, 0x10, 0, 5, 0]])).isSome = false := by
    decide +kernel
  rw [h 2] at hfault
  cases hfault

end DcuDaemon.Mt
