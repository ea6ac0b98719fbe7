/-
  The checksum of the HDLC framing (`crates/spinel/src/hdlc.rs`) against the definition of CRC-16/X.25,
  and what the decoder's check of it is good for.

  Main result: `crc_x25_detects`.
-/
import DcuDaemon.Lib.Crc
import DcuDaemon.Spinel.HdlcRuns

namespace DcuDaemon.Spinel

open Lib Lib.Crc List

/-! ## 1. The bit-serial checksum -/

/-- The polynomial x^16 + x^12 + x^5 + 1, reflected. -/
def x25Poly : BitVec 16 := (0x1021#16).reverse

/-- The bits of a message in the order in which the register takes them in. -/
def messageBits (data : List UInt8) : List Bool := data.flatMap fun b => bitsOf b.toBitVec

/-- CRC-16/X.25 by its definition: all bits set at first, the message taken in bit by bit, complemented. -/
def crcX25 (data : List UInt8) : UInt16 :=
  ⟨(messageBits data).foldl (bitStep x25Poly) 0xFFFF#16 ^^^ 0xFFFF#16⟩

theorem msb_x25Poly : x25Poly.msb := by decide

theorem length_messageBits (data : List UInt8) : (messageBits data).length = 8 * data.length := by
  induction data with
  | nil => rfl
  | cons b data ih =>
    rw [messageBits, flatMap_cons, length_append, ← messageBits, ih, length_bitsOf, length_cons]
    omega

theorem messageBits_append (a b : List UInt8) :
    messageBits (a ++ b) = messageBits a ++ messageBits b := flatMap_append

theorem messageBits_injective : Function.Injective messageBits := by
  intro a
  induction a with
  | nil =>
    intro b h
    have hlen := congrArg length h
    rw [length_messageBits, length_messageBits, length_nil] at hlen
    exact (length_eq_zero_iff.mp (by omega)).symm
  | cons x a ih =>
    intro b h
    cases b with
    | nil => exact absurd (congrArg length h) (by simp [messageBits])
    | cons y b =>
      obtain ⟨hxy, hab⟩ := append_inj h rfl
      have hx : x = y := UInt8.toBitVec_inj.mp (bitsOf_injective hxy)
      rw [hx, ih hab]

/-! ## 2. The table -/

theorem crcTable_toList : crcTable.toList.map (·.toBitVec) =
    (range 256).map fun i => shifts x25Poly 8 (BitVec.ofNat 16 i) := by
  decide +kernel

theorem toBitVec_crcTable {i : Nat} (h : i < 256) :
    (crcTable.getD i 0).toBitVec = shifts x25Poly 8 (BitVec.ofNat 16 i) := by
  have hsize : crcTable.size = 256 := by simpa using congrArg length crcTable_toList
  have hword := congrArg (·[i]?) crcTable_toList
  simpa [hsize, h] using hword

theorem toBitVec_crc16Update (crc : UInt16) (byte : UInt8) :
    (crc16Update crc byte).toBitVec = byteStep x25Poly crc.toBitVec byte.toBitVec := by
  have hlt : ((crc ^^^ byte.toUInt16) &&& 0xFF).toNat < 256 := by
    exact lt_of_le_of_lt Nat.and_le_right (by decide)
  rw [byteStep_eq_table x25Poly (by decide), crc16Update, UInt16.toBitVec_xor, toBitVec_crcTable hlt]
  have hindex : BitVec.ofNat 16 ((crc ^^^ byte.toUInt16) &&& 0xFF).toNat =
      (crc.toBitVec ^^^ byte.toBitVec.setWidth 16) &&& 255#16 := by
    rw [← UInt16.toNat_toBitVec, BitVec.ofNat_toNat, BitVec.setWidth_eq, UInt16.toBitVec_and,
      UInt16.toBitVec_xor]
    rfl
  rw [hindex]
  rfl

/-- **The table-driven loop is the bit-serial register.** -/
theorem toBitVec_foldl_crc16Update (data : List UInt8) (crc : UInt16) :
    (data.foldl crc16Update crc).toBitVec = (messageBits data).foldl (bitStep x25Poly) crc.toBitVec := by
  induction data generalizing crc with
  | nil => rfl
  | cons b data ih =>
    rw [foldl_cons, ih, toBitVec_crc16Update, messageBits, messageBits, flatMap_cons,
      foldl_append, byteStep]

theorem crc16_eq_crcX25 (data : List UInt8) : crc16 data = crcX25 data := by
  apply UInt16.toBitVec_inj.mp
  rw [crc16, UInt16.toBitVec_xor, toBitVec_foldl_crc16Update]
  rfl

/-! ## 3. The check -/

def remainder (data : List UInt8) : BitVec 16 := (messageBits data).foldl (bitStep x25Poly) 0xFFFF#16

theorem word_checksum (lo hi : UInt8) :
    (word (messageBits [lo, hi]) : BitVec 16) = (fromLeBytes lo hi).toBitVec := by
  have hbits : messageBits [lo, hi] = bitsOf lo.toBitVec ++ bitsOf hi.toBitVec := rfl
  have hvalue : (fromLeBytes lo hi).toBitVec =
      lo.toBitVec.setWidth 16 ||| hi.toBitVec.setWidth 16 <<< 8 := rfl
  apply BitVec.eq_of_getLsbD_eq
  intro i hi16
  rw [getLsbD_word, hbits, hvalue, BitVec.getLsbD_or, BitVec.getLsbD_shiftLeft,
    BitVec.getLsbD_setWidth, BitVec.getLsbD_setWidth]
  by_cases h8 : i < 8
  · rw [getD_append _ _ _ _ h8, getD_bitsOf]
    simp [hi16, h8]
  · have hge : 8 ≤ i := Nat.le_of_not_lt h8
    have hsub : i - 8 < 16 := by omega
    rw [getD_append_right _ _ _ _ hge, length_bitsOf, getD_bitsOf, BitVec.getLsbD_of_ge lo.toBitVec i hge]
    simp [hi16, h8, hsub]

/-- **What passes the check**: data and checksum together leave the remainder of the mask. -/
theorem checked_iff (data : List UInt8) (lo hi : UInt8) : fromLeBytes lo hi = crc16 data ↔
      remainder (data ++ [lo, hi]) = shifts x25Poly 16 0xFFFF#16 := by
  rw [remainder, messageBits_append, foldl_append,
    foldl_check_iff msb_x25Poly _ _ (length_messageBits [lo, hi]), word_checksum,
    ← UInt16.toBitVec_inj, crc16, UInt16.toBitVec_xor, toBitVec_foldl_crc16Update]
  rfl

/-- Two sequences of one length that differ, but only within two adjacent bytes. -/
def DifferWithinTwo (bytes bytes' : List UInt8) : Prop :=
  bytes ≠ bytes' ∧ bytes'.length = bytes.length ∧ ∃ i, ∀ j, j ≠ i → j ≠ i + 1 → bytes'[j]? = bytes[j]?

variable {bytes bytes' buffer : List UInt8}

theorem DifferWithinTwo.split (h : DifferWithinTwo bytes bytes') :
    ∃ before mid mid' after, bytes = before ++ mid ++ after ∧ bytes' = before ++ mid' ++ after ∧
      mid.length = mid'.length ∧ mid.length ≤ 2 ∧ mid ≠ mid' := by
  obtain ⟨hne, hlen, i, hsame⟩ := h
  have hcut (l : List UInt8) : l = l.take i ++ (l.drop i).take 2 ++ l.drop (i + 2) := by
    rw [append_assoc, ← drop_drop, take_append_drop, take_append_drop]
  have hbefore : bytes'.take i = bytes.take i := by
    apply ext_getElem?
    intro j
    rw [getElem?_take, getElem?_take]
    split
    · exact hsame j (by omega) (by omega)
    · rfl
  have hafter : bytes'.drop (i + 2) = bytes.drop (i + 2) := by
    apply ext_getElem?
    intro j
    rw [getElem?_drop, getElem?_drop]
    exact hsame _ (by omega) (by omega)
  refine ⟨bytes.take i, (bytes.drop i).take 2, (bytes'.drop i).take 2, bytes.drop (i + 2),
    hcut bytes, ?_, ?_, ?_, ?_⟩
  · rw [← hbefore, ← hafter]
    exact hcut bytes'
  · simp [hlen]
  · rw [length_take]
    exact Nat.min_le_left _ _
  · intro hmid
    apply hne
    rw [hcut bytes, hcut bytes', hbefore, hafter, hmid]

/-- **Different remainders**, whatever stands around the two bytes. -/
theorem remainder_ne (h : DifferWithinTwo bytes bytes') : remainder bytes ≠ remainder bytes' := by
  obtain ⟨before, mid, mid', after, rfl, rfl, hlen, htwo, hne⟩ := h.split
  have hbits : (messageBits mid).length = (messageBits mid').length := by
    rw [length_messageBits, length_messageBits, hlen]
  have hw : (messageBits mid).length ≤ 16 := by
    rw [length_messageBits]
    omega
  unfold remainder
  rw [messageBits_append, messageBits_append, messageBits_append, messageBits_append]
  exact foldl_burst_ne msb_x25Poly _ _ _ hbits hw fun e => hne (messageBits_injective e)

/-! ## 4. The decoder -/

/-- What the closing flag yields for the collected bytes. -/
def verdict (buffer : List UInt8) : List (Except SpinelError (List UInt8)) :=
  if buffer.length ≤ 2 then []
  else if remainder buffer = shifts x25Poly 16 0xFFFF#16 then [.ok (buffer.take (buffer.length - 2))]
  else [.error .crcMismatch]

/-- **The closing flag decides by the remainder.** -/
theorem endOfFrame_eq (buffer : List UInt8) :
    (HdlcDecoder.endOfFrame ⟨.receiving, buffer⟩).2.toList = verdict buffer := by
  unfold HdlcDecoder.endOfFrame verdict
  by_cases hlen : buffer.length ≤ 2
  · rw [if_pos hlen, if_pos hlen]
    rfl
  · rw [if_neg hlen, if_neg hlen]
    obtain ⟨lo, hi, htwo⟩ := length_eq_two.mp
      (show (buffer.drop (buffer.length - 2)).length = 2 by rw [length_drop]; omega)
    obtain ⟨data, hdata⟩ : ∃ data, buffer = data ++ [lo, hi] := ⟨_, by rw [← htwo, take_append_drop]⟩
    have hn : buffer.length = data.length + 2 := by rw [hdata, length_append]; rfl
    have htake : buffer.take (buffer.length - 2) = data := by
      rw [hn, hdata, Nat.add_sub_cancel, take_left]
    have hlo : buffer.getD (buffer.length - 2) 0 = lo := by rw [hn, hdata]; simp
    have hhi : buffer.getD (buffer.length - 1) 0 = hi := by rw [hn, hdata]; simp
    simp only [htake, hlo, hhi, checked_iff, ← hdata]
    split <;> rfl

theorem feedAll_run {run : List UInt8} (hrun : flagByte ∉ run) :
    (feedAll HdlcDecoder.feedByte HdlcDecoder.new (flagByte :: (run ++ [flagByte]))).2 =
      if Aborted run then [] else verdict (content run) := by
  have hopen : HdlcDecoder.feedByte HdlcDecoder.new flagByte = (⟨frameState false, []⟩, none) := rfl
  have hquiet := quiet_run hrun false []
  rw [feedAll_cons, hopen, feedAll_append_of hquiet, feedAll_cons]
  by_cases hesc : Aborted run
  · have hstate : (unescapeFrom false run).2 := hesc
    rw [hstate, if_pos hesc]
    rfl
  · have hstate : (unescapeFrom false run).2 = false := Bool.eq_false_iff.mpr hesc
    rw [hstate, if_neg hesc, ← endOfFrame_eq]
    simp only [Option.toList_none, nil_append]
    exact append_nil _

theorem verdict_ok {data : List UInt8} (h : verdict buffer = [.ok data]) :
    2 < buffer.length ∧ remainder buffer = shifts x25Poly 16 0xFFFF#16 := by
  unfold verdict at h
  split at h
  · exact absurd h (by simp)
  · rename_i hlen
    split at h
    · rename_i hrem
      exact ⟨Nat.lt_of_not_le hlen, hrem⟩
    · exact absurd h (by simp)

theorem verdict_error (hlen : 2 < buffer.length) (hrem : remainder buffer ≠ shifts x25Poly 16 0xFFFF#16) :
    verdict buffer = [.error .crcMismatch] := by
  rw [verdict, if_neg (not_le.mpr hlen), if_neg hrem]

/-- **The checksum of the framing.** The table-driven loop computes CRC-16/X.25; and the decoder rejects, as a
    mismatch, every run that differs from one it accepts only within two adjacent bytes of its content. -/
theorem crc_x25_detects :
    (∀ data, crc16 data = crcX25 data) ∧
    ∀ run run' data, flagByte ∉ run → flagByte ∉ run' → ¬ Aborted run' →
      (feedAll HdlcDecoder.feedByte HdlcDecoder.new (flagByte :: (run ++ [flagByte]))).2 = [.ok data] →
      DifferWithinTwo (content run) (content run') →
      (feedAll HdlcDecoder.feedByte HdlcDecoder.new (flagByte :: (run' ++ [flagByte]))).2 =
        [.error .crcMismatch] := by
  refine ⟨crc16_eq_crcX25, ?_⟩
  intro run run' data hrun hrun' hesc' hok hdiffer
  have hesc : ¬ Aborted run := by
    intro hesc
    rw [feedAll_run hrun, if_pos hesc] at hok
    exact absurd hok (by simp)
  rw [feedAll_run hrun, if_neg hesc] at hok
  obtain ⟨hlen, hrem⟩ := verdict_ok hok
  rw [feedAll_run hrun', if_neg hesc']
  refine verdict_error ?_ ?_
  · rw [hdiffer.2.1]
    exact hlen
  · rw [← hrem]
    exact (remainder_ne hdiffer).symm

/-- A payload of two bytes whose second byte was changed together with the first of its checksum. -/
theorem crc_x25_detects_across :
    crc16 [0x01, 0x02] = crcX25 [0x01, 0x02] ∧
      (feedAll HdlcDecoder.feedByte HdlcDecoder.new
          (flagByte :: ([0x01, 0x02, 0x8D, 0x35] ++ [flagByte]))).2 = [.ok [0x01, 0x02]] ∧
      (feedAll HdlcDecoder.feedByte HdlcDecoder.new
          (flagByte :: ([0x01, 0x0A, 0x8C, 0x35] ++ [flagByte]))).2 = [.error .crcMismatch] := by
  have hok : (feedAll HdlcDecoder.feedByte HdlcDecoder.new
      (flagByte :: ([0x01, 0x02, 0x8D, 0x35] ++ [flagByte]))).2 = [.ok [0x01, 0x02]] := by
    decide +kernel
  have hdiffer : DifferWithinTwo (content [0x01, 0x02, 0x8D, 0x35]) (content [0x01, 0x0A, 0x8C, 0x35]) := by
    refine ⟨by decide, rfl, 1, ?_⟩
    intro j h1 h2
    match j with
    | 0 => rfl
    | 1 => exact absurd rfl h1
    | 2 => exact absurd rfl h2
    | 3 => rfl
    | n + 4 => rfl
  exact ⟨crc_x25_detects.1 _, hok, crc_x25_detects.2 _ _ _ (by decide) (by decide) (by decide) hok hdiffer⟩

end DcuDaemon.Spinel
