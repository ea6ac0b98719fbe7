/-
  Cyclic redundancy checks with a reflected polynomial, over a register of any width.

  The register takes in a message bit by bit, the lowest bit of each byte first (`bitStep`). One clock
  of the register is linear in exclusive or and, if the polynomial has its top bit, loses nothing. Three
  consequences:

  * `foldl_bitStep` -- up to a register's width of bits is taken in at once: add them to the
    register, then clock it;
  * `byteStep_eq_table` -- a byte at a time, from a table of the 256 clockings of a low byte.
-/
import Mathlib.Data.BitVec
import Mathlib.Data.List.GetD
import Mathlib.Logic.Function.Basic

namespace DcuDaemon.Lib.Crc

open List BitVec

variable {w : Nat} (poly : BitVec w)

/-! ## 1. One clock -/

/-- One clock of the register without a message bit. -/
def shift (c : BitVec w) : BitVec w := if c.getLsbD 0 then (c >>> 1) ^^^ poly else c >>> 1

/-- One clock with a message bit: the bit is added to the one that leaves the register. -/
def bitStep (c : BitVec w) (b : Bool) : BitVec w :=
  if c.getLsbD 0 ^^ b then (c >>> 1) ^^^ poly else c >>> 1

/-- Some clocks without a message bit. -/
def shifts : Nat → BitVec w → BitVec w
  | 0, c => c
  | n + 1, c => shifts n (shift poly c)

theorem shift_xor (a b : BitVec w) : shift poly (a ^^^ b) = shift poly a ^^^ shift poly b := by
  have hcancel : (a >>> 1 ^^^ poly) ^^^ (b >>> 1 ^^^ poly) = a >>> 1 ^^^ b >>> 1 := by
    rw [BitVec.xor_assoc, BitVec.xor_comm (b >>> 1), ← BitVec.xor_assoc poly, BitVec.xor_self,
      BitVec.zero_xor]
  unfold shift
  rw [BitVec.getLsbD_xor, BitVec.ushiftRight_xor_distrib]
  cases a.getLsbD 0 <;> cases b.getLsbD 0
  · rfl
  · exact BitVec.xor_assoc _ _ _
  · show (a >>> 1 ^^^ b >>> 1) ^^^ poly = (a >>> 1 ^^^ poly) ^^^ b >>> 1
    rw [BitVec.xor_assoc, BitVec.xor_comm (b >>> 1), ← BitVec.xor_assoc]
  · exact hcancel.symm

theorem shifts_xor (n : Nat) (a b : BitVec w) :
    shifts poly n (a ^^^ b) = shifts poly n a ^^^ shifts poly n b := by
  induction n generalizing a b with
  | zero => rfl
  | succ n ih => rw [shifts, shift_xor, ih, shifts, shifts]

theorem shifts_of_low_clear (k : Nat) (c : BitVec w) (h : ∀ i < k, c.getLsbD i = false) :
    shifts poly k c = c >>> k := by
  induction k generalizing c with
  | zero => rw [shifts, ushiftRight_zero]
  | succ k ih =>
    have hstep : shift poly c = c >>> 1 := by
      rw [shift, h 0 (Nat.succ_pos k), if_neg Bool.false_ne_true]
    have hclear : ∀ i < k, (c >>> 1).getLsbD i = false := by
      intro i hi
      rw [getLsbD_ushiftRight, add_comm]
      exact h (i + 1) (Nat.succ_lt_succ hi)
    rw [shifts, hstep, ih (c >>> 1) hclear, ← shiftRight_add, add_comm]

section Injective

variable {poly}

theorem msb_shift (hpoly : poly.msb) (c : BitVec w) : (shift poly c).msb = c.getLsbD 0 := by
  unfold shift
  cases h : c.getLsbD 0 with
  | true =>
    rw [if_pos rfl, msb_xor, hpoly]
    simp
  | false =>
    simp

theorem eq_of_ushiftRight_one {a b : BitVec w} (hlow : a.getLsbD 0 = b.getLsbD 0)
    (h : a >>> 1 = b >>> 1) : a = b := by
  apply eq_of_getLsbD_eq
  intro i hi
  cases i with
  | zero => exact hlow
  | succ i =>
    have hi' := congrArg (getLsbD · i) h
    simp only [getLsbD_ushiftRight] at hi'
    rw [add_comm]
    exact hi'

/-- **A clock loses nothing.** -/
theorem shift_injective (hpoly : poly.msb) : Function.Injective (shift poly) := by
  intro a b h
  have hlow : a.getLsbD 0 = b.getLsbD 0 := by
    rw [← msb_shift hpoly a, ← msb_shift hpoly b, h]
  refine eq_of_ushiftRight_one hlow ?_
  unfold shift at h
  rw [hlow] at h
  cases hb : b.getLsbD 0 with
  | true =>
    rw [hb, if_pos rfl, if_pos rfl] at h
    exact (xor_left_inj poly).mp h
  | false =>
    rw [hb, if_neg Bool.false_ne_true, if_neg Bool.false_ne_true] at h
    exact h

theorem shifts_injective (hpoly : poly.msb) (n : Nat) : Function.Injective (shifts poly n) := by
  induction n with
  | zero => exact fun _ _ h => h
  | succ n ih => exact fun _ _ h => shift_injective hpoly (ih h)

end Injective

/-! ## 2. Several bits at once -/

/-- A message bit as a register that holds it at the bottom. -/
def bit (b : Bool) : BitVec w := (BitVec.ofBool b).setWidth w

/-- Bits as a register, the first at the bottom. -/
def word : List Bool → BitVec w
  | [] => 0#w
  | b :: bits => bit b ^^^ (word bits <<< 1)

theorem getLsbD_bit (b : Bool) (i : Nat) :
    (bit b : BitVec w).getLsbD i = (decide (i < w) && (decide (i = 0) && b)) := by
  cases i <;> cases b <;> simp [bit]

theorem getLsbD_word (bits : List Bool) (i : Nat) :
    (word bits : BitVec w).getLsbD i = (decide (i < w) && bits.getD i false) := by
  induction bits generalizing i with
  | nil => simp [word]
  | cons b bits ih =>
    rw [word, getLsbD_xor, getLsbD_bit, getLsbD_shiftLeft, ih]
    cases i with
    | zero => simp
    | succ i =>
      by_cases hi : i + 1 < w
      · have hi' : i < w := Nat.lt_of_succ_lt hi
        simp [hi, hi']
      · simp [hi]

variable {bits : List Bool}

theorem word_injective {bits' : List Bool} (hlen : bits.length = bits'.length)
    (hw : bits.length ≤ w) (h : (word bits : BitVec w) = word bits') : bits = bits' := by
  apply ext_getElem hlen
  intro i hi hi'
  have hbit := congrArg (getLsbD · i) h
  simp only [getLsbD_word, lt_of_lt_of_le hi hw, decide_true, Bool.true_and] at hbit
  rw [getD_eq_getElem _ _ hi, getD_eq_getElem _ _ hi'] at hbit
  exact hbit

theorem bitStep_eq (c : BitVec w) (b : Bool) : bitStep poly c b = shift poly (c ^^^ bit b) := by
  cases w with
  | zero => exact eq_of_zero_length rfl
  | succ n =>
    have hmove : (c ^^^ bit b) >>> 1 = c >>> 1 := by
      apply eq_of_getLsbD_eq
      intro i hi
      rw [getLsbD_ushiftRight, getLsbD_xor, getLsbD_bit, getLsbD_ushiftRight]
      simp
    have hlow : (c ^^^ bit b).getLsbD 0 = (c.getLsbD 0 ^^ b) := by
      rw [getLsbD_xor, getLsbD_bit]
      simp
    rw [bitStep, shift, hmove, hlow]

theorem shift_word (h : bits.length < w) : shift poly (word bits <<< 1) = word bits := by
  have hlow : ((word bits : BitVec w) <<< 1).getLsbD 0 = false := by simp
  rw [shift, hlow, if_neg Bool.false_ne_true]
  apply eq_of_getLsbD_eq
  intro i hi
  rw [getLsbD_ushiftRight, getLsbD_shiftLeft, getLsbD_word, getLsbD_word]
  by_cases htop : 1 + i < w
  · simp [htop, hi]
  · have hend : bits.length ≤ i := by omega
    simp [htop, hend]

/-- **Up to a register's width of bits at once**: add them, then clock. -/
theorem foldl_bitStep (c : BitVec w) (h : bits.length ≤ w) :
    bits.foldl (bitStep poly) c = shifts poly bits.length (c ^^^ word bits) := by
  induction bits generalizing c with
  | nil => rw [foldl_nil, length_nil, shifts, word, xor_zero]
  | cons b bits ih =>
    have hlt : bits.length < w := h
    rw [foldl_cons, ih _ (le_of_lt hlt), length_cons, shifts, bitStep_eq, word,
      ← xor_assoc, shift_xor poly _ (word bits <<< 1), shift_word poly hlt]

section Detection

variable {poly}

theorem foldl_bitStep_injective (hpoly : poly.msb) (bits : List Bool) :
    Function.Injective (bits.foldl (bitStep poly) ·) := by
  induction bits with
  | nil => exact fun _ _ h => h
  | cons b bits ih =>
    intro c d h
    have hstep : bitStep poly c b = bitStep poly d b := ih h
    rw [bitStep_eq, bitStep_eq] at hstep
    exact (xor_left_inj _).mp (shift_injective hpoly hstep)

/-- **A burst is detected**: two messages that differ only within a register's width of bits leave
    different remainders. -/
theorem foldl_burst_ne (hpoly : poly.msb) (c : BitVec w) (before after : List Bool)
    {bits bits' : List Bool} (hlen : bits.length = bits'.length) (hw : bits.length ≤ w)
    (hne : bits ≠ bits') : (before ++ bits ++ after).foldl (bitStep poly) c ≠
      (before ++ bits' ++ after).foldl (bitStep poly) c := by
  intro h
  rw [foldl_append, foldl_append, foldl_append, foldl_append] at h
  have hmid := foldl_bitStep_injective hpoly after h
  have hw' : bits'.length ≤ w := hlen ▸ hw
  simp only [foldl_bitStep poly (before.foldl (bitStep poly) c) hw,
    foldl_bitStep poly (before.foldl (bitStep poly) c) hw', ← hlen] at hmid
  have hword := (xor_right_inj _).mp (shifts_injective hpoly _ hmid)
  exact hne (word_injective hlen hw hword)

/-- **The check bits**: behind them a message leaves the remainder of `mask` alone iff they are its own,
    masked. -/
theorem foldl_check_iff (hpoly : poly.msb) (c mask : BitVec w) {bits : List Bool}
    (hlen : bits.length = w) :
    bits.foldl (bitStep poly) c = shifts poly w mask ↔ word bits = c ^^^ mask := by
  rw [foldl_bitStep poly c (le_of_eq hlen), hlen]
  constructor
  · intro h
    rw [← shifts_injective hpoly w h, ← BitVec.xor_assoc, BitVec.xor_self, BitVec.zero_xor]
  · intro h
    rw [h, ← BitVec.xor_assoc, BitVec.xor_self, BitVec.zero_xor]

end Detection

/-! ## 3. Bytes -/

def bitsOf (byte : BitVec 8) : List Bool := (List.range 8).map byte.getLsbD

def byteStep (c : BitVec w) (byte : BitVec 8) : BitVec w := (bitsOf byte).foldl (bitStep poly) c

@[simp] theorem length_bitsOf (byte : BitVec 8) : (bitsOf byte).length = 8 := rfl

theorem getD_bitsOf (byte : BitVec 8) (i : Nat) : (bitsOf byte).getD i false = byte.getLsbD i := by
  by_cases hi : i < 8
  · rw [getD_eq_getElem _ _ hi]
    simp [bitsOf]
  · rw [getD_eq_default _ _ (Nat.le_of_not_lt hi), getLsbD_of_ge byte i (Nat.le_of_not_lt hi)]

theorem bitsOf_injective : Function.Injective bitsOf := by
  intro a b h
  apply eq_of_getLsbD_eq
  intro i _
  rw [← getD_bitsOf, ← getD_bitsOf, h]

theorem word_bitsOf (byte : BitVec 8) : (word (bitsOf byte) : BitVec w) = byte.setWidth w := by
  apply eq_of_getLsbD_eq
  intro i _
  rw [getLsbD_word, getD_bitsOf, getLsbD_setWidth]

theorem byteStep_eq (hw : 8 ≤ w) (c : BitVec w) (byte : BitVec 8) :
    byteStep poly c byte = shifts poly 8 (c ^^^ byte.setWidth w) := by
  have hlen : (bitsOf byte).length ≤ w := hw
  rw [byteStep, foldl_bitStep poly c hlen, word_bitsOf, length_bitsOf]

theorem split_low (x : BitVec w) : x = (x &&& 255#w) ^^^ (x &&& ~~~255#w) := by
  ext i
  simp only [getElem_xor, getElem_and, getElem_not]
  cases x[i] <;> cases (255#w)[i] <;> rfl

theorem getLsbD_high (x : BitVec w) (i : Nat) :
    (x &&& ~~~255#w).getLsbD i = (x.getLsbD i && decide (8 ≤ i)) := by
  have h255 : Nat.testBit 255 i = decide (i < 8) := Nat.testBit_two_pow_sub_one 8 i
  rw [getLsbD_and, getLsbD_not, getLsbD_ofNat, h255]
  by_cases hi : i < w
  · by_cases h8 : i < 8
    · simp [hi, h8]
    · simp [hi, h8, Nat.le_of_not_lt h8]
  · rw [getLsbD_of_ge x i (Nat.le_of_not_lt hi)]
    rfl

/-- **A byte at a time**: the clockings of the low byte of the sum, from a table, and the rest of the
    register moved down. -/
theorem byteStep_eq_table (hw : 8 ≤ w) (c : BitVec w) (byte : BitVec 8) : byteStep poly c byte =
      (c >>> 8) ^^^ shifts poly 8 ((c ^^^ byte.setWidth w) &&& 255#w) := by
  have hclear : ∀ i < 8, ((c ^^^ byte.setWidth w) &&& ~~~255#w).getLsbD i = false := by
    intro i hi
    rw [getLsbD_high]
    simp [hi]
  have hmove : ((c ^^^ byte.setWidth w) &&& ~~~255#w) >>> 8 = c >>> 8 := by
    apply BitVec.eq_of_getLsbD_eq
    intro i _
    rw [BitVec.getLsbD_ushiftRight, getLsbD_high, BitVec.getLsbD_xor, BitVec.getLsbD_setWidth,
      BitVec.getLsbD_of_ge byte (8 + i) (Nat.le_add_right 8 i), BitVec.getLsbD_ushiftRight]
    simp
  rw [byteStep_eq poly hw, split_low (c ^^^ byte.setWidth w), shifts_xor,
    shifts_of_low_clear poly 8 _ hclear, ← split_low, hmove, BitVec.xor_comm]

end DcuDaemon.Lib.Crc
