/-
  32-bit times that wrap around and are compared by the sign of their difference.

  Such an order is no order: of three times, each can come before the next in a circle. In a window of
  half the circle it is one, the order of the distances from where the window starts.

  * `toInt_sub` -- in a window, the signed difference of two times is the difference of their distances;
  * `before_iff`, `not_before_iff` -- the comparison, by the distances.
-/
import Mathlib.Data.BitVec

namespace DcuDaemon.Lib

/-- A time in milliseconds, in 32 bits. -/
abbrev Time32 := BitVec 32

namespace Time32

/-- `(a - b) < 0`, as signed numbers. -/
def before (a b : Time32) : Bool := decide ((a - b).toInt < 0)

/-- How far a time lies behind the start of the window. -/
def offset (base a : Time32) : Nat := (a - base).toNat

/-- The time lies in the half circle that starts at `base`. -/
def InWindow (base a : Time32) : Prop := offset base a < 2 ^ 31

instance (base a : Time32) : Decidable (InWindow base a) := by
  unfold InWindow
  infer_instance

variable {base a b : Time32}

theorem toInt_sub_base (h : InWindow base a) : (a - base).toInt = offset base a :=
  BitVec.toInt_eq_toNat_of_lt (Nat.mul_lt_mul_of_pos_left h (by decide))

theorem toInt_sub (ha : InWindow base a) (hb : InWindow base b) :
    (a - b).toInt = (offset base a : Int) - offset base b := by
  have hdiff : a - b = (a - base) - (b - base) := (sub_sub_sub_cancel_right a b base).symm
  rw [hdiff, BitVec.toInt_sub, toInt_sub_base ha, toInt_sub_base hb]
  unfold InWindow at ha hb
  exact Int.bmod_eq_of_le_mul_two (by push_cast; omega) (by push_cast; omega)

theorem before_iff (ha : InWindow base a) (hb : InWindow base b) :
    before a b ↔ offset base a < offset base b := by
  rw [before, decide_eq_true_iff, toInt_sub ha hb]
  omega

theorem not_before_iff (ha : InWindow base a) (hb : InWindow base b) :
    before a b = false ↔ offset base b ≤ offset base a := by
  rw [← Bool.not_eq_true, before_iff ha hb, not_lt]

theorem toInt_ofNat_sub {m n : Nat} (hmn : m < n + 2 ^ 31) (hnm : n < m + 2 ^ 31) :
    (BitVec.ofNat 32 m - BitVec.ofNat 32 n).toInt = (m : Int) - n := by
  rw [BitVec.toInt_sub, BitVec.toInt_ofNat', BitVec.toInt_ofNat', Int.bmod_sub_bmod, Int.sub_bmod_bmod]
  exact Int.bmod_eq_of_le_mul_two (by push_cast; omega) (by push_cast; omega)

theorem offset_inj (h : offset base a = offset base b) : a = b :=
  sub_left_injective (BitVec.eq_of_toNat_eq h)

end Time32

end DcuDaemon.Lib
