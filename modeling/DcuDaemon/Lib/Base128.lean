/-
  Little-endian numbers to the base 128.

  Every byte but the last has its top bit set; the value is made of the seven bits below it, the lowest
  ones first. A number may have more bytes than its value needs.

  * `base128Value_lt` -- a number of `n` bytes is below `128 ^ n`;
  * `IsBase128.split_unique` -- bytes start with one number at most.
-/
import Mathlib.Algebra.Group.Nat.Defs
import Mathlib.Data.List.Basic

namespace DcuDaemon.Lib

/-- The bytes are one number. -/
def IsBase128 : List UInt8 → Prop
  | [] => False
  | byte :: bytes => (byte.toNat < 128 ∧ bytes = []) ∨ (128 ≤ byte.toNat ∧ IsBase128 bytes)

instance : ∀ bytes, Decidable (IsBase128 bytes)
  | [] => isFalse id
  | _ :: bytes =>
    have : Decidable (IsBase128 bytes) := instDecidableIsBase128 bytes
    inferInstanceAs (Decidable (_ ∨ _))

def base128Value : List UInt8 → Nat
  | [] => 0
  | byte :: bytes => byte.toNat % 128 + 128 * base128Value bytes

theorem base128Value_lt (bytes : List UInt8) : base128Value bytes < 128 ^ bytes.length := by
  induction bytes with
  | nil => exact Nat.one_pos
  | cons byte bytes ih =>
    rw [base128Value, List.length_cons, Nat.pow_succ']
    omega

namespace IsBase128

theorem last {byte : UInt8} (h : byte.toNat < 128) : IsBase128 [byte] := .inl ⟨h, rfl⟩

theorem more {byte : UInt8} {bytes : List UInt8} (h : 128 ≤ byte.toNat) (hb : IsBase128 bytes) :
    IsBase128 (byte :: bytes) := .inr ⟨h, hb⟩

/-- **Bytes start with one number at most.** -/
theorem split_unique {num num' post post' : List UInt8} (h : IsBase128 num) (h' : IsBase128 num')
    (e : num ++ post = num' ++ post') : num = num' := by
  induction num generalizing num' with
  | nil => exact h.elim
  | cons byte bytes ih =>
    cases num' with
    | nil => exact h'.elim
    | cons byte' bytes' =>
      obtain ⟨rfl, erest⟩ := List.cons.inj e
      -- the top bit of the first byte says whether both go on
      obtain ⟨hlt, rfl⟩ | ⟨hge, hb⟩ := h
      · obtain ⟨-, rfl⟩ | ⟨hge', -⟩ := h'
        · rfl
        · omega
      · obtain ⟨hlt', -⟩ | ⟨-, hb'⟩ := h'
        · omega
        · rw [ih hb hb' erest]

end IsBase128

end DcuDaemon.Lib
