/-
  Strings that end in a NUL, inside a buffer that is changed in place.

  A string is given with all that stands before and behind it in the buffer, so that an operation on it
  says what becomes of the rest.

  * `cstr` -- the string at a position; `cstr_at`;
  * `set_nul` -- a NUL written into a string cuts it in two.
-/
import DcuDaemon.Lib.Block
import Mathlib.Data.List.DropRight

namespace DcuDaemon.Lib

open List

/-! ## 1. Strings in a buffer -/

/-- The character that ends a string. -/
def nul : Char := '\x00'

/-- The string at `s`. -/
def cstr (buf : List Char) (s : Nat) : List Char := (buf.drop s).takeWhile (· ≠ nul)

/-- `memmove(buf + dst, buf + src, n)`. -/
def memmove (buf : List Char) (dst src n : Nat) : List Char :=
  Block.overwrite buf dst ((buf.drop src).take n)

theorem cstr_at (pre : List Char) {str : List Char} (h : nul ∉ str) (post : List Char) :
    cstr (pre ++ str ++ nul :: post) pre.length = str := by
  have hall : ∀ c ∈ str, decide (c ≠ nul) := by
    intro c hc
    exact decide_eq_true fun e => h (e ▸ hc)
  rw [cstr, append_assoc, drop_left, takeWhile_append_of_pos hall,
    takeWhile_cons_of_neg (by simp), append_nil]

/-- A NUL over the character behind `front` leaves `front`, and what was behind it as a string of its
    own. -/
theorem set_nul (pre front : List Char) (c : Char) (back : List Char) :
    (pre ++ (front ++ c :: back)).set (pre.length + front.length) nul = pre ++ front ++ nul :: back := by
  rw [set_append_right _ _ (Nat.le_add_right _ _), Nat.add_sub_cancel_left,
    set_append_right _ _ (Nat.le_refl _), Nat.sub_self, set_cons_zero, append_assoc]

theorem overwrite_at (pre old vs behind : List Char) (h : vs.length = old.length) :
    Block.overwrite (pre ++ (old ++ behind)) pre.length vs = pre ++ vs ++ behind := by
  unfold Block.overwrite
  rw [take_left, ← drop_drop, drop_left, h, drop_left]

/-- A string moved down over its first character; nothing behind it changes. -/
theorem memmove_front (pre : List Char) (c : Char) (str post : List Char) :
    ∃ x, memmove (pre ++ (c :: str) ++ nul :: post) pre.length (pre.length + 1) (str.length + 2) =
      pre ++ str ++ nul :: (x :: post) := by
  have hsrc : ((pre ++ (c :: str) ++ nul :: post).drop (pre.length + 1)).take (str.length + 2) =
      str ++ nul :: post.take 1 := by
    rw [← drop_drop, append_assoc, drop_left]
    change (str ++ nul :: post).take (str.length + 2) = _
    rw [take_length_add_append]
    rfl
  rw [memmove, hsrc]
  cases post with
  | nil =>
    refine ⟨nul, ?_⟩
    have h := overwrite_at pre (c :: str) (str ++ [nul]) [nul] (by simp)
    simpa using h
  | cons x post =>
    refine ⟨x, ?_⟩
    have h := overwrite_at pre (c :: str ++ [nul]) (str ++ [nul, x]) (x :: post) (by simp)
    simpa using h

/-! ## 2. The end of a string -/

section Trailing

variable {α : Type} {p : α → Bool}

theorem rdropWhile_append_of_all (xs : List α) {ys : List α} (h : ∀ y ∈ ys, p y) :
    (xs ++ ys).rdropWhile p = xs.rdropWhile p := by
  induction ys using reverseRecOn with
  | nil => rw [append_nil]
  | append_singleton ys y ih =>
    rw [forall_mem_append] at h
    rw [← append_assoc, rdropWhile_concat_pos _ _ _ (h.2 y mem_cons_self), ih h.1]

theorem rdropWhile_append_of_last (xs : List α) {ys : List α} {y : α} (hy : p y = false) :
    (xs ++ (ys ++ [y])).rdropWhile p = xs ++ (ys ++ [y]) := by
  rw [← append_assoc, rdropWhile_concat_neg _ _ _ (by rw [hy]; decide)]

end Trailing

end DcuDaemon.Lib
