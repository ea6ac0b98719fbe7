/-
  Concatenations of words, and whether their order matters.

  * `flatMap_perm_iff` -- a family of words has the same concatenation in every order exactly when any
    two of them commute;
  * `eq_of_append_comm` -- words that commute have the same part before their first separator.
-/
import Mathlib.Data.List.Basic
import Mathlib.Data.List.TakeWhile

namespace DcuDaemon.Lib

open List

variable {α β : Type}

def WordsCommute (u v : List β) : Prop := u ++ v = v ++ u

variable {f : α → List β} {xs : List α}

theorem flatMap_eq_of_perm {ys : List α} (hperm : xs.Perm ys)
    (h : ∀ x ∈ xs, ∀ y ∈ xs, WordsCommute (f x) (f y)) : xs.flatMap f = ys.flatMap f := by
  induction hperm with
  | nil => rfl
  | cons x _ ih =>
    rw [flatMap_cons, flatMap_cons, ih fun y hy z hz => h y (mem_cons_of_mem x hy) z (mem_cons_of_mem x hz)]
  | swap x y rest =>
    have hcomm := h y mem_cons_self x (mem_cons_of_mem y mem_cons_self)
    simp only [flatMap_cons]
    rw [← append_assoc, hcomm, append_assoc]
  | trans hperm _ ih ih' =>
    exact (ih h).trans (ih' fun x hx y hy => h x (hperm.mem_iff.mpr hx) y (hperm.mem_iff.mpr hy))

/-- **The concatenation is the same in every order** if and only if any two words commute. -/
theorem flatMap_perm_iff : (∀ ys zs : List α, ys.Perm xs → zs.Perm xs → ys.flatMap f = zs.flatMap f) ↔
      ∀ x ∈ xs, ∀ y ∈ xs, WordsCommute (f x) (f y) := by
  classical
  constructor
  · intro hsame x hx y hy
    by_cases hxy : x = y
    · rw [hxy]
      exact rfl
    · -- the two words in front, in both orders
      have hy' : y ∈ xs.erase x := (mem_erase_of_ne (Ne.symm hxy)).mpr hy
      have hfront : (x :: y :: (xs.erase x).erase y).Perm xs :=
        ((perm_cons_erase hy').symm.cons x).trans (perm_cons_erase hx).symm
      have heq := hsame _ _ hfront ((List.Perm.swap x y _).trans hfront)
      simp only [flatMap_cons, ← append_assoc] at heq
      exact append_cancel_right heq
  · intro h ys zs hys hzs
    have hall : ∀ x ∈ ys, ∀ y ∈ ys, WordsCommute (f x) (f y) := fun x hx y hy =>
      h x (hys.mem_iff.mp hx) y (hys.mem_iff.mp hy)
    exact flatMap_eq_of_perm (hys.trans hzs.symm) hall

/-- **Words that commute** have the same part before their first separator. -/
theorem eq_of_append_comm [DecidableEq β] {sep : β} {a b s t : List β} (ha : sep ∉ a) (hb : sep ∉ b)
    (h : WordsCommute (a ++ sep :: s) (b ++ sep :: t)) : a = b := by
  have hfront {c : List β} (hc : sep ∉ c) (r : List β) : (c ++ sep :: r).takeWhile (· ≠ sep) = c := by
    have hne : ∀ x ∈ c, decide (x ≠ sep) := fun x hx =>
      decide_eq_true fun e : x = sep => hc (e ▸ hx)
    rw [takeWhile_append_of_pos hne, takeWhile_cons_of_neg (by simp), append_nil]
  have heq := congrArg (takeWhile (· ≠ sep)) h
  rwa [append_assoc, append_assoc, cons_append, cons_append, hfront ha, hfront hb] at heq

/-- The word `u` over and over, cut off behind `n` letters. -/
def repeated (u : List α) (n : Nat) : List α := (List.replicate n u).flatten.take n

section Repeated

variable {u xs ys : List α} {n : Nat}

theorem length_flatten_replicate_ge (hu : u ≠ []) : n ≤ (replicate n u).flatten.length := by
  have hpos : 0 < u.length := length_pos_iff.mpr hu
  induction n with
  | zero => exact Nat.zero_le _
  | succ n ih =>
    rw [replicate_succ, flatten_cons, length_append]
    omega

theorem length_repeated (hu : u ≠ []) : (repeated u n).length = n :=
  length_take_of_le (length_flatten_replicate_ge hu)

theorem repeated_eq_take (hu : u ≠ []) : repeated u n = (u ++ repeated u n).take n := by
  have hturn : u ++ (replicate n u).flatten = (replicate n u).flatten ++ u := by
    rw [← flatten_cons, ← replicate_succ, replicate_succ', flatten_concat]
  have hcut : (u ++ repeated u n).take n = (u ++ (replicate n u).flatten).take n := by
    rw [repeated, take_append, take_append, take_take, min_eq_left (Nat.sub_le n u.length)]
  rw [hcut, hturn, take_append_of_le_length (length_flatten_replicate_ge hu)]
  rfl

theorem eq_of_eq_take_append (hu : u ≠ []) (hxs : xs = (u ++ xs).take n)
    (hys : ys = (u ++ ys).take n) : xs = ys := by
  have hpos : 0 < u.length := length_pos_iff.mpr hu
  have hsplit {zs : List α} (h : zs = (u ++ zs).take n) (k : Nat) :
      zs.take k = u.take (min k n) ++ zs.take (min k n - u.length) := by
    conv_lhs => rw [h]
    rw [take_take, take_append]
  -- every part of the words, by the shorter part behind the letters
  have htake (k : Nat) : xs.take k = ys.take k := by
    induction k using Nat.strongRecOn with
    | ind k ih =>
      cases k with
      | zero => rfl
      | succ k => rw [hsplit hxs, hsplit hys, ih _ (by omega)]
  have hlen := htake (max xs.length ys.length)
  rwa [take_of_length_le (Nat.le_max_left _ _), take_of_length_le (Nat.le_max_right _ _)] at hlen

/-- **The word that continues itself.** -/
theorem eq_repeated_iff (hu : u ≠ []) : xs = repeated u n ↔ xs = (u ++ xs).take n := by
  constructor
  · intro h
    rw [h]
    exact repeated_eq_take hu
  · intro h
    exact eq_of_eq_take_append hu h (repeated_eq_take hu)

end Repeated

end DcuDaemon.Lib
