/-
  Singly linked lists whose links are stored in the elements, with a marker at the end.

  * `Chain` -- the links, from a pointer on, go through these elements and end at the marker;
  * `chain_insert`, `chain_unlink` -- two assignments to links put an element in, or take it out.
-/
import Mathlib.Data.List.Basic
import Mathlib.Data.List.Nodup
import Mathlib.Logic.Function.Basic

namespace DcuDaemon.Lib

open List

variable {ι : Type}

/-- What a link can be: `NULL`, the marker, or an element. -/
inductive Link (ι : Type) where
  | null
  | marker
  | node (i : ι)
  deriving DecidableEq

/-- The links from `p` on go through `xs` and end at the marker. -/
def Chain (next : ι → Link ι) : Link ι → List ι → Prop
  | p, [] => p = .marker
  | p, x :: xs => p = .node x ∧ Chain next (next x) xs

section Chain

variable {next next' : ι → Link ι} {p : Link ι} {xs ys : List ι} {x y t : ι}

theorem Chain.congr (h : Chain next p xs) (hsame : ∀ x ∈ xs, next' x = next x) : Chain next' p xs := by
  induction xs generalizing p with
  | nil => exact h
  | cons x xs ih =>
    refine ⟨h.1, ?_⟩
    rw [hsame x mem_cons_self]
    exact ih h.2 fun y hy => hsame y (mem_cons_of_mem x hy)

theorem Chain.next_ne_null (h : Chain next p xs) (hx : x ∈ xs) : next x ≠ .null := by
  induction xs generalizing p with
  | nil => exact absurd hx not_mem_nil
  | cons y xs ih =>
    rcases mem_cons.mp hx with rfl | hx
    · have hrest := h.2
      cases xs with
      | nil =>
        intro hnull
        cases hrest.symm.trans hnull
      | cons z zs =>
        intro hnull
        cases hrest.1.symm.trans hnull
    · exact ih h.2 hx

theorem Chain.behind (h : Chain next p (xs ++ y :: ys)) : Chain next (next y) ys := by
  induction xs generalizing p with
  | nil => exact h.2
  | cons x xs ih => exact ih h.2

theorem Chain.redirect {zs : List ι} (h : Chain next p (xs ++ y :: ys))
    (hsame : ∀ x ∈ xs, next' x = next x) (hrest : Chain next' (next' y) zs) :
    Chain next' p (xs ++ y :: zs) := by
  induction xs generalizing p with
  | nil => exact ⟨h.1, hrest⟩
  | cons x xs ih =>
    refine ⟨h.1, ?_⟩
    rw [hsame x mem_cons_self]
    exact ih h.2 fun z hz => hsame z (mem_cons_of_mem x hz)

variable [DecidableEq ι]

theorem Chain.update_of_not_mem (h : Chain next p xs) (ht : t ∉ xs) (q : Link ι) :
    Chain (Function.update next t q) p xs :=
  h.congr fun _ hx => Function.update_of_ne (ne_of_mem_of_not_mem hx ht) q next

/-- **An element is put in behind another one.** -/
theorem chain_insert (h : Chain next p (xs ++ y :: ys)) (hnodup : (xs ++ y :: ys).Nodup)
    (ht : t ∉ xs ++ y :: ys) :
    Chain (Function.update (Function.update next t (next y)) y (.node t)) p (xs ++ y :: t :: ys) := by
  have hty : t ≠ y := fun heq => ht (heq ▸ mem_append_right xs mem_cons_self)
  have hy : y ∉ ys := (nodup_cons.mp (nodup_append.mp hnodup).2.1).1
  have hyxs : y ∉ xs := fun hmem =>
    (nodup_append.mp hnodup).2.2 y hmem y mem_cons_self rfl
  refine h.redirect (fun x hx => ?_) ⟨Function.update_self .., ?_⟩
  · have htxs : t ∉ xs := fun hmem => ht (mem_append_left _ hmem)
    rw [Function.update_of_ne (ne_of_mem_of_not_mem hx hyxs),
      Function.update_of_ne (ne_of_mem_of_not_mem hx htxs)]
  · rw [Function.update_of_ne hty, Function.update_self]
    refine (h.behind.update_of_not_mem (fun hmem => ?_) _).update_of_not_mem hy _
    exact ht (mem_append_right xs (mem_cons_of_mem y hmem))

/-- **The element behind another one is taken out.** -/
theorem chain_unlink (h : Chain next p (xs ++ y :: t :: ys)) (hnodup : (xs ++ y :: t :: ys).Nodup) :
    Chain (Function.update (Function.update next y (next t)) t .null) p (xs ++ y :: ys) := by
  obtain ⟨-, hback, hcross⟩ := nodup_append.mp hnodup
  obtain ⟨hy, hback⟩ := nodup_cons.mp hback
  obtain ⟨ht, -⟩ := nodup_cons.mp hback
  have hyt : y ≠ t := fun heq => hy (heq ▸ mem_cons_self)
  refine h.redirect (fun x hx => ?_) ?_
  · rw [Function.update_of_ne (hcross x hx t (mem_cons_of_mem y mem_cons_self)),
      Function.update_of_ne (hcross x hx y mem_cons_self)]
  · rw [Function.update_of_ne hyt, Function.update_self]
    have hbehind : Chain next (next t) ys := h.behind.2
    exact (hbehind.update_of_not_mem (fun hmem => hy (mem_cons_of_mem t hmem)) _).update_of_not_mem ht _

end Chain

/-! ## Insertion at a place -/

section Insert

variable (test : ι → Bool) (t : ι)

/-- In front of the first element that the test accepts, or at the end. -/
def insertBefore : List ι → List ι
  | [] => [t]
  | x :: xs => if test x then t :: x :: xs else x :: insertBefore xs

variable {test t} {xs : List ι}

theorem insertBefore_perm : (insertBefore test t xs).Perm (t :: xs) := by
  induction xs with
  | nil => exact List.Perm.refl _
  | cons x xs ih =>
    rw [insertBefore]
    split
    · exact List.Perm.refl _
    · exact (ih.cons x).trans (List.Perm.swap t x xs)

/-- **Insertion keeps an order**: the new element comes before what the test accepts and behind the rest. -/
theorem pairwise_insertBefore {R : ι → ι → Prop} (h : xs.Pairwise R)
    (hbefore : ∀ x ∈ xs, test x → R t x) (hbehind : ∀ x ∈ xs, test x = false → R x t)
    (htrans : ∀ x ∈ xs, ∀ y ∈ xs, R t x → R x y → R t y) : (insertBefore test t xs).Pairwise R := by
  induction xs with
  | nil => exact pairwise_singleton R t
  | cons x xs ih =>
    obtain ⟨hx, hxs⟩ := pairwise_cons.mp h
    rw [insertBefore]
    split
    · rename_i htest
      have htx := hbefore x mem_cons_self htest
      refine pairwise_cons.mpr ⟨fun y hy => ?_, h⟩
      rcases mem_cons.mp hy with rfl | hy
      · exact htx
      · exact htrans x mem_cons_self y (mem_cons_of_mem x hy) htx (hx y hy)
    · rename_i htest
      refine pairwise_cons.mpr ⟨fun y hy => ?_, ?_⟩
      · rcases mem_cons.mp (insertBefore_perm.mem_iff.mp hy) with rfl | hy
        · exact hbehind x mem_cons_self (Bool.eq_false_iff.mpr htest)
        · exact hx y hy
      · exact ih hxs (fun y hy => hbefore y (mem_cons_of_mem x hy))
          (fun y hy => hbehind y (mem_cons_of_mem x hy))
          fun y hy z hz => htrans y (mem_cons_of_mem x hy) z (mem_cons_of_mem x hz)

end Insert

end DcuDaemon.Lib
