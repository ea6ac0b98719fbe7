/-
  Machines that are fed one input at a time and may yield an output per input.

  * `feedAll` -- the state and ALL outputs after a list of inputs;
  * `feedUntil` -- the state after the FIRST output, with that output; `none` when the list is
    used up without one (what a `for` loop with a `return` in its body computes).

  `feedAll_append` cuts a run at any place; `feedUntil_append_quiet` skips a part of the input that
  yields nothing.
-/
import Mathlib.Data.List.Basic

namespace DcuDaemon.Lib

open List

variable {σ ι ο : Type}

/-- The state and all outputs after feeding the whole list. -/
def feedAll (step : σ → ι → σ × Option ο) : σ → List ι → σ × List ο
  | s, [] => (s, [])
  | s, b :: bs =>
    ((feedAll step (step s b).1 bs).1, (step s b).2.toList ++ (feedAll step (step s b).1 bs).2)

/-- Feed up to the first output: the state there, and the output (`none`: the list is used up). -/
def feedUntil (step : σ → ι → σ × Option ο) : σ → List ι → σ × Option ο
  | s, [] => (s, none)
  | s, b :: bs =>
    match step s b with
    | (s', some o) => (s', some o)
    | (s', none) => feedUntil step s' bs

/-- `bs` yields nothing from `s` and leads to `s'`. -/
def Quiet (step : σ → ι → σ × Option ο) (s : σ) (bs : List ι) (s' : σ) : Prop :=
  feedAll step s bs = (s', [])

section Feed

variable {step : σ → ι → σ × Option ο}

theorem feedAll_cons (s : σ) (b : ι) (bs : List ι) : feedAll step s (b :: bs) =
      ((feedAll step (step s b).1 bs).1, (step s b).2.toList ++ (feedAll step (step s b).1 bs).2) := rfl

/-- **A run is cut at any place**: the second part starts where the first one ended. -/
theorem feedAll_append (s : σ) (bs cs : List ι) : feedAll step s (bs ++ cs) =
      ((feedAll step (feedAll step s bs).1 cs).1,
        (feedAll step s bs).2 ++ (feedAll step (feedAll step s bs).1 cs).2) := by
  induction bs generalizing s with
  | nil => rfl
  | cons b bs ih =>
    rw [cons_append, feedAll_cons, ih, feedAll_cons]
    simp only [append_assoc]

variable {s s' s'' : σ} {bs cs : List ι}

theorem feedAll_append_of {os : List ο} (h : feedAll step s bs = (s', os)) (cs : List ι) :
    feedAll step s (bs ++ cs) = ((feedAll step s' cs).1, os ++ (feedAll step s' cs).2) := by
  rw [feedAll_append, h]

theorem quiet_nil (s : σ) : Quiet step s [] s := rfl

theorem quiet_cons {b : ι} (h : step s b = (s', none))
    (hs : Quiet step s' bs s'') : Quiet step s (b :: bs) s'' := by
  unfold Quiet at hs ⊢
  rw [feedAll_cons, h]
  simp only [hs, Option.toList_none, nil_append]

theorem quiet_append (h : Quiet step s bs s') (h' : Quiet step s' cs s'') : Quiet step s (bs ++ cs) s'' := by
  unfold Quiet at h h' ⊢
  rw [feedAll_append_of h, h']
  rfl

theorem quiet_split (h : Quiet step s (bs ++ cs) s'') :
    ∃ s', Quiet step s bs s' ∧ Quiet step s' cs s'' := by
  unfold Quiet at h
  rw [feedAll_append, Prod.mk.injEq, append_eq_nil_iff] at h
  obtain ⟨hs, hbs, hcs⟩ := h
  exact ⟨(feedAll step s bs).1, Prod.ext rfl hbs, Prod.ext hs hcs⟩

theorem quiet_unique (h : Quiet step s bs s') (h' : Quiet step s bs s'') : s' = s'' :=
  congrArg Prod.fst (h.symm.trans h')

theorem feedUntil_append_quiet (h : Quiet step s bs s') (cs : List ι) :
    feedUntil step s (bs ++ cs) = feedUntil step s' cs := by
  induction bs generalizing s with
  | nil =>
    cases h
    rfl
  | cons b bs ih =>
    unfold Quiet at h
    rw [feedAll_cons] at h
    rcases hb : step s b with ⟨t, o⟩
    rw [hb] at h
    simp only [Prod.mk.injEq, append_eq_nil_iff, Option.toList_eq_nil_iff] at h
    obtain ⟨hs, ho, hq⟩ := h
    subst ho
    rw [cons_append, feedUntil, hb]
    exact ih (Prod.ext hs hq)

theorem feedUntil_quiet (h : Quiet step s bs s') : feedUntil step s bs = (s', none) := by
  have h' := feedUntil_append_quiet h []
  rw [append_nil] at h'
  exact h'

theorem quiet_of_feedUntil (h : feedUntil step s bs = (s', none)) : Quiet step s bs s' := by
  induction bs generalizing s with
  | nil =>
    cases h
    rfl
  | cons b bs ih =>
    rw [feedUntil] at h
    rcases hb : step s b with ⟨t, o⟩
    rw [hb] at h
    cases o with
    | some o => cases h
    | none => exact quiet_cons hb (ih h)

end Feed

end DcuDaemon.Lib
