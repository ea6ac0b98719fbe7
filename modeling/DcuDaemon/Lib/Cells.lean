/-
  Loops each round of which touches one cell of the state, and snapshots of a table made of two such
  loops.

  * `LocalBody` -- a round changes the cell of its key, by a function of that cell alone;
    `cell_forEach_mem`, `cell_forEach_not_mem` -- so the loop changes every cell at most once;
  * `snapshot` -- what is reported is put into the table, then what is stale is dropped;
    `snapshot_cell_mem`, `snapshot_cell_not_mem` -- every cell afterwards;
    `snapshot_cell_perm` -- the order of the reports makes no difference;
    `snapshot_idle` -- a table that has what is reported stays as it is.
-/
import DcuDaemon.Lib.Replica
import Mathlib.Data.List.Nodup

namespace DcuDaemon.Lib

open List

variable {σ K C α β ω : Type}

/-! ## 1. Loops -/

/-- A round changes the cell of its key, by a function of that cell alone. -/
structure LocalBody (cell : σ → K → C) (key : α → K) (f : α → C → C) (body : σ → α → σ × List ω) :
    Prop where
  here : ∀ s x, cell (body s x).1 (key x) = f x (cell s (key x))
  apart : ∀ s x k, k ≠ key x → cell (body s x).1 k = cell s k

section Loop

variable {cell : σ → K → C} {key : α → K} {f : α → C → C} {body : σ → α → σ × List ω}
variable {xs : List α}

theorem LocalBody.cell_forEach_not_mem (h : LocalBody cell key f body) {k : K}
    (hk : k ∉ xs.map key) (s : σ) : cell (forEach body s xs).1 k = cell s k := by
  induction xs generalizing s with
  | nil => rfl
  | cons x xs ih =>
    rw [map_cons, mem_cons, not_or] at hk
    exact (ih hk.2 _).trans (h.apart s x k hk.1)

theorem LocalBody.cell_forEach_mem (h : LocalBody cell key f body)
    (hnodup : (xs.map key).Nodup) {x : α} (hx : x ∈ xs) (s : σ) :
    cell (forEach body s xs).1 (key x) = f x (cell s (key x)) := by
  induction xs generalizing s with
  | nil => exact absurd hx not_mem_nil
  | cons y ys ih =>
    rw [map_cons, nodup_cons] at hnodup
    rcases mem_cons.mp hx with rfl | hys
    · exact (h.cell_forEach_not_mem hnodup.1 _).trans (h.here s x)
    · have hne : key x ≠ key y := fun e => hnodup.1 (e ▸ mem_map_of_mem hys)
      refine (ih hnodup.2 hys _).trans ?_
      rw [h.apart s y _ hne]

theorem LocalBody.cell_forEach_const [DecidableEq K] {gone : C}
    (h : LocalBody cell key (fun _ _ => gone) body) (xs : List α) (s : σ) (k : K) :
    cell (forEach body s xs).1 k = if k ∈ xs.map key then gone else cell s k := by
  induction xs generalizing s with
  | nil => rfl
  | cons x xs ih =>
    refine (ih _).trans ?_
    rw [map_cons]
    by_cases hk : k ∈ xs.map key
    · rw [if_pos hk, if_pos (mem_cons_of_mem _ hk)]
    · rw [if_neg hk]
      by_cases hx : k = key x
      · rw [if_pos (hx ▸ mem_cons_self), hx, h.here]
      · rw [if_neg fun hmem => (mem_cons.mp hmem).elim hx hk, h.apart s x k hx]

theorem forEach_idle {s : σ} (h : ∀ x ∈ xs, body s x = (s, [])) : forEach body s xs = (s, []) := by
  induction xs with
  | nil => rfl
  | cons x xs ih =>
    have hrest := ih fun y hy => h y (mem_cons_of_mem x hy)
    simp only [forEach, h x mem_cons_self, hrest, append_nil]

end Loop

/-! ## 2. Snapshots -/

/-- What is reported is put in; then what is stale is dropped. -/
def snapshot (put : σ → α → σ × List ω) (drop : σ → β → σ × List ω) (stale : σ → List β) (s : σ)
    (xs : List α) : σ × List ω :=
  let (s₁, ops) := forEach put s xs
  let (s₂, rest) := forEach drop s₁ (stale s₁)
  (s₂, ops ++ rest)

section Snapshot

variable [DecidableEq K] {cell : σ → K → C} {key : α → K} {dropKey : β → K} {putCell : α → C → C}
  {gone : C} {Stale : C → Prop} [DecidablePred Stale] {put : σ → α → σ × List ω}
  {drop : σ → β → σ × List ω} {stale : σ → List β} {xs : List α}

theorem snapshot_keeps {γ : Type} {view : σ → γ} (hput : ∀ s x, view (put s x).1 = view s)
    (hdrop : ∀ s y, view (drop s y).1 = view s) (stale : σ → List β) (s : σ) (xs : List α) :
    view (snapshot put drop stale s xs).1 = view s :=
  (forEach_keeps hdrop _ _).trans (forEach_keeps hput s xs)

theorem snapshot_idle {s : σ} (hput : ∀ x ∈ xs, put s x = (s, [])) (hstale : stale s = []) :
    snapshot put drop stale s xs = (s, []) := by
  rw [snapshot, forEach_idle hput]
  simp only [hstale, forEach, append_nil]

variable (hput : LocalBody cell key putCell put)
  (hdrop : LocalBody cell dropKey (fun _ _ => gone) drop)
  (hstale : ∀ s k, k ∈ (stale s).map dropKey ↔ Stale (cell s k) ∧ k ∉ xs.map key)

include hput hdrop hstale

omit [DecidablePred Stale] in
/-- **A reported cell.** -/
theorem snapshot_cell_mem (hnodup : (xs.map key).Nodup) {x : α} (hx : x ∈ xs) (s : σ) :
    cell (snapshot put drop stale s xs).1 (key x) = putCell x (cell s (key x)) := by
  refine (hdrop.cell_forEach_const _ _ _).trans ?_
  rw [if_neg fun h => ((hstale _ _).mp h).2 (mem_map_of_mem hx)]
  exact hput.cell_forEach_mem hnodup hx s

/-- **A cell that is not reported.** -/
theorem snapshot_cell_not_mem {k : K} (hk : k ∉ xs.map key) (s : σ) :
    cell (snapshot put drop stale s xs).1 k = if Stale (cell s k) then gone else cell s k := by
  have hcell : cell (forEach put s xs).1 k = cell s k := hput.cell_forEach_not_mem hk s
  refine (hdrop.cell_forEach_const _ _ _).trans ?_
  by_cases h : Stale (cell s k)
  · rw [if_pos h, if_pos ((hstale _ _).mpr ⟨hcell.symm ▸ h, hk⟩)]
  · rw [if_neg h, if_neg fun hmem => h (hcell ▸ ((hstale _ _).mp hmem).1)]
    exact hcell

/-- **The order of the reports makes no difference.** -/
theorem snapshot_cell_perm {stale' : σ → List β} {ys : List α}
    (hstale' : ∀ s k, k ∈ (stale' s).map dropKey ↔ Stale (cell s k) ∧ k ∉ ys.map key)
    (hnodup : (xs.map key).Nodup) (hperm : ys.Perm xs) (s : σ) (k : K) :
    cell (snapshot put drop stale' s ys).1 k = cell (snapshot put drop stale s xs).1 k := by
  have hkeys : (ys.map key).Perm (xs.map key) := hperm.map key
  by_cases hk : k ∈ xs.map key
  · obtain ⟨x, hx, rfl⟩ := mem_map.mp hk
    rw [snapshot_cell_mem hput hdrop hstale hnodup hx s,
      snapshot_cell_mem hput hdrop hstale' (hkeys.nodup_iff.mpr hnodup) (hperm.mem_iff.mpr hx) s]
  · rw [snapshot_cell_not_mem hput hdrop hstale hk s,
      snapshot_cell_not_mem hput hdrop hstale' (fun h => hk (hkeys.mem_iff.mp h)) s]

end Snapshot

end DcuDaemon.Lib
