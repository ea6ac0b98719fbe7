/-
  A state that emits operations, and a replica that is kept by replaying them.

  * `forEach` -- a loop that changes a state and emits operations;
  * `replay` -- the operations on a replica, where an operation may be refused.
-/
import DcuDaemon.Lib.Run

namespace DcuDaemon.Lib

open List

variable {σ α τ ω : Type}

/-- A loop over a list; the operations of all rounds in order. -/
def forEach (body : σ → α → σ × List ω) : σ → List α → σ × List ω
  | s, [] => (s, [])
  | s, x :: xs =>
    let (s', ops) := body s x
    let (s'', rest) := forEach body s' xs
    (s'', ops ++ rest)

variable {β : Type} {body : σ → α → σ × List ω}

theorem forEach_keeps {f : σ → β}
    (h : ∀ s x, f (body s x).1 = f s) (s : σ) (xs : List α) : f (forEach body s xs).1 = f s := by
  induction xs generalizing s with
  | nil => rfl
  | cons x xs ih => exact (ih _).trans (h s x)

theorem forEach_map (body : σ → α → σ × List ω) (f : β → α) (s : σ) (ys : List β) :
    forEach body s (ys.map f) = forEach (fun s y => body s (f y)) s ys := by
  induction ys generalizing s with
  | nil => rfl
  | cons y ys ih => simp only [map_cons, forEach, ih]

/-- The operations on a replica; none when one of them is refused. -/
def replay (apply : τ → ω → Option τ) : τ → List ω → Option τ
  | t, [] => some t
  | t, op :: ops => (apply t op).bind fun t' => replay apply t' ops

theorem replay_append (apply : τ → ω → Option τ) (t : τ) (ops rest : List ω) :
    replay apply t (ops ++ rest) = (replay apply t ops).bind fun t' => replay apply t' rest := by
  induction ops generalizing t with
  | nil => rfl
  | cons op ops ih =>
    rw [cons_append, replay, replay, Option.bind_assoc]
    exact congrArg _ (funext fun t' => ih t')

section Follows

variable (apply : τ → ω → Option τ) (view : σ → τ)

/-- The emitted operations lead the replica from the view of `s` to the view of the new state. -/
def Follows (s : σ) (r : σ × List ω) : Prop := replay apply (view s) r.2 = some (view r.1)

variable {apply view}
variable {s s' : σ} {body : σ → α → σ × List ω}

theorem follows_nil (h : view s' = view s) : Follows apply view s (s', []) := congrArg some h.symm

theorem follows_append {s'' : σ} {ops rest : List ω} (h : Follows apply view s (s', ops))
    (h' : Follows apply view s' (s'', rest)) : Follows apply view s (s'', ops ++ rest) := by
  show replay apply (view s) (ops ++ rest) = some (view s'')
  rw [replay_append, show replay apply (view s) ops = some (view s') from h]
  exact h'

/-- **Loop rule**: a round follows where its precondition holds, and keeps those of the rounds set apart from
    it. -/
theorem follows_forEach {Pre : σ → α → Prop} {Apart : α → α → Prop}
    (hbody : ∀ s x, Pre s x → Follows apply view s (body s x))
    (hkeep : ∀ s x y, Apart x y → Pre s y → Pre (body s x).1 y) {xs : List α}
    (hpre : ∀ x ∈ xs, Pre s x) (hapart : xs.Pairwise Apart) : Follows apply view s (forEach body s xs) := by
  induction xs generalizing s with
  | nil => exact follows_nil rfl
  | cons x xs ih =>
    obtain ⟨hx, hxs⟩ := pairwise_cons.mp hapart
    refine follows_append (hbody s x (hpre x mem_cons_self)) (ih (fun y hy => ?_) hxs)
    exact hkeep s x y (hx y hy) (hpre y (mem_cons_of_mem x hy))

theorem follows_forEach_all (hbody : ∀ s x, Follows apply view s (body s x)) (s : σ) (xs : List α) :
    Follows apply view s (forEach body s xs) := by
  have hkeep : ∀ (s : σ) (x y : α), True → True → True := fun _ _ _ _ _ => trivial
  exact follows_forEach (fun s x _ => hbody s x) hkeep (fun _ _ => trivial)
    (pairwise_of_forall fun _ _ => trivial)

end Follows

end DcuDaemon.Lib
