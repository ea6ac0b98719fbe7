/-
  Runs of a machine with a total step function, and what holds along them.

  * `run` -- the state after a list of events;
  * `Along` -- a relation between state and event that holds at every step of a run: an assumption
    about the events that come, or a property of what the machine does with them.
-/
import Mathlib.Data.List.Basic
import Mathlib.Data.List.Forall2
import Mathlib.Data.List.Induction

namespace DcuDaemon.Lib

open List Option

variable {σ ε : Type}

def run (step : σ → ε → σ) (s : σ) (es : List ε) : σ := es.foldl step s

/-- `P` holds at every step, of the state before it and its event. -/
def Along (step : σ → ε → σ) (P : σ → ε → Prop) : σ → List ε → Prop
  | _, [] => True
  | s, e :: es => P s e ∧ Along step P (step s e) es

instance (step : σ → ε → σ) (P : σ → ε → Prop) [∀ s e, Decidable (P s e)] :
    ∀ s es, Decidable (Along step P s es)
  | _, [] => isTrue trivial
  | s, e :: es =>
    have : Decidable (Along step P (step s e) es) := instDecidableAlong step P (step s e) es
    inferInstanceAs (Decidable (_ ∧ _))

section Run

variable {step : σ → ε → σ} {P Q : σ → ε → Prop} {s : σ}

@[simp] theorem run_cons (s : σ) (e : ε) (es : List ε) :
    run step s (e :: es) = run step (step s e) es := rfl

theorem run_append (s : σ) (es fs : List ε) :
    run step s (es ++ fs) = run step (run step s es) fs := foldl_append

variable {es : List ε} {Inv : σ → Prop}

theorem along_append {fs : List ε} :
    Along step P s (es ++ fs) ↔ Along step P s es ∧ Along step P (run step s es) fs := by
  induction es generalizing s with
  | nil => exact ⟨fun h => ⟨trivial, h⟩, fun h => h.2⟩
  | cons e es ih =>
    rw [cons_append, Along, Along, ih, run_cons, and_assoc]

theorem along_of_forall (h : ∀ e ∈ es, ∀ s, P s e) (s : σ) : Along step P s es := by
  induction es generalizing s with
  | nil => exact trivial
  | cons e es ih =>
    exact ⟨h e mem_cons_self s, ih (fun e' he' => h e' (mem_cons_of_mem e he')) _⟩

theorem along_true (s : σ) (es : List ε) : Along step (fun _ _ => True) s es :=
  along_of_forall (fun _ _ _ => trivial) s

/-- **Invariant rule**: kept by every step that meets the assumption, it holds after every run
    that does. -/
theorem run_invariant (hstep : ∀ s e, Inv s → P s e → Inv (step s e))
     (hs : Inv s) (h : Along step P s es) : Inv (run step s es) := by
  induction es generalizing s with
  | nil => exact hs
  | cons e es ih => exact ih (hstep s e hs h.1) h.2

/-- **Two step properties agree along a run** when they agree at every state of an invariant that
    one of them keeps. -/
theorem along_iff {R : σ → ε → Prop} (hstep : ∀ s e, Inv s → R s e → Q s e → Inv (step s e))
    (hiff : ∀ s e, Inv s → R s e → (P s e ↔ Q s e)) (hs : Inv s) (h : Along step R s es) :
    Along step P s es ↔ Along step Q s es := by
  induction es generalizing s with
  | nil => exact Iff.rfl
  | cons e es ih =>
    obtain ⟨hr, hrs⟩ := h
    rw [Along, Along, hiff s e hs hr]
    exact and_congr_right fun hq => ih (hstep s e hs hr hq) hrs

end Run

/-- The state after `n` steps of a machine that can fault. -/
def iter (step : σ → Option σ) : Nat → σ → Option σ
  | 0, s => some s
  | n + 1, s => (iter step n s).bind step

section Iter

variable {step : σ → Option σ} {Inv G : σ → Prop} {s : σ}

theorem iter_add (m n : Nat) : iter step (m + n) s = (iter step m s).bind (iter step n) := by
  induction n with
  | zero => exact (Option.bind_fun_some _).symm
  | succ n ih =>
    rw [← Nat.add_assoc, iter, ih, Option.bind_assoc]
    rfl

theorem iter_invariant (hkeep : ∀ s s', Inv s → step s = some s' → Inv s') (hs : Inv s) {n : Nat}
    {s' : σ} (h : iter step n s = some s') : Inv s' := by
  induction n generalizing s' with
  | zero =>
    cases h
    exact hs
  | succ n ih =>
    obtain ⟨t, ht, hstep⟩ := bind_eq_some_iff.mp h
    exact hkeep t s' (ih ht) hstep

/-- **A machine never faults** exactly if the condition of a step holds wherever it gets. -/
theorem iter_isSome_iff (hiff : ∀ s, Inv s → ((step s).isSome ↔ G s))
    (hkeep : ∀ s s', Inv s → step s = some s' → Inv s') (hs : Inv s) :
    (∀ n, (iter step n s).isSome) ↔ ∀ n s', iter step n s = some s' → G s' := by
  constructor
  · intro hsafe n s' hn
    rw [← hiff s' (iter_invariant hkeep hs hn)]
    have hnext := hsafe (n + 1)
    rwa [iter, hn, bind_some] at hnext
  · intro hgood n
    induction n with
    | zero => rfl
    | succ n ih =>
      obtain ⟨s', hn⟩ := isSome_iff_exists.mp ih
      rw [iter, hn, bind_some, hiff s' (iter_invariant hkeep hs hn)]
      exact hgood n s' hn

end Iter

section Loop

variable {s : σ}
variable {step : σ → ε → Option σ} {es : List ε} {n : Nat} {α : Type} {f : ε → Option α}

theorem foldlM_isSome_iff {P : ε → Prop} (h : ∀ s e, (step s e).isSome ↔ P e) (es : List ε) :
    (es.foldlM step s).isSome ↔ ∀ e ∈ es, P e := by
  induction es generalizing s with
  | nil => simp
  | cons e es ih =>
    rw [foldlM_cons, forall_mem_cons, ← h s e]
    cases step s e with
    | none => simp
    | some t => exact ih.trans (by simp)

/-- **Fallible steps over a list**: what holds of the state and the events it has seen. -/
theorem foldlM_prefix (Inv : List ε → σ → Prop) (hs : Inv [] s)
    (hstep : ∀ done e t, done ++ [e] <+: es → Inv done t → ∃ t', step t e = some t' ∧ Inv (done ++ [e]) t') :
    ∃ t, es.foldlM step s = some t ∧ Inv es t := by
  induction es using reverseRecOn with
  | nil => exact ⟨s, rfl, hs⟩
  | append_singleton es e ih =>
    obtain ⟨t, hfold, ht⟩ := ih fun done e' t hpre => hstep done e' t (hpre.trans (prefix_append es [e]))
    obtain ⟨t', hlast, ht'⟩ := hstep es e t (prefix_refl _) ht
    refine ⟨t', ?_, ht'⟩
    rw [foldlM_append, hfold]
    show (foldlM step t [e]) = some t'
    rw [foldlM_cons, hlast]
    rfl

/-- **Loop rule**: what every step does not fault on and carries on holds at the end. -/
theorem foldlM_range {step : σ → Nat → Option σ} (Inv : Nat → σ → Prop) (hs : Inv 0 s)
    (hstep : ∀ x < n, ∀ s, Inv x s → ∃ s', step s x = some s' ∧ Inv (x + 1) s') :
    ∃ s', (List.range n).foldlM step s = some s' ∧ Inv n s' := by
  induction n with
  | zero => exact ⟨s, rfl, hs⟩
  | succ n ih =>
    obtain ⟨t, ht, hinv⟩ := ih fun x hx => hstep x (Nat.lt_succ_of_lt hx)
    obtain ⟨t', ht', hinv'⟩ := hstep n (Nat.lt_succ_self n) t hinv
    refine ⟨t', ?_, hinv'⟩
    rw [range_succ, foldlM_append, ht]
    simp [ht']

theorem mapM_eq_some_iff {ys : List α} :
    es.mapM f = some ys ↔ List.Forall₂ (fun e y => f e = some y) es ys := by
  induction es generalizing ys with
  | nil =>
    rw [mapM_nil, forall₂_nil_left_iff]
    exact ⟨fun h => (some.inj h).symm, fun h => by rw [h]; rfl⟩
  | cons e es ih =>
    rw [mapM_cons, forall₂_cons_left_iff]
    constructor
    · intro h
      obtain ⟨y, hy, hrest⟩ := bind_eq_some_iff.mp h
      obtain ⟨zs, hzs, hcons⟩ := bind_eq_some_iff.mp hrest
      exact ⟨y, zs, hy, ih.mp hzs, (some.inj hcons).symm⟩
    · intro ⟨y, zs, hy, hzs, hcons⟩
      rw [hy, ih.mpr hzs, hcons]
      rfl

theorem mapM_isSome_iff (es : List ε) : (es.mapM f).isSome ↔ ∀ e ∈ es, (f e).isSome := by
  induction es with
  | nil => simp
  | cons e es ih =>
    rw [mapM_cons, forall_mem_cons, ← ih]
    cases f e with
    | none => simp
    | some y => cases es.mapM f <;> simp

theorem bind_isSome_iff {β : Type} {o : Option α} {f : α → Option β} {P : Prop}
    (h : ∀ a, (f a).isSome ↔ P) : (o.bind f).isSome ↔ o.isSome ∧ P := by
  cases o with
  | none => simp
  | some a => simp [h a]

theorem foldl_range {step : σ → Nat → σ} (Inv : Nat → σ → Prop) (hs : Inv 0 s)
    (hstep : ∀ x < n, ∀ s, Inv x s → Inv (x + 1) (step s x)) : Inv n ((List.range n).foldl step s) := by
  induction n with
  | zero => exact hs
  | succ n ih =>
    rw [range_succ, foldl_append]
    exact hstep n (Nat.lt_succ_self n) _ (ih fun x hx => hstep x (Nat.lt_succ_of_lt hx))

end Loop

end DcuDaemon.Lib
