/-
  Routines: programs that go from state to state and end with a value, an error or a panic, and rules
  for what they do.

  * `Routine` -- the monad: an error leaves the state as it is at that point; nothing comes back from a
    panic;
  * `bind_eq_some` -- the inversion of `>>=`;
-/
import Mathlib.Logic.Basic

namespace DcuDaemon.Lib

/-- A routine from a state; `none` is a panic. -/
def Routine (ε σ α : Type) := σ → Option (Except ε α × σ)

namespace Routine

variable {ε σ α β : Type}

/-- One routine, and another one with its value; the first error ends the sequence. -/
def andThen (t : Routine ε σ α) (f : α → Routine ε σ β) : Routine ε σ β := fun s =>
  match t s with
  | none => none
  | some (.error e, s') => some (.error e, s')
  | some (.ok a, s') => f a s'

instance : Monad (Routine ε σ) where
  pure a := fun s => some (.ok a, s)
  bind := andThen

/-- `return Err(e)`. -/
def fail (e : ε) : Routine ε σ α := fun s => some (.error e, s)

/-- `r?`. -/
def ofExcept : Except ε α → Routine ε σ α
  | .ok a => pure a
  | .error e => fail e

def get : Routine ε σ σ := fun s => some (.ok s, s)

def modify (f : σ → σ) : Routine ε σ Unit := fun s => some (.ok (), f s)

/-- A panic, or the end of the process. -/
def abort : Routine ε σ α := fun _ => none

/-- A value that a panic may have taken the place of. -/
def orAbort : Option α → Routine ε σ α
  | some a => pure a
  | none => abort

/-- `if let Err(e) = t`, with nothing but a warning. -/
def attempt (t : Routine ε σ α) : Routine ε σ Unit := fun s => (t s).map fun x => (.ok (), x.2)

/-- A routine whose value is not used. -/
def void (t : Routine ε σ α) : Routine ε σ Unit := do
  let _ ← t
  pure ()

/-- `if let Some(a) = o`. -/
def whenSome (o : Option α) (t : α → Routine ε σ Unit) : Routine ε σ Unit :=
  match o with
  | some a => t a
  | none => pure ()

/-! ## 1. Runs -/

section Runs

variable {t : Routine ε σ α} {f : α → Routine ε σ β} {s s' : σ} {a : α} {e : ε}

theorem bind_ok (h : t s = some (.ok a, s')) : (t >>= f) s = f a s' := by
  show andThen t f s = _
  rw [andThen, h]

theorem bind_error (h : t s = some (.error e, s')) : (t >>= f) s = some (.error e, s') := by
  show andThen t f s = _
  rw [andThen, h]

theorem bind_none (h : t s = none) : (t >>= f) s = none := by
  show andThen t f s = _
  rw [andThen, h]

/-- **A sequence that comes back**: the first part failed, or the second part came back. -/
theorem bind_eq_some {r : Except ε β} (h : (t >>= f) s = some (r, s')) :
    (∃ e, t s = some (.error e, s') ∧ r = .error e) ∨
      ∃ a s₁, t s = some (.ok a, s₁) ∧ f a s₁ = some (r, s') := by
  rcases ht : t s with _ | ⟨e | a, s₁⟩
  · rw [bind_none ht] at h
    cases h
  · rw [bind_error ht] at h
    cases h
    exact .inl ⟨e, rfl, rfl⟩
  · rw [bind_ok ht] at h
    exact .inr ⟨a, s₁, rfl, h⟩

instance : LawfulMonad (Routine ε σ) := LawfulMonad.mk' (Routine ε σ) (by
    intro α t
    funext s
    show andThen t (fun a => Pure.pure (id a)) s = t s
    rw [andThen]
    rcases t s with _ | ⟨e | a, s'⟩
    · rfl
    · rfl
    · rfl)
  (fun _ _ => rfl)
  (by
    intro α β γ t f g
    funext s
    show andThen (andThen t f) g s = andThen t (fun a => andThen (f a) g) s
    rw [andThen, andThen, andThen]
    rcases t s with _ | ⟨e | a, s'⟩
    · rfl
    · rfl
    · rfl)

end Runs

/-! ## 2. What routines do -/

def errorOf : Except ε α → Option ε
  | .ok _ => none
  | .error e => some e

/-- **The meaning of a specification**: it relates the states before and after every run that comes
    back, and the error. -/
def Sat (t : Routine ε σ α) (R : σ → Option ε → σ → Prop) : Prop :=
  ∀ s r s', t s = some (r, s') → R s (errorOf r) s'

/-- A relation that goes on from part to part. -/
structure Chains (R : σ → Option ε → σ → Prop) : Prop where
  refl : ∀ s, R s none s
  trans : ∀ {s s₁ s'} {o : Option ε}, R s none s₁ → R s₁ o s' → R s o s'

section Rules

variable {R : σ → Option ε → σ → Prop} (hR : Chains R)

include hR

theorem Sat.pure (a : α) : Sat (Pure.pure a : Routine ε σ α) R := by
  intro s r s' h
  cases h
  exact hR.refl s

variable {t : Routine ε σ α}

theorem Sat.bind {f : α → Routine ε σ β} (ht : Sat t R) (hf : ∀ a, Sat (f a) R) : Sat (t >>= f) R := by
  intro s r s' h
  obtain ⟨e, he, rfl⟩ | ⟨a, s₁, ha, hrest⟩ := bind_eq_some h
  · exact ht s _ s' he
  · exact hR.trans (ht s _ s₁ ha) (hf a s₁ r s' hrest)

theorem Sat.void (ht : Sat t R) : Sat t.void R := Sat.bind hR ht fun _ => Sat.pure hR ()

end Rules

/-! ## 3. Routines that do not panic -/

def Returns (t : Routine ε σ α) : Prop := ∀ s, t s ≠ none

theorem Returns.pure (a : α) : Returns (Pure.pure a : Routine ε σ α) := by
  intro s h
  cases h

variable {t : Routine ε σ α}

theorem Returns.bind {f : α → Routine ε σ β} (ht : Returns t)
    (hf : ∀ a, Returns (f a)) : Returns (t >>= f) := by
  intro s
  rcases hrun : t s with _ | ⟨e | a, s'⟩
  · exact absurd hrun (ht s)
  · rw [bind_error hrun]
    simp
  · rw [bind_ok hrun]
    exact hf a s'

theorem Returns.void (ht : Returns t) : Returns t.void := Returns.bind ht fun _ => Returns.pure ()

end Routine

end DcuDaemon.Lib
