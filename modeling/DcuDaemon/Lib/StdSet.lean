/-
  A `std::set` whose elements are compared by a user-defined `operator<`.

  The set never tests equality: two elements are the same to it when neither is less than the other.
  `count`, `insert` and `erase` are written with that equivalence. Only where it is equality (`Separates
  lt`) does the set behave as a set of values: `count_iff`, `mem_insert`, `mem_erase`.

  * `thenCompare` -- one field of a field-by-field `operator<`; `thenCompare_separates` -- a
    cascade of such fields is equivalent only where every field agrees;
  * `memcmp` -- the comparison of byte arrays; `memcmp_eq_iff` -- it is 0 only on equal ones.
-/
import Mathlib.Data.List.Basic

namespace DcuDaemon.Lib

open List

variable {α : Type}

/-- Neither is less than the other. -/
def equivalent (lt : α → α → Bool) (x y : α) : Bool := !lt x y && !lt y x

/-- The order tells any two different elements apart. -/
def Separates (lt : α → α → Bool) : Prop := ∀ x y, equivalent lt x y = true ↔ x = y

/-- `std::set`, its elements in some order. -/
structure StdSet (lt : α → α → Bool) where
  elems : List α

namespace StdSet

variable {lt : α → α → Bool}

def empty : StdSet lt := ⟨[]⟩

def count (s : StdSet lt) (x : α) : Bool := s.elems.any (equivalent lt x)

/-- An equivalent element is kept, the new one is not taken. -/
def insert (s : StdSet lt) (x : α) : StdSet lt := if s.count x then s else ⟨x :: s.elems⟩

def erase (s : StdSet lt) (x : α) : StdSet lt := ⟨s.elems.filter fun y => !equivalent lt x y⟩

def size (s : StdSet lt) : Nat := s.elems.length

instance : Membership α (StdSet lt) := ⟨fun s x => x ∈ s.elems⟩

theorem not_mem_empty (x : α) : x ∉ (empty : StdSet lt) := not_mem_nil

theorem not_mem_of_size {s : StdSet lt} (h : s.size = 0) (x : α) : x ∉ s := by
  have he : s.elems = [] := length_eq_zero_iff.mp h
  show x ∉ s.elems
  rw [he]
  exact not_mem_nil

theorem erase_of_not_count {s : StdSet lt} {x : α} (h : s.count x = false) : s.erase x = s := by
  have hall : ∀ y ∈ s.elems, (!equivalent lt x y) := by
    intro y hy
    have hne := any_eq_false.mp h y hy
    simpa using hne
  have he : s.elems.filter (fun y => !equivalent lt x y) = s.elems := filter_eq_self.mpr hall
  unfold erase
  rw [he]

variable (hlt : Separates lt)

include hlt

/-- **`count` is membership.** -/
theorem count_iff (s : StdSet lt) (x : α) : s.count x ↔ x ∈ s := by
  unfold count
  rw [any_eq_true]
  refine ⟨fun h => ?_, fun h => ⟨x, h, (hlt x x).mpr rfl⟩⟩
  obtain ⟨y, hy, he⟩ := h
  obtain rfl := (hlt x y).mp he
  exact hy

theorem mem_insert (s : StdSet lt) (x y : α) : y ∈ s.insert x ↔ y = x ∨ y ∈ s := by
  unfold insert
  split
  · rename_i h
    refine ⟨.inr, fun hy => ?_⟩
    rcases hy with rfl | hy
    · exact (count_iff hlt s y).mp h
    · exact hy
  · exact mem_cons

theorem mem_erase (s : StdSet lt) (x y : α) : y ∈ s.erase x ↔ y ≠ x ∧ y ∈ s := by
  have he : (!equivalent lt x y) ↔ y ≠ x := by
    rw [Bool.not_eq_true', ← Bool.not_eq_true, hlt x y]
    exact not_congr eq_comm
  show y ∈ filter _ _ ↔ _
  rw [mem_filter, he, and_comm]
  rfl

end StdSet

/-! ## Field-by-field orders -/

/-- Compare one field; go on with the rest where it agrees. -/
def thenCompare (x y : Nat) (rest : Bool) : Bool :=
  if x < y then true else if x > y then false else rest

variable {r r' : Bool} {a b : List UInt8}

theorem thenCompare_separates {x y : Nat} :
    thenCompare x y r = false ∧ thenCompare y x r' = false ↔ x = y ∧ r = false ∧ r' = false := by
  unfold thenCompare
  rcases Nat.lt_trichotomy x y with h | rfl | h
  · rw [if_pos h]
    exact ⟨fun e => (by cases e.1), fun e => absurd e.1 (Nat.ne_of_lt h)⟩
  · rw [if_neg (Nat.lt_irrefl x), if_neg (Nat.lt_irrefl x), if_neg (Nat.lt_irrefl x),
      if_neg (Nat.lt_irrefl x)]
    exact ⟨fun e => ⟨rfl, e⟩, fun e => e.2⟩
  · rw [if_neg (Nat.lt_asymm h), if_pos h, if_pos h]
    exact ⟨fun e => (by cases e.2), fun e => absurd e.1.symm (Nat.ne_of_lt h)⟩

/-- `memcmp`, by its sign. -/
def memcmp : List UInt8 → List UInt8 → Ordering
  | a :: as, b :: bs => if a < b then .lt else if a > b then .gt else memcmp as bs
  | _, _ => .eq

theorem memcmp_self (a : List UInt8) : memcmp a a = .eq := by
  induction a with
  | nil => rfl
  | cons b a ih =>
    rw [memcmp, if_neg (UInt8.lt_irrefl b), if_neg (UInt8.lt_irrefl b)]
    exact ih

/-- **`memcmp` is 0 only on equal arrays.** -/
theorem memcmp_eq_iff (h : a.length = b.length) : memcmp a b = .eq ↔ a = b := by
  refine ⟨fun e => ?_, fun e => e ▸ memcmp_self a⟩
  induction a generalizing b with
  | nil => exact (length_eq_zero_iff.mp h.symm).symm
  | cons x a ih =>
    cases b with
    | nil => cases h
    | cons y b =>
      rw [memcmp] at e
      split at e
      · cases e
      · split at e
        · cases e
        · rename_i h1 h2
          obtain rfl : x = y := UInt8.le_antisymm (UInt8.not_lt.mp h2) (UInt8.not_lt.mp h1)
          rw [ih (Nat.succ.inj h) e]

theorem memcmp_swap (a b : List UInt8) : memcmp b a = (memcmp a b).swap := by
  induction a generalizing b with
  | nil =>
    cases b with
    | nil => rfl
    | cons y b => rfl
  | cons x a ih =>
    cases b with
    | nil => rfl
    | cons y b =>
      rw [memcmp, memcmp]
      by_cases h1 : x < y
      · rw [if_pos h1, if_neg (UInt8.lt_asymm h1), if_pos h1]
        rfl
      · by_cases h2 : y < x
        · rw [if_pos h2, if_neg h1, if_pos h2]
          rfl
        · rw [if_neg h2, if_neg h1, if_neg h1, if_neg h2]
          exact ih b

/-- Compare two byte arrays; go on with the rest where they agree. -/
def thenMemcmp (a b : List UInt8) (rest : Bool) : Bool :=
  match memcmp a b with
  | .lt => true
  | .gt => false
  | .eq => rest

theorem thenMemcmp_separates (h : a.length = b.length) :
    thenMemcmp a b r = false ∧ thenMemcmp b a r' = false ↔ a = b ∧ r = false ∧ r' = false := by
  rw [← memcmp_eq_iff h]
  unfold thenMemcmp
  rw [memcmp_swap a b]
  cases memcmp a b with
  | lt => exact ⟨fun e => (by cases e.1), fun e => (by cases e.1)⟩
  | gt => exact ⟨fun e => (by cases e.2), fun e => (by cases e.1)⟩
  | eq => exact ⟨fun e => ⟨rfl, e⟩, fun e => e.2⟩

end DcuDaemon.Lib
