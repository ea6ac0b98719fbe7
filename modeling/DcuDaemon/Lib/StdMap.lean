/-
  A `std::map` whose keys are compared by a user-defined `operator<`.

  As in a `std::set`, keys are the same to the map when neither is less than the other. Where that says
  that some part `key` of them agrees, the map is a table by that part: `find_eq_some_iff`,
  `find_eq_none_iff`.
-/
import DcuDaemon.Lib.KeyedList
import DcuDaemon.Lib.StdSet
import Mathlib.Data.List.Perm.Basic

namespace DcuDaemon.Lib.StdMap

variable {α β ν : Type} (lt : α → α → Bool)

/-- `find`, and what the iterator points to. -/
def find (m : List (α × ν)) (k : α) : Option ν := (m.find? fun e => equivalent lt k e.1).map Prod.snd

/-- A new entry, at its place in the order. -/
def place (k : α) (v : ν) : List (α × ν) → List (α × ν)
  | [] => [(k, v)]
  | e :: m => if lt e.1 k then e :: place k v m else (k, v) :: e :: m

/-- `insert`: an entry of the same key is kept. -/
def insert (m : List (α × ν)) (k : α) (v : ν) : List (α × ν) :=
  if m.any (fun e => equivalent lt k e.1) then m else place lt k v m

theorem place_perm (k : α) (v : ν) (m : List (α × ν)) : (place lt k v m).Perm ((k, v) :: m) := by
  induction m with
  | nil => exact List.Perm.refl _
  | cons e m ih =>
    rw [place]
    split
    · exact (ih.cons e).trans (List.Perm.swap (k, v) e m)
    · exact List.Perm.refl _

section Keys

variable {lt} {key : α → β} (hlt : ∀ x y, equivalent lt x y = true ↔ key x = key y)
  {m : List (α × ν)} {k : α} {v : ν}

include hlt

theorem find_eq_none_iff : find lt m k = none ↔ ∀ e ∈ m, key k ≠ key e.1 := by
  rw [find, Option.map_eq_none_iff, List.find?_eq_none]
  exact forall₂_congr fun e _ => not_congr (hlt k e.1)

theorem mem_of_find (h : find lt m k = some v) : ∃ a, (a, v) ∈ m ∧ key k = key a := by
  obtain ⟨e, he, rfl⟩ := Option.map_eq_some_iff.mp h
  have hk : equivalent lt k e.1 := by simpa using List.find?_some he
  exact ⟨e.1, List.mem_of_find?_eq_some he, (hlt k e.1).mp hk⟩

theorem find_eq_some_iff (hdistinct : (m.map fun e => key e.1).Nodup) :
    find lt m k = some v ↔ ∃ a, (a, v) ∈ m ∧ key k = key a := by
  refine ⟨mem_of_find hlt, fun h => ?_⟩
  obtain ⟨a, ha, hk⟩ := h
  cases hf : find lt m k with
  | none => exact absurd hk ((find_eq_none_iff hlt).mp hf _ ha)
  | some w =>
    obtain ⟨b, hb, hkb⟩ := mem_of_find hlt hf
    have he : (b, w) = (a, v) := KeyedList.Distinct.eq_of_key hdistinct hb ha (hkb.symm.trans hk)
    exact congrArg (fun e => some e.2) he

theorem insert_perm (hnew : ∀ e ∈ m, key k ≠ key e.1) : (insert lt m k v).Perm ((k, v) :: m) := by
  have hany : m.any (fun e => equivalent lt k e.1) = false := by
    refine List.any_eq_false.mpr fun e he h => hnew e he ((hlt k e.1).mp h)
  rw [insert, hany]
  exact place_perm lt k v m

end Keys

end DcuDaemon.Lib.StdMap
