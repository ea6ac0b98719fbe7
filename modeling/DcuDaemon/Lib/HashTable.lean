/-
  Hash tables whose iteration order is not known.

  * `HashTable` -- a finite map (`AList`); `lookup_insert_eq`, `lookup_erase_eq` -- what the two
    updates do to every key; `entries_foldl_insert` -- what a loop of inserts leaves;
  * `Iteration` -- any order the entries may come in; `mem_order`, `order_nodup` -- each entry comes
    exactly once; `mem_filter_keys` -- the keys of some of them.
-/
import Mathlib.Data.List.AList

namespace DcuDaemon.Lib

open List

/-- A hash table, as the finite map that it stands for. -/
abbrev HashTable (K V : Type) := AList fun _ : K => V

/-- An order in which a table may be iterated over. -/
structure Iteration (K V : Type) where
  order : HashTable K V → List (Sigma fun _ : K => V)
  perm : ∀ t, (order t).Perm t.entries

def Iteration.stored (K V : Type) : Iteration K V := ⟨AList.entries, fun _ => List.Perm.refl _⟩

variable {K V : Type} [DecidableEq K]

namespace HashTable

theorem lookup_insert_eq (t : HashTable K V) (k : K) (v : V) (k' : K) :
    (t.insert k v).lookup k' = if k' = k then some v else t.lookup k' := by
  split
  · subst k'
    exact AList.lookup_insert t
  · exact AList.lookup_insert_ne ‹_›

theorem lookup_erase_eq (t : HashTable K V) (k k' : K) :
    (t.erase k).lookup k' = if k' = k then none else t.lookup k' := by
  split
  · subst k'
    exact AList.lookup_erase k t
  · exact AList.lookup_erase_ne ‹_›

variable {W : Type} {t : HashTable K V}

theorem map_lookup_insert (f : Option V → W) (t : HashTable K V) (k : K) (v : V) :
    (fun k' => f ((t.insert k v).lookup k')) =
      Function.update (fun k' => f (t.lookup k')) k (f (some v)) := by
  funext k'
  rw [HashTable.lookup_insert_eq, Function.update_apply]
  split
  · rfl
  · rfl

theorem map_lookup_erase (f : Option V → W) (t : HashTable K V) (k : K) :
    (fun k' => f ((t.erase k).lookup k')) = Function.update (fun k' => f (t.lookup k')) k (f none) := by
  funext k'
  rw [HashTable.lookup_erase_eq, Function.update_apply]
  split
  · rfl
  · rfl

theorem mem_of_lookup {k : K} {v : V} (h : t.lookup k = some v) : k ∈ t := AList.lookup_isSome.mp (h ▸ rfl)

def insertSome (t : HashTable K V) (k : K) : Option V → HashTable K V
  | some v => t.insert k v
  | none => t

theorem entries_foldl_insert {ι : Type} (key : ι → K) (value : ι → Option V) {xs : List ι}
    (hnodup : (xs.map key).Nodup) (hnew : ∀ x ∈ xs, key x ∉ t) :
    (xs.foldl (fun t x => insertSome t (key x) (value x)) t).entries.Perm
      (t.entries ++ xs.filterMap fun x => (value x).map (Sigma.mk (key x))) := by
  induction xs generalizing t with
  | nil => simp
  | cons x xs ih =>
    rw [map_cons, nodup_cons] at hnodup
    have hxs : ∀ y ∈ xs, key y ∉ t := fun y hy => hnew y (mem_cons_of_mem x hy)
    rw [foldl_cons]
    cases hv : value x with
    | none =>
      rw [filterMap_cons_none (by rw [hv]; rfl)]
      exact ih hnodup.2 hxs
    | some v =>
      have hins : ∀ y ∈ xs, key y ∉ t.insert (key x) v := fun y hy hmem =>
        ((AList.mem_insert t).mp hmem).elim (fun e => hnodup.1 (e ▸ mem_map_of_mem hy)) (hxs y hy)
      rw [filterMap_cons_some (by rw [hv]; rfl)]
      refine (ih hnodup.2 hins).trans ?_
      rw [AList.entries_insert_of_notMem (hnew x mem_cons_self)]
      exact perm_middle.symm

end HashTable

namespace Iteration

/-- **The entries that come are those of the table.** -/
theorem mem_order (iter : Iteration K V) (t : HashTable K V) (k : K) (v : V) :
    ⟨k, v⟩ ∈ iter.order t ↔ t.lookup k = some v :=
  (iter.perm t).mem_iff.trans (AList.mem_lookup_iff (s := t)).symm

theorem mem_filter_keys (iter : Iteration K V) (t : HashTable K V)
    (p : (Sigma fun _ : K => V) → Bool) (k : K) :
    k ∈ ((iter.order t).filter p).map (fun x => x.1) ↔ ∃ v, t.lookup k = some v ∧ p ⟨k, v⟩ := by
  simp only [mem_map, mem_filter]
  constructor
  · intro ⟨⟨k', v⟩, ⟨hmem, hp⟩, he⟩
    subst he
    exact ⟨v, (iter.mem_order t _ v).mp hmem, hp⟩
  · intro ⟨v, hlookup, hp⟩
    exact ⟨⟨k, v⟩, ⟨(iter.mem_order t k v).mpr hlookup, hp⟩, rfl⟩

omit [DecidableEq K] in
/-- **No key comes twice.** -/
theorem order_nodup (iter : Iteration K V) (t : HashTable K V) :
    (iter.order t).Pairwise fun x y => x.1 ≠ y.1 :=
  ((iter.perm t).pairwise_iff fun h => h.symm).mpr (nodupKeys_iff_pairwise.mp t.nodupKeys)

end Iteration

end DcuDaemon.Lib
