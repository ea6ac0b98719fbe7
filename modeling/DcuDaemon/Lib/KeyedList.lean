/-
  Lists whose entries are compared by a key, and the merge of a report into such a list.

  A report lists everything its sender has. Each reported entry is taken out of a copy of the list and
  added to the list if its key is new; what is left in the copy and belongs to the sender is then
  removed. Where the key is less than the entry, an entry that is there keeps its other fields.

  * `find`, `find_eq_some_iff` -- the entry of a key, and what it says about membership;
  * `find_merge` -- the entry of every key after a report.
-/
import Mathlib.Data.List.Dedup

namespace DcuDaemon.Lib.KeyedList

open List

variable {E κ : Type} [DecidableEq κ] (key : E → κ)

/-! ## 1. Entries and keys -/

def find (m : List E) (k : κ) : Option E := m.find? fun y => key y = k

/-- An entry whose key is there is not added again. -/
def insertNew (m : List E) (x : E) : List E := if m.any (fun y => key y = key x) then m else m ++ [x]

/-- The first entry of a key is taken out. -/
def eraseKey (m : List E) (k : κ) : List E := m.eraseP fun y => key y = k

def Distinct (m : List E) : Prop := (m.map key).Nodup

instance (m : List E) : Decidable (Distinct key m) := inferInstanceAs (Decidable (m.map key).Nodup)

section Entries

variable {key} {m : List E} {x y : E} {k : κ}

omit [DecidableEq κ] in
theorem Distinct.nodup (h : Distinct key m) : m.Nodup := List.Nodup.of_map key h

omit [DecidableEq κ] in
theorem Distinct.sublist {m' : List E} (hs : m'.Sublist m) (h : Distinct key m) : Distinct key m' :=
  List.Nodup.sublist (hs.map key) h

omit [DecidableEq κ] in
theorem Distinct.eq_of_key (h : Distinct key m) (hx : x ∈ m) (hy : y ∈ m) (hk : key x = key y) :
    x = y := inj_on_of_nodup_map h hx hy hk

theorem find_eq_none : find key m k = none ↔ k ∉ m.map key := by
  rw [find, find?_eq_none, mem_map]
  simp

theorem mem_of_find (h : find key m k = some y) : y ∈ m ∧ key y = k :=
  ⟨mem_of_find?_eq_some h, by simpa using find?_some h⟩

/-- **The entry of a key** is the entry with this key. -/
theorem find_eq_some_iff (h : Distinct key m) : find key m k = some y ↔ y ∈ m ∧ key y = k := by
  refine ⟨mem_of_find, fun ⟨hy, hk⟩ => ?_⟩
  cases hf : find key m k with
  | none => exact absurd (mem_map.mpr ⟨y, hy, hk⟩) (find_eq_none.mp hf)
  | some z =>
    obtain ⟨hz, hzk⟩ := mem_of_find hf
    rw [h.eq_of_key hz hy (hzk.trans hk.symm)]

theorem any_key_iff : m.any (fun y => key y = k) ↔ k ∈ m.map key := by
  simp

/-! ## 2. One entry -/

theorem find_insertNew (m : List E) (x : E) (k : κ) :
    find key (insertNew key m x) k = (find key m k).or (if key x = k then some x else none) := by
  unfold insertNew
  split
  · rename_i h
    split
    · rename_i e
      subst e
      cases hf : find key m (key x) with
      | none => exact absurd (any_key_iff.mp h) (find_eq_none.mp hf)
      | some y => rfl
    · rw [Option.or_none]
  · rw [find, find?_append]
    by_cases e : key x = k
    · rw [if_pos e, find?_cons_of_pos (by simpa using e)]
      rfl
    · rw [if_neg e, find?_cons_of_neg (by simpa using e)]
      rfl

theorem distinct_insertNew (h : Distinct key m) (x : E) : Distinct key (insertNew key m x) := by
  unfold insertNew
  split
  · exact h
  · rename_i hnew
    rw [any_key_iff] at hnew
    rw [Distinct, map_append]
    refine nodup_append.mpr ⟨h, nodup_singleton _, fun a ha b hb e => hnew ?_⟩
    rw [← mem_singleton.mp hb, ← e]
    exact ha

theorem distinct_eraseKey (h : Distinct key m) (k : κ) : Distinct key (eraseKey key m k) :=
  h.sublist eraseP_sublist

theorem find_eraseKey (h : Distinct key m) (k k' : κ) :
    find key (eraseKey key m k) k' = if k' = k then none else find key m k' := by
  induction m with
  | nil => exact (ite_self none).symm
  | cons y m ih =>
    obtain ⟨hy, hm⟩ := nodup_cons.mp (show (key y :: m.map key).Nodup from h)
    unfold eraseKey
    by_cases e : key y = k
    · rw [eraseP_cons_of_pos (by simpa using e)]
      split
      · rename_i hk
        exact find_eq_none.mpr (hk.trans e.symm ▸ hy)
      · rename_i hk
        rw [find, find, find?_cons_of_neg]
        simpa using fun h' => hk (h'.symm.trans e)
    · rw [eraseP_cons_of_neg (by simpa using e)]
      by_cases e' : key y = k'
      · have hne : k' ≠ k := fun h' => e (e'.trans h')
        rw [if_neg hne, find, find, find?_cons_of_pos (by simpa using e'),
          find?_cons_of_pos (by simpa using e')]
      · rw [find, find?_cons_of_neg (by simpa using e'), find, find?_cons_of_neg (by simpa using e')]
        exact ih hm

theorem mem_eraseKey (h : Distinct key m) : y ∈ eraseKey key m k ↔ y ∈ m ∧ key y ≠ k := by
  have hafter := find_eq_some_iff (k := key y) (y := y) (distinct_eraseKey h k)
  rw [find_eraseKey h, ite_eq_iff, find_eq_some_iff h] at hafter
  grind

theorem filter_eraseKey {p : E → Bool} (h : ∀ y ∈ m, key y = k → p y = false) :
    (eraseKey key m k).filter p = m.filter p := by
  induction m with
  | nil => rfl
  | cons y m ih =>
    unfold eraseKey
    by_cases e : key y = k
    · have hp : ¬ p y := by
        rw [h y mem_cons_self e]
        exact Bool.false_ne_true
      rw [eraseP_cons_of_pos (by simpa using e), filter_cons_of_neg hp]
    · rw [eraseP_cons_of_neg (by simpa using e), filter_cons, filter_cons]
      rw [show (m.eraseP fun y => key y = k).filter p = m.filter p from
        ih fun z hz => h z (mem_cons_of_mem y hz)]

theorem filter_insertNew {p : E → Bool} (m : List E) (h : p x = false) :
    (insertNew key m x).filter p = m.filter p := by
  unfold insertNew
  split
  · rfl
  · rw [filter_append, filter_cons_of_neg (by simp [h]), filter_nil, append_nil]

end Entries

/-! ## 3. A report -/

/-- The loop over the reported entries: each is taken out of the copy and added to the list. -/
def mergeLoop (copy m : List E) (xs : List E) : List E × List E :=
  xs.foldl (fun t x => (eraseKey key t.1 (key x), insertNew key t.2 x)) (copy, m)

/-- The entries of the second list are taken out of the first one. -/
def eraseAll (m ds : List E) : List E := ds.foldl (fun m d => eraseKey key m (key d)) m

/-- A whole report; what belongs to its sender (`owned`) and is not reported goes. -/
def merge (owned : E → Bool) (m xs : List E) : List E :=
  eraseAll key (mergeLoop key m m xs).2 ((mergeLoop key m m xs).1.filter owned)

section Report

variable {key} {m xs : List E} {owned : E → Bool}

theorem find_mergeLoop_copy {copy : List E} (h : Distinct key copy) (m xs : List E) (k : κ) :
    find key (mergeLoop key copy m xs).1 k = if k ∈ xs.map key then none else find key copy k := by
  induction xs generalizing copy m with
  | nil => rfl
  | cons x xs ih =>
    show find key (mergeLoop key (eraseKey key copy (key x)) (insertNew key m x) xs).1 k = _
    rw [ih (distinct_eraseKey h (key x)), find_eraseKey h]
    by_cases e : k = key x
    · simp [e]
    · simp [e]

theorem find_mergeLoop (copy m xs : List E) (k : κ) :
    find key (mergeLoop key copy m xs).2 k = (find key m k).or (find key xs k) := by
  induction xs generalizing copy m with
  | nil => exact (Option.or_none).symm
  | cons x xs ih =>
    show find key (mergeLoop key (eraseKey key copy (key x)) (insertNew key m x) xs).2 k = _
    rw [ih, find_insertNew, Option.or_assoc]
    by_cases e : key x = k
    · have hcons : find key (x :: xs) k = some x := find?_cons_of_pos (by simpa using e)
      rw [if_pos e, hcons]
      rfl
    · have hcons : find key (x :: xs) k = find key xs k := find?_cons_of_neg (by simpa using e)
      rw [if_neg e, hcons]
      rfl

theorem sublist_mergeLoop (copy m xs : List E) : (mergeLoop key copy m xs).1.Sublist copy := by
  induction xs generalizing copy m with
  | nil => exact List.Sublist.refl copy
  | cons x xs ih => exact (ih _ _).trans eraseP_sublist

theorem filter_mergeLoop {p : E → Bool} (hxs : ∀ x ∈ xs, p x = false) (copy m : List E) :
    (mergeLoop key copy m xs).2.filter p = m.filter p := by
  induction xs generalizing copy m with
  | nil => rfl
  | cons x xs ih =>
    show (mergeLoop key (eraseKey key copy (key x)) (insertNew key m x) xs).2.filter p = _
    rw [ih fun y hy => hxs y (mem_cons_of_mem x hy), filter_insertNew m (hxs x mem_cons_self)]

theorem filter_eraseAll {p : E → Bool} {ds : List E}
    (h : ∀ d ∈ ds, ∀ y ∈ m, key y = key d → p y = false) :
    (eraseAll key m ds).filter p = m.filter p := by
  induction ds generalizing m with
  | nil => rfl
  | cons d ds ih =>
    have hrest : (eraseAll key (eraseKey key m (key d)) ds).filter p = (eraseKey key m (key d)).filter p :=
      ih fun e he y hy => h e (mem_cons_of_mem d he) y (mem_of_mem_eraseP hy)
    exact hrest.trans (filter_eraseKey (h d mem_cons_self))

theorem insertNew_of_mem {x : E} (h : key x ∈ m.map key) : insertNew key m x = m :=
  if_pos (any_key_iff.mpr h)

theorem mergeLoop_of_mem (h : ∀ x ∈ xs, key x ∈ m.map key) (copy : List E) :
    (mergeLoop key copy m xs).2 = m := by
  induction xs generalizing copy with
  | nil => rfl
  | cons x xs ih =>
    show (mergeLoop key (eraseKey key copy (key x)) (insertNew key m x) xs).2 = m
    rw [insertNew_of_mem (h x mem_cons_self)]
    exact ih (fun y hy => h y (mem_cons_of_mem x hy)) _

variable (h : Distinct key m)

include h

theorem distinct_eraseAll (ds : List E) : Distinct key (eraseAll key m ds) := by
  induction ds generalizing m with
  | nil => exact h
  | cons d ds ih => exact ih (distinct_eraseKey h (key d))

theorem find_eraseAll (ds : List E) (k : κ) :
    find key (eraseAll key m ds) k = if k ∈ ds.map key then none else find key m k := by
  induction ds generalizing m with
  | nil => rfl
  | cons d ds ih =>
    show find key (eraseAll key (eraseKey key m (key d)) ds) k = _
    rw [ih (distinct_eraseKey h (key d)), find_eraseKey h]
    by_cases e : k = key d
    · simp [e]
    · simp [e]

theorem distinct_mergeLoop (copy xs : List E) : Distinct key (mergeLoop key copy m xs).2 := by
  induction xs generalizing copy m with
  | nil => exact h
  | cons x xs ih => exact ih (distinct_insertNew h x) _

theorem distinct_merge (owned : E → Bool) (xs : List E) : Distinct key (merge key owned m xs) :=
  distinct_eraseAll (distinct_mergeLoop h m xs) _

theorem mem_stale_keys (k : κ) :
    k ∈ ((mergeLoop key m m xs).1.filter owned).map key ↔
      k ∉ xs.map key ∧ ∃ y, find key m k = some y ∧ owned y := by
  have hcopy : Distinct key (mergeLoop key m m xs).1 := h.sublist (sublist_mergeLoop m m xs)
  have hmem : ∀ y, y ∈ (mergeLoop key m m xs).1 ∧ key y = k ↔ k ∉ xs.map key ∧ find key m k = some y := by
    intro y
    rw [← find_eq_some_iff hcopy, find_mergeLoop_copy h]
    by_cases hk : k ∈ xs.map key
    · simp
    · simp
  rw [mem_map]
  constructor
  · intro ⟨y, hy, hyk⟩
    obtain ⟨hy, hown⟩ := mem_filter.mp hy
    obtain ⟨hk, hf⟩ := (hmem y).mp ⟨hy, hyk⟩
    exact ⟨hk, y, hf, hown⟩
  · intro ⟨hk, y, hf, hown⟩
    obtain ⟨hy, hyk⟩ := (hmem y).mpr ⟨hk, hf⟩
    exact ⟨y, mem_filter.mpr ⟨hy, hown⟩, hyk⟩

/-- **Every key after a report**: the report's where new; none where the sender's and not reported; else what
    was there. -/
theorem find_merge (owned : E → Bool) (xs : List E) (k : κ) :
    find key (merge key owned m xs) k =
      match find key m k with
      | none => find key xs k
      | some y => if owned y ∧ k ∉ xs.map key then none else some y := by
  unfold merge
  rw [find_eraseAll (distinct_mergeLoop h m xs), find_mergeLoop]
  simp only [mem_stale_keys h]
  cases find key m k with
  | none => simp
  | some y =>
    dsimp only
    by_cases hown : owned y
    · simp [hown]
    · simp [hown]

/-! ## 4. Whose entries there are -/

/-- The key tells apart what is there and what is reported. -/
def Separated (key : E → κ) (m xs : List E) : Prop := ∀ x ∈ xs, ∀ y, y ∈ m ∨ y ∈ xs → key y = key x → y = x

theorem mem_merge_of_reported {x y : E} (hy : y ∈ m) (hx : x ∈ xs)
    (hk : key y = key x) : y ∈ merge key owned m xs := by
  have hf : find key m (key y) = some y := (find_eq_some_iff h).mpr ⟨hy, rfl⟩
  have hkeys : key y ∈ xs.map key := mem_map.mpr ⟨x, hx, hk.symm⟩
  have hmerge : find key (merge key owned m xs) (key y) = some y := by
    rw [find_merge h, hf]
    exact if_neg fun hno => hno.2 hkeys
  exact (mem_of_find hmerge).1

/-- **The sender's entries are those reported** exactly if the key tells apart what is there and what
    is reported. -/
theorem merge_owned_iff (hxs : ∀ x ∈ xs, owned x) :
    (∀ y, (y ∈ merge key owned m xs ∧ owned y) ↔ y ∈ xs) ↔ Separated key m xs := by
  have hdist := distinct_merge h owned xs
  constructor
  · intro hall x hx y hy hk
    have hxm := ((hall x).mpr hx).1
    rcases hy with hy | hy
    · exact hdist.eq_of_key (mem_merge_of_reported h hy hx hk) hxm hk
    · exact hdist.eq_of_key ((hall y).mpr hy).1 hxm hk
  · intro hsep y
    rw [← and_true (y ∈ merge key owned m xs), ← eq_self_iff_true (key y),
      ← find_eq_some_iff hdist, find_merge h]
    cases hf : find key m (key y) with
    | none =>
      constructor
      · intro ⟨hfind, _⟩
        exact (mem_of_find hfind).1
      · intro hy
        refine ⟨?_, hxs y hy⟩
        cases hx : find key xs (key y) with
        | none => exact absurd (mem_map_of_mem hy) (find_eq_none.mp hx)
        | some x =>
          obtain ⟨hxmem, hxk⟩ := mem_of_find hx
          rw [hsep y hy x (.inr hxmem) hxk]
    | some z =>
      obtain ⟨hz, hzk⟩ := mem_of_find hf
      dsimp only
      by_cases hk : key y ∈ xs.map key
      · obtain ⟨x, hx, hxk⟩ := mem_map.mp hk
        rw [if_neg fun hno => hno.2 hk, Option.some.injEq]
        constructor
        · intro ⟨hzy, _⟩
          subst hzy
          rw [hsep x hx z (.inl hz) hxk.symm]
          exact hx
        · intro hy
          exact ⟨hsep y hy z (.inl hz) hzk, hxs y hy⟩
      · constructor
        · intro ⟨hfind, howny⟩
          split at hfind
          · cases hfind
          · rename_i hno
            obtain rfl := Option.some.inj hfind
            exact absurd ⟨howny, hk⟩ hno
        · intro hy
          exact absurd (mem_map_of_mem hy) hk

/-- Every reported key is there, -/
theorem reported_mem_merge {x : E} (hx : x ∈ xs) : key x ∈ (merge key owned m xs).map key := by
  by_contra hno
  have hnone := find_eq_none.mpr hno
  rw [find_merge h] at hnone
  have hkeys : key x ∈ xs.map key := mem_map_of_mem hx
  cases hf : find key m (key x) with
  | none =>
    rw [hf] at hnone
    exact find_eq_none.mp hnone hkeys
  | some y =>
    rw [hf] at hnone
    dsimp only at hnone
    rw [if_neg fun hgone => hgone.2 hkeys] at hnone
    cases hnone

/-- and no other key of the sender. -/
theorem mem_of_owned_merge {y : E} (hy : y ∈ merge key owned m xs) (howned : owned y) :
    key y ∈ xs.map key := by
  by_contra hno
  have hfind := (find_eq_some_iff (distinct_merge h owned xs)).mpr ⟨hy, rfl⟩
  rw [find_merge h] at hfind
  cases hf : find key m (key y) with
  | none =>
    rw [hf] at hfind
    exact hno (mem_map_of_mem (mem_of_find hfind).1)
  | some z =>
    rw [hf] at hfind
    dsimp only at hfind
    split at hfind
    · cases hfind
    · rename_i hkeep
      obtain rfl := Option.some.inj hfind
      exact hkeep ⟨howned, hno⟩

/-- **The entries of others stay as they are.** -/
theorem filter_merge (hxs : ∀ x ∈ xs, owned x) :
    (merge key owned m xs).filter (fun y => !owned y) = m.filter fun y => !owned y := by
  have hnew : ∀ x ∈ xs, (!owned x) = false := fun x hx => by rw [hxs x hx]; rfl
  unfold merge
  rw [filter_eraseAll, filter_mergeLoop hnew]
  intro d hd y hy hk
  obtain ⟨hd, hownd⟩ := mem_filter.mp hd
  have hdm : d ∈ m := (sublist_mergeLoop m m xs).subset hd
  have hfd : find key m (key y) = some d := (find_eq_some_iff h).mpr ⟨hdm, hk.symm⟩
  have hfy : find key (mergeLoop key m m xs).2 (key y) = some y :=
    (find_eq_some_iff (distinct_mergeLoop h m xs)).mpr ⟨hy, rfl⟩
  rw [find_mergeLoop, hfd] at hfy
  rw [← Option.some.inj hfy, hownd]
  rfl

/-! ## 5. The same report again -/

theorem merge_eq_self (hxs : ∀ x ∈ xs, key x ∈ m.map key)
    (hown : ∀ y ∈ m, owned y → key y ∈ xs.map key) : merge key owned m xs = m := by
  have hstale : (mergeLoop key m m xs).1.filter owned = [] := by
    rw [filter_eq_nil_iff]
    intro d hd howned
    obtain ⟨hk, y, hf, -⟩ := (mem_stale_keys h (key d)).mp (mem_map_of_mem (mem_filter.mpr ⟨hd, howned⟩))
    exact hk (hown d ((sublist_mergeLoop m m xs).subset hd) howned)
  rw [merge, hstale, mergeLoop_of_mem hxs]
  rfl

/-- **The same report once more changes nothing.** -/
theorem merge_again (owned : E → Bool) (xs : List E) :
    merge key owned (merge key owned m xs) xs = merge key owned m xs :=
  merge_eq_self (distinct_merge h owned xs) (fun _ hx => reported_mem_merge h hx)
    fun _ hy howned => mem_of_owned_merge h hy howned

end Report

end DcuDaemon.Lib.KeyedList
