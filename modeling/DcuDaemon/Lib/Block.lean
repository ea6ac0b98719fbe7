/-
  Arrays of a fixed size with checked writes.

  A write outside the array is `none`, so a program of writes is a chain in `Option` and is safe exactly
  where the chain is `some`. A copy of no cells writes nothing, wherever it points.

  * `store`, `write` -- one cell, and a run of cells; `store_eq_write`, `write_write`;
  * `Holds` -- what stands at a place: `holds_write`, `Holds.write`, `holds_append`.
-/
import Mathlib.Data.List.Basic

namespace DcuDaemon.Lib

open List Option

variable {α : Type} {size : Nat}

/-! ## 1. Writes -/

/-- An array of `size` cells. -/
@[ext] structure Block (α : Type) (size : Nat) where
  cells : List α
  length_cells : cells.length = size
  deriving DecidableEq

namespace Block

def fill (size : Nat) (v : α) : Block α size := ⟨List.replicate size v, List.length_replicate⟩

/-- `a[i] = v`. -/
def store (a : Block α size) (i : Int) (v : α) : Option (Block α size) :=
  if 0 ≤ i ∧ i < size then
    some ⟨a.cells.set i.toNat v, by rw [List.length_set, a.length_cells]⟩
  else none

/-- The cells with those from `offset` on replaced. -/
def overwrite (cells : List α) (offset : Nat) (vs : List α) : List α :=
  cells.take offset ++ vs ++ cells.drop (offset + vs.length)

/-- A copy that stays inside: of no cells, or of cells that all are there. -/
def Fits (size offset n : Nat) : Prop := n = 0 ∨ offset + n ≤ size

instance (size offset n : Nat) : Decidable (Fits size offset n) := inferInstanceAs (Decidable (_ ∨ _))

variable {cells vs src : List α} {offset : Nat} {a b : Block α size} {i : Int} {v : α}

theorem length_overwrite (h : cells.length = size)
    (hfit : Fits size offset vs.length) : (overwrite cells offset vs).length = size := by
  unfold Fits at hfit
  simp only [overwrite, length_append, length_take, length_drop, h]
  omega

/-- `memcpy(a + offset, vs, …)`. -/
def write (a : Block α size) (offset : Nat) (vs : List α) : Option (Block α size) :=
  if h : Fits size offset vs.length then
    some ⟨overwrite a.cells offset vs, length_overwrite a.length_cells h⟩
  else none

/-- `memmove(a + offset, src, n)`; a negative `n` is a size that no array has. -/
def copy (a : Block α size) (offset : Int) (src : List α) (n : Int) : Option (Block α size) :=
  if n = 0 then some a
  else if 0 < n ∧ 0 ≤ offset ∧ offset + n ≤ size then a.write offset.toNat (src.take n.toNat)
  else none

/-- `n` cells from `offset` on. -/
def slice (a : Block α size) (offset n : Nat) : List α := (a.cells.drop offset).take n

theorem getElem?_fill (v : α) (j : Nat) :
    (fill size v).cells[j]? = if j < size then some v else none := getElem?_replicate

theorem store_isSome : (a.store i v).isSome ↔ 0 ≤ i ∧ i < size := by
  unfold store
  by_cases h : 0 ≤ i ∧ i < size
  · simp [h]
  · simp [h]

theorem store_eq_some : a.store i v = some b ↔ (0 ≤ i ∧ i < size) ∧ b.cells = a.cells.set i.toNat v := by
  unfold store
  by_cases h : 0 ≤ i ∧ i < size
  · simp [h, Block.ext_iff, eq_comm]
  · simp [h]

theorem write_eq_some : a.write offset vs = some b ↔
      Fits size offset vs.length ∧ b.cells = overwrite a.cells offset vs := by
  unfold write
  by_cases h : Fits size offset vs.length
  · simp [h, Block.ext_iff, eq_comm]
  · simp [h]

theorem write_isSome : (a.write offset vs).isSome ↔ Fits size offset vs.length := by
  unfold write
  by_cases h : Fits size offset vs.length
  · simp [h]
  · simp [h]

@[simp] theorem write_nil (a : Block α size) (offset : Nat) : a.write offset [] = some a :=
  write_eq_some.mpr ⟨.inl rfl, by simp [overwrite]⟩

theorem copy_isSome {offset n : Int} :
    (a.copy offset src n).isSome ↔ n = 0 ∨ 0 < n ∧ 0 ≤ offset ∧ offset + n ≤ size := by
  unfold copy
  by_cases hzero : n = 0
  · simp [hzero]
  · rw [if_neg hzero]
    by_cases hfit : 0 < n ∧ 0 ≤ offset ∧ offset + n ≤ size
    · rw [if_pos hfit, write_isSome, Fits, length_take]
      exact iff_of_true (.inr (by omega)) (.inr hfit)
    · simp [hfit, hzero]

theorem copy_eq_write (a : Block α size) (offset : Nat) (h : vs <+: src)
    (hfit : offset + vs.length ≤ size) : a.copy offset src vs.length = a.write offset vs := by
  have htake : src.take vs.length = vs := (prefix_iff_eq_take.mp h).symm
  unfold copy
  by_cases hnil : (vs.length : Int) = 0
  · have hvs : vs = [] := eq_nil_of_length_eq_zero (by omega)
    rw [if_pos hnil, hvs, write_nil]
  · rw [if_neg hnil, if_pos (by omega), Int.toNat_natCast, Int.toNat_natCast, htake]

theorem store_eq_write (a : Block α size) (i : Nat) (v : α) : a.store i v = a.write i [v] := by
  ext b
  have hlen := a.length_cells
  rw [store_eq_some, write_eq_some, Int.toNat_natCast]
  have hfit : (0 ≤ (i : Int) ∧ (i : Int) < size) ↔ Fits size i [v].length := by
    simp only [Fits, length_singleton]
    omega
  rw [hfit]
  refine and_congr_right fun h => ?_
  simp only [Fits, length_singleton] at h
  rw [overwrite, set_eq_take_append_cons_drop, if_pos (by omega), append_assoc,
    singleton_append, length_singleton]

theorem take_overwrite (vs : List α) (h : offset ≤ cells.length) :
    (overwrite cells offset vs).take (offset + vs.length) = cells.take offset ++ vs := by
  exact take_left' (by simp [Nat.min_eq_left h])

theorem drop_overwrite (vs : List α) (h : offset ≤ cells.length) (n : Nat) :
    (overwrite cells offset vs).drop (offset + vs.length + n) = cells.drop (offset + vs.length + n) := by
  unfold overwrite
  rw [← drop_drop, drop_left' (by simp [Nat.min_eq_left h]), drop_drop]

theorem overwrite_overwrite (vs ws : List α) (h : vs = [] ∨ offset ≤ cells.length) :
    overwrite (overwrite cells offset vs) (offset + vs.length) ws = overwrite cells offset (vs ++ ws) := by
  rcases h with rfl | h
  · simp [overwrite]
  · rw [overwrite, take_overwrite vs h, drop_overwrite vs h]
    simp only [overwrite, append_assoc, length_append, Nat.add_assoc]

theorem fits_add (size offset n m : Nat) :
    Fits size offset (n + m) ↔ Fits size offset n ∧ Fits size (offset + n) m := by
  unfold Fits
  omega

/-- **Copies that follow one another are one copy.** -/
theorem write_write (a : Block α size) (offset : Nat) (vs ws : List α) :
    ((a.write offset vs).bind fun b => b.write (offset + vs.length) ws) = a.write offset (vs ++ ws) := by
  ext c
  rw [bind_eq_some_iff, write_eq_some, length_append, fits_add, and_assoc]
  have hstart : Fits size offset vs.length → vs = [] ∨ offset ≤ a.cells.length := by
    intro h
    rw [a.length_cells]
    rcases h with hnil | hle
    · exact .inl (eq_nil_of_length_eq_zero hnil)
    · exact .inr (by omega)
  constructor
  · intro ⟨b, hb, hc⟩
    obtain ⟨hfit, hb⟩ := write_eq_some.mp hb
    obtain ⟨hfit', hc⟩ := write_eq_some.mp hc
    rw [hb, overwrite_overwrite vs ws (hstart hfit)] at hc
    exact ⟨hfit, hfit', hc⟩
  · intro ⟨hfit, hfit', hc⟩
    refine ⟨⟨overwrite a.cells offset vs, length_overwrite a.length_cells hfit⟩,
      write_eq_some.mpr ⟨hfit, rfl⟩, write_eq_some.mpr ⟨hfit', ?_⟩⟩
    rw [hc, ← overwrite_overwrite vs ws (hstart hfit)]

end Block

/-! ## 2. What an array holds -/

namespace Block

/-- The cells from `offset` on are `vs`. -/
def Holds (a : Block α size) (offset : Nat) (vs : List α) : Prop :=
  ∀ i < vs.length, a.cells[offset + i]? = vs[i]?

variable {offset : Nat} {vs ws : List α} {a b : Block α size}

theorem getElem?_overwrite {cells : List α} (h : offset + vs.length ≤ cells.length) (j : Nat) :
    (overwrite cells offset vs)[j]? =
      if offset ≤ j ∧ j < offset + vs.length then vs[j - offset]? else cells[j]? := by
  have htake : (cells.take offset).length = offset := by simp; omega
  unfold overwrite
  rw [append_assoc]
  by_cases hlow : j < offset
  · rw [getElem?_append_left (by omega), getElem?_take_of_lt hlow, if_neg (by omega)]
  · rw [getElem?_append_right (by omega), htake]
    by_cases hmid : j < offset + vs.length
    · rw [getElem?_append_left (by omega), if_pos (by omega)]
    · rw [getElem?_append_right (by omega), getElem?_drop, if_neg (by omega)]
      congr 1
      omega

theorem fits_of_ne_nil (h : Fits size offset vs.length) (hne : vs ≠ []) : offset + vs.length ≤ size :=
  h.resolve_left fun hnil => hne (eq_nil_of_length_eq_zero hnil)

theorem getElem?_write (h : a.write offset vs = some b) (j : Nat) :
    b.cells[j]? = if offset ≤ j ∧ j < offset + vs.length then vs[j - offset]? else a.cells[j]? := by
  obtain ⟨hfit, hb⟩ := write_eq_some.mp h
  by_cases hnil : vs = []
  · subst hnil
    rw [hb, if_neg (by simp)]
    simp [overwrite]
  · rw [hb]
    refine getElem?_overwrite ?_ j
    rw [a.length_cells]
    exact fits_of_ne_nil hfit hnil

theorem getElem?_store {i : Int} {v : α} (h : a.store i v = some b) (j : Nat) :
    b.cells[j]? = if (j : Int) = i then some v else a.cells[j]? := by
  obtain ⟨hi, hb⟩ := store_eq_some.mp h
  have hlen := a.length_cells
  rw [hb, getElem?_set]
  by_cases hj : (j : Int) = i
  · rw [if_pos hj, if_pos (by omega), if_pos (by omega)]
  · rw [if_neg hj, if_neg (by omega)]

/-- **What was copied is there.** -/
theorem holds_write (h : a.write offset vs = some b) : b.Holds offset vs := by
  intro i hi
  rw [getElem?_write h, if_pos (by omega), Nat.add_sub_cancel_left]

/-- **Everything else is as before.** -/
theorem Holds.write {offset' : Nat} (hold : a.Holds offset' ws) (h : a.write offset vs = some b)
    (hapart : offset' + ws.length ≤ offset ∨ offset + vs.length ≤ offset') : b.Holds offset' ws := by
  intro i hi
  rw [getElem?_write h, if_neg (by omega)]
  exact hold i hi

theorem holds_append : a.Holds offset (vs ++ ws) ↔ a.Holds offset vs ∧ a.Holds (offset + vs.length) ws := by
  constructor
  · intro h
    refine ⟨fun i hi => ?_, fun i hi => ?_⟩
    · rw [h i (by simp; omega), List.getElem?_append_left hi]
    · rw [Nat.add_assoc, h (vs.length + i) (by simp; omega),
        List.getElem?_append_right (Nat.le_add_right _ _), Nat.add_sub_cancel_left]
  · intro ⟨hv, hw⟩ i hi
    rcases Nat.lt_or_ge i vs.length with hlt | hge
    · rw [hv i hlt, List.getElem?_append_left hlt]
    · have hlen : i - vs.length < ws.length := by
        rw [length_append] at hi
        omega
      rw [List.getElem?_append_right hge, ← hw _ hlen]
      congr 1
      omega

theorem getElem?_slice (a : Block α size) (offset n i : Nat) :
    (a.slice offset n)[i]? = if i < n then a.cells[offset + i]? else none := by
  unfold slice
  rw [getElem?_take, getElem?_drop]

theorem Holds.slice_eq (h : a.Holds offset vs) : a.slice offset vs.length = vs := by
  apply ext_getElem?
  intro i
  rw [getElem?_slice]
  split
  · exact h i (by assumption)
  · rw [getElem?_eq_none (by omega)]

theorem Holds.slice_drop (h : a.Holds offset vs)
    {i n : Nat} (hn : i + n ≤ vs.length) : a.slice (offset + i) n = (vs.drop i).take n := by
  apply ext_getElem?
  intro j
  rw [getElem?_slice, List.getElem?_take, List.getElem?_drop]
  split
  · rw [Nat.add_assoc, h (i + j) (by omega)]
  · rfl

theorem Holds.prefix_drop (h : a.Holds offset vs) : vs <+: a.cells.drop offset := by
  rw [prefix_iff_eq_take]
  exact h.slice_eq.symm

end Block

/-! ## 3. Filling an array from the front -/

/-- An array and the place of the next cell. -/
structure Cursor (α : Type) (size : Nat) where
  block : Block α size
  len : Nat

namespace Cursor

/-- `a[len++] = v`. -/
def put (c : Cursor α size) (v : α) : Option (Cursor α size) :=
  (c.block.store c.len v).map fun block => ⟨block, c.len + 1⟩

def putAll (c : Cursor α size) (vs : List α) : Option (Cursor α size) := vs.foldlM put c

theorem putAll_cons (c : Cursor α size) (v : α) (vs : List α) :
    c.putAll (v :: vs) = (c.put v).bind fun c' => c'.putAll vs := rfl

@[simp] theorem putAll_singleton (c : Cursor α size) (v : α) : c.putAll [v] = c.put v := bind_fun_some _

theorem putAll_append (c : Cursor α size) (vs ws : List α) :
    c.putAll (vs ++ ws) = (c.putAll vs).bind fun c' => c'.putAll ws :=
  foldlM_append ..

/-- **Cells that are put one after another are one copy.** -/
theorem putAll_eq (c : Cursor α size) (vs : List α) :
    c.putAll vs = (c.block.write c.len vs).map fun block => ⟨block, c.len + vs.length⟩ := by
  induction vs generalizing c with
  | nil =>
    rw [Block.write_nil]
    rfl
  | cons v vs ih =>
    have hjoin : c.block.write c.len (v :: vs) =
        (c.block.write c.len [v]).bind fun b => b.write (c.len + 1) vs :=
      (Block.write_write c.block c.len [v] vs).symm
    rw [putAll_cons, put, Block.store_eq_write, hjoin]
    cases c.block.write c.len [v] with
    | none => rfl
    | some b =>
      simp only [map_some, bind_some, ih, length_cons, Nat.add_assoc, Nat.add_comm vs.length]

end Cursor

end DcuDaemon.Lib
