/-
  Circular arrays: the cells from a start on, around the end of the array.

  * `window` -- `count` cells of an array of `cap` cells, from `start` on;
  * `window_add`, `take_window`, `drop_window` -- windows in two parts.
-/
import Mathlib.Data.Nat.ModEq
import Mathlib.Logic.Function.Basic

namespace DcuDaemon.Lib.Circular

open List

variable {α : Type}

/-- The cells from `start` on, in an array of `cap` cells. -/
def window (cell : Nat → α) (cap start count : Nat) : List α :=
  (List.range count).map fun i => cell ((start + i) % cap)

section Window

variable {cell cell' : Nat → α} {cap start count : Nat}

@[simp] theorem length_window : (window cell cap start count).length = count := by
  rw [window, length_map, length_range]

variable {i n j : Nat}

theorem getElem?_window (h : i < count) :
    (window cell cap start count)[i]? = some (cell ((start + i) % cap)) := by
  rw [window, getElem?_map, getElem?_range h, Option.map_some]

theorem window_mod : window cell cap (start % cap) count = window cell cap start count := by
  unfold window
  simp only [Nat.mod_add_mod]

theorem window_add (n : Nat) :
    window cell cap start (count + n) = window cell cap start count ++ window cell cap (start + count) n := by
  unfold window
  rw [range_add, map_append, map_map]
  simp only [Function.comp_def, add_assoc]

theorem window_succ :
    window cell cap start (count + 1) = cell (start % cap) :: window cell cap (start + 1) count := by
  rw [add_comm, window_add]
  rfl

theorem window_concat : window cell cap start (count + 1) =
      window cell cap start count ++ [cell ((start + count) % cap)] := window_add 1

theorem take_window (h : n ≤ count) : (window cell cap start count).take n = window cell cap start n := by
  obtain ⟨m, rfl⟩ := Nat.exists_eq_add_of_le h
  rw [window_add]
  exact take_left' length_window

theorem drop_window (h : n ≤ count) :
    (window cell cap start count).drop n = window cell cap (start + n) (count - n) := by
  obtain ⟨m, rfl⟩ := Nat.exists_eq_add_of_le h
  rw [window_add, Nat.add_sub_cancel_left]
  exact drop_left' length_window

theorem window_congr (h : ∀ i < count, cell' ((start + i) % cap) = cell ((start + i) % cap)) :
    window cell' cap start count = window cell cap start count :=
  map_congr_left fun i hi => h i (mem_range.mp hi)

theorem index_ne (start : Nat) (hi : i < cap) (hj : j < cap) (h : i ≠ j) :
    (start + i) % cap ≠ (start + j) % cap := fun e =>
  h ((Nat.ModEq.add_left_cancel' start e).eq_of_lt_of_lt hi hj)

theorem index_eq_iff (hi : 0 < i) (hij : i ≤ j) (hj : j ≤ cap) :
    (start + i) % cap = (start + j) % cap ↔ i = j := by
  refine ⟨fun e => Classical.byContradiction fun hne => ?_, fun e => by rw [e]⟩
  have hi' : start + i = start + 1 + (i - 1) := by omega
  have hj' : start + j = start + 1 + (j - 1) := by omega
  rw [hi', hj'] at e
  exact index_ne (start + 1) (by omega) (by omega) (by omega) e

theorem index_succ (h : 0 < cap) :
    (if start % cap + 1 = cap then 0 else start % cap + 1) = (start + 1) % cap := by
  have hlt := Nat.mod_lt start h
  rw [← Nat.mod_add_mod]
  split
  · rename_i e
    rw [e, Nat.mod_self]
  · exact (Nat.mod_eq_of_lt (by omega)).symm

theorem index_pred (h : 0 < cap) :
    (if (start + 1) % cap = 0 then cap - 1 else (start + 1) % cap - 1) = start % cap := by
  rw [← index_succ h]
  by_cases e : start % cap + 1 = cap
  · rw [if_pos e, if_pos rfl]
    omega
  · rw [if_neg e, if_neg (Nat.succ_ne_zero _), Nat.add_sub_cancel]

theorem window_update_outside (hj : j < cap) (h : count ≤ j) (v : α) :
    window (Function.update cell ((start + j) % cap) v) cap start count = window cell cap start count :=
  window_congr fun i hi =>
    Function.update_of_ne (index_ne start (lt_trans (lt_of_lt_of_le hi h) hj) hj (by omega)) _ _

/-- **A write behind the window** makes it longer. -/
theorem window_update_next (h : count < cap) (v : α) :
    window (Function.update cell ((start + count) % cap) v) cap start (count + 1) =
      window cell cap start count ++ [v] := by
  rw [window_concat, window_update_outside h le_rfl, Function.update_self]

/-- **A write in a full array** takes the place of the first element. -/
theorem window_update_full (cell : Nat → α) (start : Nat) (h : 0 < cap) (v : α) :
    window (Function.update cell (start % cap) v) cap (start + 1) cap =
      (window cell cap start cap).tail ++ [v] := by
  obtain ⟨n, rfl⟩ := Nat.exists_eq_succ_of_ne_zero (Nat.ne_of_gt h)
  have hlast : (start + 1 + n) % (n + 1) = start % (n + 1) := by
    rw [Nat.add_assoc, Nat.add_comm 1 n, Nat.add_mod_right]
  have hnext : window (Function.update cell ((start + 1 + n) % (n + 1)) v) (n + 1) (start + 1) (n + 1) =
      window cell (n + 1) (start + 1) n ++ [v] := window_update_next (Nat.lt_succ_self n) v
  rw [hlast] at hnext
  rw [Nat.succ_eq_add_one, hnext, window_succ, tail_cons]

theorem window_contiguous (h : start + count ≤ cap) :
    window cell cap start count = (range count).map fun i => cell (start + i) :=
  map_congr_left fun i hi => by
    rw [Nat.mod_eq_of_lt (lt_of_lt_of_le (Nat.add_lt_add_left (mem_range.mp hi) start) h)]

end Window

end DcuDaemon.Lib.Circular
