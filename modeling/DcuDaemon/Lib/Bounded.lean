/-
  Bounded memories of unbounded sequences: a queue of at most `n` elements that drops its oldest one,
  and sums that stop at a greatest value.

  * `pushBounded_lastN` -- such a queue holds the last elements of the sequence;
  * `min_add_min` -- a sum that stopped once stays where it is.
-/
import Mathlib.Data.List.Basic

namespace DcuDaemon.Lib

open List

variable {α β : Type}

/-- The last at most `n` elements. -/
def lastN (n : Nat) (xs : List α) : List α := xs.drop (xs.length - n)

/-- A queue of at most `n` elements takes one more. -/
def pushBounded (n : Nat) (q : List α) (x : α) : List α := (if q.length ≥ n then q.tail else q) ++ [x]

theorem length_lastN (n : Nat) (xs : List α) : (lastN n xs).length = min n xs.length := by
  rw [lastN, length_drop]
  omega

theorem map_lastN (f : α → β) (n : Nat) (xs : List α) : (lastN n xs).map f = lastN n (xs.map f) := by
  rw [lastN, lastN, map_drop, length_map]

/-- **The queue holds the last elements of what it was given.** -/
theorem pushBounded_lastN {n : Nat} (hn : 0 < n) (xs : List α) (x : α) :
    pushBounded n (lastN n xs) x = lastN n (xs ++ [x]) := by
  have hlast : lastN n (xs ++ [x]) = xs.drop (xs.length + 1 - n) ++ [x] := by
    rw [lastN, length_append, length_singleton, drop_append_of_le_length (by omega)]
  rw [hlast, pushBounded, length_lastN]
  congr 1
  split
  · rw [lastN, tail_drop]
    congr 1
    omega
  · rw [lastN]
    congr 1
    omega

theorem min_add_min (a b limit : Nat) : min (min a limit + b) limit = min (a + b) limit := by
  omega

end DcuDaemon.Lib
