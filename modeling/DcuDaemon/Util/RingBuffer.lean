/-
  The ring buffer of the C++ daemon (`src/util/RingBuffer.h`).

  Read and write index are the same both when the buffer is empty and when it is full; the count tells
  the two apart. Two members do not look at it: `size_of_data_ptr`, and the end of `pop`, which moves
  both indices to 0 wherever they meet.

  Main result: `ring_buffer_is_queue_iff`.
-/
import DcuDaemon.Lib.Circular
import DcuDaemon.Lib.Run

namespace DcuDaemon.Util

open Lib List Function Circular

/-! ## 1. The buffer -/

/-- `RingBuffer<T, I>`; the cells of `mBuffer` are those below `I`. -/
structure RingBuffer (α : Type) where
  readIdx : Nat
  writeIdx : Nat
  count : Nat
  buffer : Nat → α

namespace RingBuffer

section Buffer

variable {α : Type} (N : Nat) (b : RingBuffer α)

/-- The constructor, with whatever the cells hold. -/
def new (cells : Nat → α) : RingBuffer α := ⟨0, 0, 0, cells⟩

def clear : RingBuffer α := { b with readIdx := 0, writeIdx := 0, count := 0 }

def size : Nat := b.count

def spaceAvailable : Nat := N - b.count

def empty : Bool := b.count == 0

def full : Bool := b.count == N

def sizeOfDataPtr : Nat :=
  if b.writeIdx ≥ b.readIdx then b.writeIdx - b.readIdx else N - b.readIdx

/-- What `data_ptr` points to, for as long as `size_of_data_ptr` says. -/
def data : List α := (List.range (b.sizeOfDataPtr N)).map fun i => b.buffer (b.readIdx + i)

/-- One round of `push`. -/
def put (v : α) : RingBuffer α :=
  { b with
    buffer := update b.buffer b.writeIdx v
    writeIdx := (b.writeIdx + 1) % N
    count := b.count + 1 }

/-- One round of `pop`. -/
def skip : RingBuffer α := { b with readIdx := (b.readIdx + 1) % N, count := b.count - 1 }

/-- `push`: without room for all values it throws. -/
def push (values : List α) : Option (RingBuffer α) :=
  if b.spaceAvailable N < values.length then none else some (values.foldl (put N) b)

/-- The loop of `pop`. -/
def skips : Nat → RingBuffer α → RingBuffer α
  | 0, b => b
  | n + 1, b => skips n (b.skip N)

/-- `pop`: where the indices meet they are moved to 0. -/
def pop (valueCount : Nat) : Nat × RingBuffer α :=
  let n := if b.size < valueCount then b.size else valueCount
  let b := skips N n b
  (n, if b.readIdx = b.writeIdx then { b with readIdx := 0, writeIdx := 0 } else b)

/-- The loop of `pull`. -/
def pullLoop : Nat → RingBuffer α → List α × RingBuffer α
  | 0, b => ([], b)
  | n + 1, b =>
    let (values, b') := pullLoop n (b.skip N)
    (b.buffer b.readIdx :: values, b')

/-- `pull`: the number of values, and the values. -/
def pull (valueCount : Nat) : Nat × List α × RingBuffer α :=
  let n := if b.size < valueCount then b.size else valueCount
  (n, pullLoop N n b)

def front : Option α := if b.count = 0 then none else some (b.buffer b.readIdx)

/-- Where `back` points to. -/
def backIdx : Nat := if b.writeIdx = 0 then N - 1 else b.writeIdx - 1

def back : Option α := if b.count = 0 then none else some (b.buffer (b.backIdx N))

def write (v : α) : Bool × RingBuffer α := if b.count = N then (false, b) else (true, b.put N v)

def forceWrite (v : α) : RingBuffer α :=
  let writeIdx := (b.writeIdx + 1) % N
  let buffer := update b.buffer b.writeIdx v
  if b.count = N then { b with buffer, writeIdx, readIdx := writeIdx }
  else { b with buffer, writeIdx, count := b.count + 1 }

def remove : Bool × RingBuffer α := if b.count = 0 then (false, b) else (true, b.skip N)

/-- `Iterator::advance`; `none` is the null pointer. -/
def advance (p : Nat) : Option Nat :=
  let p := if p + 1 = N then 0 else p + 1
  if p = b.writeIdx then none else some p

/-- `ReverseIterator::advance`. -/
def advanceBack (p : Nat) : Option Nat :=
  if p = b.readIdx then none else some (if p = 0 then N - 1 else p - 1)

/-- The elements that an iterator comes to; `none` if it does not reach the end by then. -/
def traverse (next : Nat → Option Nat) : Nat → Option Nat → Option (List α)
  | _, none => some []
  | 0, some _ => none
  | fuel + 1, some p => (traverse next fuel (next p)).map (b.buffer p :: ·)

/-- From `begin` to `end`. -/
def forward (fuel : Nat) : Option (List α) :=
  b.traverse (b.advance N) fuel (if b.count = 0 then none else some b.readIdx)

/-- From `rbegin` to `rend`. -/
def backward (fuel : Nat) : Option (List α) :=
  b.traverse (b.advanceBack N) fuel (if b.count = 0 then none else some (b.backIdx N))

end Buffer

/-! ## 2. The bounded queue -/

inductive Op (α : Type) where
  | push (values : List α)
  | pop (valueCount : Nat)
  | pull (valueCount : Nat)
  | write (v : α)
  | forceWrite (v : α)
  | remove
  | clear

inductive Result (α : Type) where
  | pushed (thrown : Bool)
  | popped (count : Nat)
  | pulled (count : Nat) (values : List α)
  | succeeded (ok : Bool)
  | nothing

section Steps

variable {α : Type} (N : Nat)

def step (b : RingBuffer α) : Op α → RingBuffer α × Result α
  | .push values =>
    match b.push N values with
    | none => (b, .pushed true)
    | some b' => (b', .pushed false)
  | .pop n => ((b.pop N n).2, .popped (b.pop N n).1)
  | .pull n => ((b.pull N n).2.2, .pulled (b.pull N n).1 (b.pull N n).2.1)
  | .write v => ((b.write N v).2, .succeeded (b.write N v).1)
  | .forceWrite v => (b.forceWrite N v, .nothing)
  | .remove => ((b.remove N).2, .succeeded (b.remove N).1)
  | .clear => (b.clear, .nothing)

/-- A queue of at most `N` elements. -/
def queueStep (q : List α) : Op α → List α × Result α
  | .push values =>
    if q.length + values.length ≤ N then (q ++ values, .pushed false) else (q, .pushed true)
  | .pop n => (q.drop n, .popped (min n q.length))
  | .pull n => (q.drop n, .pulled (min n q.length) (q.take n))
  | .write v => if q.length < N then (q ++ [v], .succeeded true) else (q, .succeeded false)
  | .forceWrite v => (if q.length < N then q ++ [v] else q.tail ++ [v], .nothing)
  | .remove => (q.tail, .succeeded (!q.isEmpty))
  | .clear => ([], .nothing)

end Steps

/-- **The buffer shows the queue**: counts, both ends, both iterators, and the data pointer. -/
structure Agrees {α : Type} (N : Nat) (b : RingBuffer α) (q : List α) : Prop where
  size : b.size = q.length
  spaceAvailable : b.spaceAvailable N = N - q.length
  empty : b.empty = q.isEmpty
  full : b.full N = decide (q.length = N)
  front : b.front = q.head?
  back : b.back N = q.getLast?
  forward : ∃ n, ∀ fuel, n ≤ fuel → b.forward N fuel = some q
  backward : ∃ n, ∀ fuel, n ≤ fuel → b.backward N fuel = some q.reverse
  /-- The data pointer stays inside the array. -/
  inside : b.readIdx + b.sizeOfDataPtr N ≤ N
  data : q ≠ [] → b.data N ≠ [] ∧ b.data N <+: q

structure Rep {α : Type} (N : Nat) (b : RingBuffer α) (q : List α) : Prop where
  readIdx : b.readIdx < N
  writeIdx : b.writeIdx = (b.readIdx + b.count) % N
  count : b.count ≤ N
  contents : Circular.window b.buffer N b.readIdx b.count = q

/-! ## 3. Operations -/

section Operations

variable {α : Type} {N : Nat} {b : RingBuffer α} {q : List α}

theorem Rep.length (h : Rep N b q) : q.length = b.count := by
  rw [← h.contents, length_window]

theorem rep_new (hN : 0 < N) (cells : Nat → α) : Rep N (new cells) [] :=
  ⟨hN, (Nat.zero_mod N).symm, Nat.zero_le N, rfl⟩

theorem rep_clear (h : Rep N b q) : Rep N b.clear [] := rep_new (Nat.zero_lt_of_lt h.readIdx) b.buffer

theorem rep_put (h : Rep N b q) (hroom : q.length < N) (v : α) : Rep N (b.put N v) (q ++ [v]) := by
  rw [h.length] at hroom
  refine ⟨h.readIdx, ?_, hroom, ?_⟩
  · show (b.writeIdx + 1) % N = _
    rw [h.writeIdx, Nat.mod_add_mod]
    rfl
  · show window (update b.buffer b.writeIdx v) N b.readIdx (b.count + 1) = _
    rw [h.writeIdx, window_update_next hroom, h.contents]

theorem rep_puts {values : List α} (h : Rep N b q) (hroom : q.length + values.length ≤ N) :
    Rep N (values.foldl (put N) b) (q ++ values) := by
  induction values generalizing b q with
  | nil =>
    rw [append_nil]
    exact h
  | cons v values ih =>
    rw [length_cons] at hroom
    have hput := rep_put h (by omega) v
    have hrest := ih hput (by rw [length_append, length_singleton]; omega)
    rwa [append_assoc] at hrest

theorem rep_skip {x : α} (h : Rep N b (x :: q)) : b.buffer b.readIdx = x ∧ Rep N (b.skip N) q := by
  have hlen := h.length
  rw [length_cons] at hlen
  have hcontents := h.contents
  rw [← hlen, window_succ, Nat.mod_eq_of_lt h.readIdx, cons.injEq] at hcontents
  obtain ⟨hx, hq⟩ := hcontents
  have hcount := h.count
  have hN : 0 < N := Nat.zero_lt_of_lt h.readIdx
  refine ⟨hx, Nat.mod_lt _ hN, ?_, by show b.count - 1 ≤ N; omega, ?_⟩
  · show b.writeIdx = ((b.readIdx + 1) % N + (b.count - 1)) % N
    rw [h.writeIdx, Nat.mod_add_mod, ← hlen, Nat.add_sub_cancel, add_assoc, add_comm 1]
  · show window b.buffer N ((b.readIdx + 1) % N) (b.count - 1) = q
    rw [window_mod, ← hlen]
    exact hq

variable {n : Nat}

theorem rep_skips (h : Rep N b q) (hn : n ≤ q.length) : Rep N (skips N n b) (q.drop n) := by
  induction n generalizing b q with
  | zero => exact h
  | succ n ih =>
    cases q with
    | nil => exact absurd hn (Nat.not_succ_le_zero n)
    | cons x q => exact ih (rep_skip h).2 (Nat.le_of_succ_le_succ hn)

theorem pullLoop_eq (h : Rep N b q) (hn : n ≤ q.length) : pullLoop N n b = (q.take n, skips N n b) := by
  induction n generalizing b q with
  | zero => rfl
  | succ n ih =>
    cases q with
    | nil => exact absurd hn (Nat.not_succ_le_zero n)
    | cons x q =>
      obtain ⟨hx, hrest⟩ := rep_skip h
      rw [pullLoop, ih hrest (Nat.le_of_succ_le_succ hn), hx]
      rfl

theorem Rep.eq_nil (h : Rep N b q) (hfull : q.length < N) (hmeet : b.readIdx = b.writeIdx) : q = [] := by
  rw [h.length] at hfull
  refine eq_nil_of_length_eq_zero (h.length.trans (Classical.byContradiction fun hne => ?_))
  have hN : 0 < N := Nat.zero_lt_of_lt hfull
  refine index_ne b.readIdx hN hfull (Ne.symm hne) ?_
  rw [← h.writeIdx, ← hmeet, add_zero, Nat.mod_eq_of_lt h.readIdx]

theorem Rep.taken (h : Rep N b q) (n : Nat) : (if b.size < n then b.size else n) = min n q.length := by
  rw [h.length, size]
  split
  · omega
  · omega

theorem drop_min_length (q : List α) (n : Nat) : q.drop (min n q.length) = q.drop n := by
  rcases Nat.le_total n q.length with hle | hle
  · rw [min_eq_left hle]
  · rw [min_eq_right hle, drop_length, drop_of_length_le hle]

/-- **`pop`**, unless nothing is taken from a full buffer. -/
theorem rep_pop (h : Rep N b q) (hok : n = 0 → q.length < N) :
    (b.pop N n).1 = min n q.length ∧ Rep N (b.pop N n).2 (q.drop n) := by
  have hskips := rep_skips h (Nat.min_le_right n q.length)
  have hN : 0 < N := Nat.zero_lt_of_lt h.readIdx
  unfold pop
  dsimp only
  rw [h.taken n]
  refine ⟨rfl, ?_⟩
  rw [drop_min_length] at hskips
  split
  · rename_i hmeet
    have hcount : q.length ≤ N := h.length ▸ h.count
    have hshort : (q.drop n).length < N := by
      rw [length_drop]
      rcases Nat.eq_zero_or_pos n with hn | hn
      · omega
      · omega
    have hnil := hskips.eq_nil hshort hmeet
    rw [hnil] at hskips ⊢
    refine ⟨hN, ?_, hskips.count, ?_⟩
    · show 0 = (0 + (skips N (min n q.length) b).count) % N
      rw [← hskips.length]
      exact (Nat.zero_mod N).symm
    · show window _ N 0 (skips N (min n q.length) b).count = []
      rw [← hskips.length]
      rfl
  · exact hskips

theorem rep_pull (h : Rep N b q) (n : Nat) :
    (b.pull N n).1 = min n q.length ∧ (b.pull N n).2.1 = q.take n ∧ Rep N (b.pull N n).2.2 (q.drop n) := by
  have hmin := Nat.min_le_right n q.length
  unfold pull
  dsimp only
  rw [h.taken n, pullLoop_eq h hmin]
  refine ⟨rfl, ?_, ?_⟩
  · exact take_eq_take_min.symm
  · have hskips := rep_skips h hmin
    rwa [drop_min_length] at hskips

theorem rep_forceWrite (h : Rep N b q) (v : α) :
    Rep N (b.forceWrite N v) (if q.length < N then q ++ [v] else q.tail ++ [v]) := by
  have hcount := h.count
  have hN : 0 < N := Nat.zero_lt_of_lt h.readIdx
  unfold forceWrite
  rw [h.length]
  split
  · rename_i hfull
    have hwrite : b.writeIdx = b.readIdx := by
      rw [h.writeIdx, hfull, Nat.add_mod_right, Nat.mod_eq_of_lt h.readIdx]
    rw [if_neg (by omega), hwrite]
    refine ⟨Nat.mod_lt _ hN, ?_, hcount, ?_⟩
    · show (b.readIdx + 1) % N = ((b.readIdx + 1) % N + b.count) % N
      rw [hfull, Nat.add_mod_right, Nat.mod_mod]
    · show window (update b.buffer b.readIdx v) N ((b.readIdx + 1) % N) b.count = _
      have hupdate := window_update_full b.buffer b.readIdx hN v
      have hcontents := h.contents
      rw [Nat.mod_eq_of_lt h.readIdx] at hupdate
      rw [hfull] at hcontents
      rw [window_mod, hfull, hupdate, hcontents]
  · have hroom : b.count < N := by omega
    rw [if_pos hroom]
    exact rep_put h (by rwa [h.length]) v

/-- **One operation** does to the buffer what it does to the queue, unless nothing is popped from a full
    buffer. -/
theorem rep_step (h : Rep N b q) (op : Op α) (hok : op = .pop 0 → q.length < N) :
    (b.step N op).2 = (queueStep N q op).2 ∧ Rep N (b.step N op).1 (queueStep N q op).1 := by
  have hlen := h.length
  have hcount := h.count
  cases op with
  | push values =>
    rw [step, queueStep, push, spaceAvailable]
    by_cases hroom : q.length + values.length ≤ N
    · rw [if_neg (by omega), if_pos hroom]
      exact ⟨rfl, rep_puts h hroom⟩
    · rw [if_pos (by omega), if_neg hroom]
      exact ⟨rfl, h⟩
  | pop n =>
    obtain ⟨hn, hrep⟩ := rep_pop h fun e => hok (congrArg Op.pop e)
    exact ⟨congrArg Result.popped hn, hrep⟩
  | pull n =>
    obtain ⟨hn, hvalues, hrep⟩ := rep_pull h n
    exact ⟨congrArg₂ Result.pulled hn hvalues, hrep⟩
  | write v =>
    rw [step, queueStep, write]
    by_cases hroom : q.length < N
    · rw [if_neg (by omega), if_pos hroom]
      exact ⟨rfl, rep_put h hroom v⟩
    · rw [if_pos (by omega), if_neg hroom]
      exact ⟨rfl, h⟩
  | forceWrite v => exact ⟨rfl, rep_forceWrite h v⟩
  | remove =>
    rw [step, remove]
    cases q with
    | nil =>
      have hzero : b.count = 0 := hlen.symm
      rw [if_pos hzero]
      exact ⟨rfl, h⟩
    | cons x q =>
      have hsucc : b.count ≠ 0 := hlen ▸ Nat.succ_ne_zero _
      rw [if_neg hsucc]
      exact ⟨rfl, (rep_skip h).2⟩
  | clear => exact ⟨rfl, rep_clear h⟩

end Operations

/-! ## 4. What the buffer shows -/

section Shown

variable {α : Type} {N : Nat} {b : RingBuffer α} {q : List α}

variable (h : Rep N b q)

include h

theorem front_eq : b.front = q.head? := by
  unfold front
  cases q with
  | nil =>
    have hzero : b.count = 0 := h.length.symm
    rw [if_pos hzero, head?_nil]
  | cons x q =>
    have hsucc : b.count ≠ 0 := h.length ▸ Nat.succ_ne_zero _
    rw [if_neg hsucc, (rep_skip h).1, head?_cons]

variable {n i fuel : Nat}

theorem backIdx_eq (hn : b.count = n + 1) : b.backIdx N = (b.readIdx + n) % N := by
  unfold backIdx
  rw [h.writeIdx, hn]
  exact index_pred (Nat.zero_lt_of_lt h.readIdx)

theorem back_eq : b.back N = q.getLast? := by
  unfold back
  cases hn : b.count with
  | zero =>
    rw [if_pos rfl, eq_nil_of_length_eq_zero (h.length.trans hn), getLast?_nil]
  | succ n =>
    have hcontents := h.contents
    rw [hn, window_concat] at hcontents
    rw [if_neg (Nat.succ_ne_zero n), backIdx_eq h hn, ← hcontents, getLast?_concat]

theorem advance_eq (hi : i < b.count) :
    b.advance N ((b.readIdx + i) % N) =
      if i + 1 = b.count then none else some ((b.readIdx + (i + 1)) % N) := by
  unfold advance
  rw [index_succ (Nat.zero_lt_of_lt h.readIdx), h.writeIdx]
  exact if_congr (index_eq_iff (Nat.succ_pos i) hi h.count) rfl rfl

theorem traverse_advance (hi : i + (n + 1) = b.count) (hfuel : n < fuel) :
    b.traverse (b.advance N) fuel (some ((b.readIdx + i) % N)) =
      some (window b.buffer N (b.readIdx + i) (n + 1)) := by
  induction n generalizing i fuel with
  | zero =>
    obtain ⟨fuel, rfl⟩ := Nat.exists_eq_succ_of_ne_zero (ne_of_gt hfuel)
    rw [traverse, advance_eq h (by omega), if_pos hi, traverse]
    rfl
  | succ n ih =>
    obtain ⟨fuel, rfl⟩ := Nat.exists_eq_succ_of_ne_zero (ne_of_gt (Nat.zero_lt_of_lt hfuel))
    rw [traverse, advance_eq h (by omega), if_neg (by omega), ih (by omega) (by omega)]
    exact congrArg some window_succ.symm

theorem forward_eq (hfuel : q.length ≤ fuel) : b.forward N fuel = some q := by
  rw [h.length] at hfuel
  unfold forward
  cases hn : b.count with
  | zero =>
    rw [if_pos rfl, eq_nil_of_length_eq_zero (h.length.trans hn), traverse]
  | succ n =>
    have hall := traverse_advance h (i := 0) (by omega) (show n < fuel by omega)
    rw [add_zero, Nat.mod_eq_of_lt h.readIdx, ← hn, h.contents] at hall
    rw [if_neg (Nat.succ_ne_zero n), hall]

theorem advanceBack_eq (hi : i + 1 < N) :
    b.advanceBack N ((b.readIdx + (i + 1)) % N) = some ((b.readIdx + i) % N) := by
  have hne : (b.readIdx + (i + 1)) % N ≠ b.readIdx := by
    have hfirst := index_ne b.readIdx hi (Nat.zero_lt_of_lt hi) (Nat.succ_ne_zero i)
    rwa [add_zero b.readIdx, Nat.mod_eq_of_lt h.readIdx] at hfirst
  unfold advanceBack
  rw [if_neg hne, ← add_assoc, index_pred (Nat.zero_lt_of_lt h.readIdx)]

theorem traverse_advanceBack (hn : n < N) (hfuel : n < fuel) :
    b.traverse (b.advanceBack N) fuel (some ((b.readIdx + n) % N)) =
      some (window b.buffer N b.readIdx (n + 1)).reverse := by
  induction n generalizing fuel with
  | zero =>
    obtain ⟨fuel, rfl⟩ := Nat.exists_eq_succ_of_ne_zero (ne_of_gt hfuel)
    have hlast : b.advanceBack N b.readIdx = none := if_pos rfl
    rw [add_zero, Nat.mod_eq_of_lt h.readIdx, traverse, hlast, traverse, window_succ,
      Nat.mod_eq_of_lt h.readIdx]
    rfl
  | succ n ih =>
    obtain ⟨fuel, rfl⟩ := Nat.exists_eq_succ_of_ne_zero (ne_of_gt (Nat.zero_lt_of_lt hfuel))
    rw [traverse, advanceBack_eq h hn, ih (by omega) (by omega), Option.map_some]
    have hconcat : window b.buffer N b.readIdx (n + 1 + 1) =
        window b.buffer N b.readIdx (n + 1) ++ [b.buffer ((b.readIdx + (n + 1)) % N)] :=
      window_concat
    rw [hconcat, reverse_concat]

theorem backward_eq (hfuel : q.length ≤ fuel) : b.backward N fuel = some q.reverse := by
  have hcount := h.count
  rw [h.length] at hfuel
  unfold backward
  cases hn : b.count with
  | zero =>
    rw [if_pos rfl, eq_nil_of_length_eq_zero (h.length.trans hn), traverse, reverse_nil]
  | succ n =>
    have hall := traverse_advanceBack h (show n < N by omega) (show n < fuel by omega)
    rw [← hn, h.contents] at hall
    rw [if_neg (Nat.succ_ne_zero n), backIdx_eq h hn, hall]

theorem data_eq (hfull : q.length < N) :
    b.sizeOfDataPtr N = min q.length (N - b.readIdx) ∧ b.data N = q.take (N - b.readIdx) := by
  have hread := h.readIdx
  have hlen := h.length
  have hsize : b.sizeOfDataPtr N = min q.length (N - b.readIdx) := by
    unfold sizeOfDataPtr
    rw [h.writeIdx]
    rcases lt_or_ge (b.readIdx + b.count) N with hlt | hge
    · rw [Nat.mod_eq_of_lt hlt, if_pos (by omega)]
      omega
    · rw [Nat.mod_eq_sub_mod hge, Nat.mod_eq_of_lt (by omega), if_neg (by omega)]
      omega
  refine ⟨hsize, ?_⟩
  have hmin : min q.length (N - b.readIdx) ≤ b.count := by omega
  have htake : q.take (min q.length (N - b.readIdx)) = window b.buffer N b.readIdx _ :=
    h.contents ▸ take_window hmin
  rw [window_contiguous (by omega)] at htake
  unfold data
  rw [hsize, ← htake, Nat.min_comm]
  exact take_eq_take_min.symm

/-- **A buffer that holds a queue shows it, unless it is full**: then the data pointer is said to have
    nothing behind it. -/
theorem agrees_iff : Agrees N b q ↔ q.length < N := by
  have hlen := h.length
  have hcount := h.count
  have hread := h.readIdx
  constructor
  · intro hagrees
    refine Classical.byContradiction fun hfull => ?_
    have hne : q ≠ [] := fun e => hfull (by rw [e]; exact Nat.zero_lt_of_lt h.readIdx)
    have hmeet : b.writeIdx = b.readIdx := by
      rw [h.writeIdx, show b.count = N by omega, Nat.add_mod_right, Nat.mod_eq_of_lt h.readIdx]
    refine (hagrees.data hne).1 ?_
    unfold data sizeOfDataPtr
    rw [hmeet, if_pos (Nat.le_refl _), Nat.sub_self]
    rfl
  · intro hfull
    obtain ⟨hsize, hdata⟩ := data_eq h hfull
    exact {
      size := hlen.symm
      spaceAvailable := by rw [hlen]; rfl
      empty := by
        rw [RingBuffer.empty, ← hlen]
        cases q with
        | nil => rfl
        | cons x q => rfl
      full := by rw [hlen]; rfl
      front := front_eq h
      back := back_eq h
      forward := ⟨q.length, fun _ hfuel => forward_eq h hfuel⟩
      backward := ⟨q.length, fun _ hfuel => backward_eq h hfuel⟩
      inside := by omega
      data := by
        intro hne
        rw [hdata]
        refine ⟨fun e => ?_, take_prefix _ _⟩
        rcases take_eq_nil_iff.mp e with h₀ | h₀
        · omega
        · exact hne h₀ }

end Shown

/-! ## 5. Runs -/

section Runs

variable {α : Type} (N : Nat)

/-- The buffer and the queue, side by side. -/
def bothStep (s : RingBuffer α × List α) (op : Op α) : RingBuffer α × List α :=
  ((s.1.step N op).1, (queueStep N s.2 op).1)

/-- The operation returns what it does on the queue, and the buffer shows the queue afterwards. -/
def Alike (s : RingBuffer α × List α) (op : Op α) : Prop :=
  (s.1.step N op).2 = (queueStep N s.2 op).2 ∧ Agrees N (s.1.step N op).1 (queueStep N s.2 op).1

/-- The queue is not full afterwards. -/
def NotFilled (s : RingBuffer α × List α) (op : Op α) : Prop := (queueStep N s.2 op).1.length < N

instance (s : RingBuffer α × List α) (op : Op α) : Decidable (NotFilled N s op) :=
  inferInstanceAs (Decidable (_ < _))

/-- **The ring buffer is a bounded queue** if and only if it does not get full in the run. -/
theorem ring_buffer_is_queue_iff (hN : 0 < N) (cells : Nat → α) (ops : List (Op α)) :
    Agrees N (new cells) [] ∧ Along (bothStep N) (Alike N) (new cells, []) ops ↔
      Along (bothStep N) (NotFilled N) (new cells, []) ops := by
  have hnew : Rep N (new cells) [] := rep_new hN cells
  have hstep : ∀ (s : RingBuffer α × List α) (op : Op α), Rep N s.1 s.2 ∧ s.2.length < N →
      NotFilled N s op → Rep N (bothStep N s op).1 (bothStep N s op).2 ∧ (bothStep N s op).2.length < N :=
    fun s op h hnot => ⟨(rep_step h.1 op fun _ => h.2).2, hnot⟩
  have hiff : ∀ (s : RingBuffer α × List α) (op : Op α), Rep N s.1 s.2 ∧ s.2.length < N →
      (Alike N s op ↔ NotFilled N s op) := by
    intro s op h
    obtain ⟨hresult, hrep⟩ := rep_step h.1 op fun _ => h.2
    exact (and_iff_right hresult).trans (agrees_iff hrep)
  rw [and_iff_right ((agrees_iff hnew).mpr hN)]
  exact along_iff (fun s op h _ hnot => hstep s op h hnot) (fun s op h _ => hiff s op h) ⟨hnew, hN⟩
    (along_true _ _)

/-- One element goes in and out. -/
theorem ring_buffer_is_queue_short :
    Agrees 2 (new fun _ => 0) [] ∧
      Along (bothStep 2) (Alike 2) (new fun _ => 0, []) [.write 7, .pop 0, .remove] :=
  (ring_buffer_is_queue_iff 2 (by decide) (fun _ => 0) [.write 7, .pop 0, .remove]).mpr (by decide)

/-- A full buffer of two, and a `pop` of nothing: the elements change places, and the data pointer has
    none. -/
theorem full_buffer_rotated :
    let ops : List (Op Nat) := [.write 1, .write 2, .forceWrite 3, .pop 0]
    let s := run (bothStep 2) (new fun _ => 0, []) ops
    s.2 = [2, 3] ∧ s.1.forward 2 2 = some [3, 2] ∧ s.1.front = some 3 ∧ s.1.data 2 = [] ∧
      ¬ Along (bothStep 2) (Alike 2) (new fun _ => 0, []) ops := by
  refine ⟨by decide, by decide, by decide, by decide, ?_⟩
  intro h
  have hfull : Agrees 2 _ [1, 2] := h.2.1.2
  exact (hfull.data (cons_ne_nil _ _)).1 (by decide)

end Runs

end RingBuffer

end DcuDaemon.Util
