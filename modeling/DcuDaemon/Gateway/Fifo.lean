/-
  The FIFO of the gateway (`linux-host/src/gateway_common/src/fifo.c`).

  Items are blocks of bytes in a circular buffer. An insert or a remove copies them in up to two pieces;
  a DMA client gets a pointer into the buffer from a setup call, reads or writes there, and says in an
  update call how many items it took. Mutex and semaphores are left out: no call blocks, and one call
  runs at a time. Calls with a handle that is not a FIFO are left out as well.

  Main result: `fifo_refines_queue`.
-/
import DcuDaemon.Lib.Circular

namespace DcuDaemon.Gateway

open Lib List Function Circular

/-! ## 1. The calls -/

abbrev Memory := Nat → UInt8

namespace Memory

/-- `memcpy(mem + dst, src, n)`. -/
def copy (mem : Memory) (dst : Nat) (src : Memory) (n : Nat) : Memory := fun a =>
  if dst ≤ a ∧ a < dst + n then src (a - dst) else mem a

/-- The memory behind a pointer that was moved on. -/
def behind (mem : Memory) (offset : Nat) : Memory := fun a => mem (offset + a)

/-- The item at a place, in units of items. -/
def item (mem : Memory) (itemSize i : Nat) : List UInt8 :=
  (List.range itemSize).map fun j => mem (i * itemSize + j)

/-- The first `n` items. -/
def items (mem : Memory) (itemSize n : Nat) : List (List UInt8) :=
  (List.range n).map fun i => mem.item itemSize i

end Memory

/-- `struct fifo`. -/
structure Fifo where
  buf : Memory
  itemSize : Nat
  depth : Nat
  cnt : Nat
  wrIdx : Nat
  rdIdx : Nat

/-- The return value `(int)n_done`. -/
def asInt (n : Nat) : Int := (BitVec.ofNat 32 n).toInt

namespace Fifo

/-- `FIFO_create`: the buffer is cleared. -/
def create (itemSize depth : Nat) : Fifo := ⟨fun _ => 0, itemSize, depth, 0, 0, 0⟩

variable (f : Fifo)

/-- `FIFO_insertDMA_setup`: the pointer, and the number of items it is good for. -/
def insertDmaSetup : Nat × Nat :=
  (f.wrIdx * f.itemSize,
    if f.cnt = f.depth then 0
    else if f.wrIdx ≥ f.rdIdx then f.depth - f.wrIdx
    else f.rdIdx - f.wrIdx)

/-- `FIFO_insertDMA_update`. -/
def insertDmaUpdate (nItems : Nat) : Fifo :=
  { f with cnt := f.cnt + nItems, wrIdx := (f.wrIdx + nItems) % f.depth }

/-- `FIFO_removeDMA_setup`. -/
def removeDmaSetup : Nat × Nat :=
  (f.rdIdx * f.itemSize,
    if f.cnt = 0 then 0
    else if f.rdIdx < f.wrIdx then f.wrIdx - f.rdIdx
    else f.depth - f.rdIdx)

/-- `FIFO_removeDMA_update`. -/
def removeDmaUpdate (actual : Nat) : Fifo :=
  { f with rdIdx := (f.rdIdx + actual) % f.depth, cnt := f.cnt - actual }

/-- The loop of `FIFO_insertWithTimeout`, without a timeout: it ends when the FIFO has no room. -/
def insertLoop (data : Memory) (nTodo : Nat) : Nat → Fifo → Nat → Nat → Option (Fifo × Nat)
  | 0, _, _, _ => none
  | fuel + 1, f, pData, nDone =>
    let nRemain := nTodo - nDone
    if nRemain = 0 then some (f, nDone)
    else
      let (pMem, nAvail) := f.insertDmaSetup
      if nAvail = 0 then some (f, nDone)
      else
        let nThis := if nAvail > nRemain then nRemain else nAvail
        let nBytes := f.itemSize * nThis
        let f := { f with buf := f.buf.copy pMem (data.behind pData) nBytes }
        insertLoop data nTodo fuel (f.insertDmaUpdate nThis) (pData + nBytes) (nDone + nThis)

/-- `FIFO_insert`; the FIFO, and the number of items. -/
def insert (data : Memory) (nTodo : Nat) : Option (Fifo × Nat) := insertLoop data nTodo (nTodo + 1) f 0 0

/-- The loop of `FIFO_removeWithTimeout`, without a timeout. -/
def removeLoop (nTodo : Nat) : Nat → Fifo → Memory → Nat → Nat → Option (Fifo × Memory × Nat)
  | 0, _, _, _, _ => none
  | fuel + 1, f, data, pData, nDone =>
    let nThis := nTodo - nDone
    if nThis = 0 then some (f, data, nDone)
    else
      let (pMem, nAvail) := f.removeDmaSetup
      if nAvail = 0 then some (f, data, nDone)
      else
        let nThis := if nThis > nAvail then nAvail else nThis
        let nBytes := f.itemSize * nThis
        let data := data.copy pData (f.buf.behind pMem) nBytes
        removeLoop nTodo fuel (f.removeDmaUpdate nThis) data (pData + nBytes) (nDone + nThis)

/-- `FIFO_remove`; the FIFO, the memory of the caller, and the number of items. -/
def remove (data : Memory) (nTodo : Nat) : Option (Fifo × Memory × Nat) :=
  removeLoop nTodo (nTodo + 1) f data 0 0

end Fifo

/-! ## 2. Clients and the queue -/

/-- The FIFO and its client: the pointers and sizes that the setup calls gave it and that are still
    good. -/
structure Client where
  fifo : Fifo
  insertGrant : Option (Nat × Nat)
  removeGrant : Option (Nat × Nat)

inductive Event where
  | insert (data : Memory) (n : Nat)
  | remove (data : Memory) (n : Nat)
  | insertSetup
  /-- One byte is written behind the pointer of the insert setup. -/
  | fill (pos : Nat) (byte : UInt8)
  | insertUpdate (n : Nat)
  | removeSetup
  /-- One byte is read behind the pointer of the remove setup. -/
  | fetch (pos : Nat)
  | removeUpdate (n : Nat)

inductive Output where
  | returned (r : Int)
  /-- The return value, and the items in the memory of the caller. -/
  | removed (r : Int) (items : List (List UInt8))
  | granted (count : Nat)
  | byte (b : UInt8)
  | nothing
  deriving DecidableEq

namespace Client

/-- A call. What it moves on is no longer where a pointer given before points to. -/
def step (c : Client) : Event → Option (Client × Output)
  | .insert data n =>
    (c.fifo.insert data n).map fun r => (⟨r.1, none, c.removeGrant⟩, .returned (asInt r.2))
  | .remove data n =>
    (c.fifo.remove data n).map fun r =>
      (⟨r.1, c.insertGrant, none⟩, .removed (asInt r.2.2) (r.2.1.items c.fifo.itemSize r.2.2))
  | .insertSetup =>
    some ({ c with insertGrant := some c.fifo.insertDmaSetup }, .granted c.fifo.insertDmaSetup.2)
  | .fill pos byte =>
    match c.insertGrant with
    | none => some (c, .nothing)
    | some (pMem, _) =>
      some ({ c with fifo := { c.fifo with buf := update c.fifo.buf (pMem + pos) byte } }, .nothing)
  | .insertUpdate n => some (⟨c.fifo.insertDmaUpdate n, none, c.removeGrant⟩, .nothing)
  | .removeSetup =>
    some ({ c with removeGrant := some c.fifo.removeDmaSetup }, .granted c.fifo.removeDmaSetup.2)
  | .fetch pos =>
    match c.removeGrant with
    | none => some (c, .nothing)
    | some (pMem, _) => some (c, .byte (c.fifo.buf (pMem + pos)))
  | .removeUpdate n => some (⟨c.fifo.removeDmaUpdate n, c.insertGrant, none⟩, .nothing)

/-- **The protocol**: an update follows its setup and takes at most what was given; only given memory is
    touched. -/
def Allowed (c : Client) : Event → Prop
  | .fill pos _ => ∃ pMem g, c.insertGrant = some (pMem, g) ∧ pos < g * c.fifo.itemSize
  | .insertUpdate n => ∃ pMem g, c.insertGrant = some (pMem, g) ∧ n ≤ g
  | .fetch pos => ∃ pMem g, c.removeGrant = some (pMem, g) ∧ pos < g * c.fifo.itemSize
  | .removeUpdate n => ∃ pMem g, c.removeGrant = some (pMem, g) ∧ n ≤ g
  | _ => True

def start (itemSize depth : Nat) : Client := ⟨.create itemSize depth, none, none⟩

def run (c : Client) : List Event → Option (List Output × Client)
  | [] => some ([], c)
  | e :: es =>
    (c.step e).bind fun r => (run r.1 es).map fun t => (r.2 :: t.1, t.2)

def Respects (c : Client) : List Event → Prop
  | [] => True
  | e :: es =>
    c.Allowed e ∧
      match c.step e with
      | none => True
      | some (c', _) => Respects c' es

end Client

/-- The queue, the area that is being filled, with its size, and the number of items that are being looked
    at. -/
structure Spec where
  queue : List (List UInt8)
  staged : Option (Nat × Memory)
  shown : Option Nat

/-- **A bounded queue.** An insert takes what there is room for, a remove gives what there is; an area is
    given where there is room, and its first items go to the end. -/
inductive SpecStep (itemSize depth : Nat) : Spec → Event → Spec → Output → Prop
  | insert (s : Spec) (data : Memory) (n : Nat) :
    SpecStep itemSize depth s (.insert data n)
      { s with
        queue := s.queue ++ data.items itemSize (min n (depth - s.queue.length))
        staged := none }
      (.returned (asInt (min n (depth - s.queue.length))))
  | remove (s : Spec) (data : Memory) (n : Nat) :
    SpecStep itemSize depth s (.remove data n) { s with queue := s.queue.drop n, shown := none }
      (.removed (asInt (min n s.queue.length)) (s.queue.take n))
  | insertSetup (s : Spec) (g : Nat) (mem : Memory) (hroom : g ≤ depth - s.queue.length)
      (hsome : s.queue.length < depth → 0 < g) :
    SpecStep itemSize depth s .insertSetup { s with staged := some (g, mem) } (.granted g)
  | fill (s : Spec) (g : Nat) (mem : Memory) (pos : Nat) (byte : UInt8) (hs : s.staged = some (g, mem)) :
    SpecStep itemSize depth s (.fill pos byte) { s with staged := some (g, update mem pos byte) } .nothing
  | insertUpdate (s : Spec) (g : Nat) (mem : Memory) (n : Nat) (hs : s.staged = some (g, mem))
      (hn : n ≤ g) :
    SpecStep itemSize depth s (.insertUpdate n)
      { s with queue := s.queue ++ mem.items itemSize n, staged := none } .nothing
  | removeSetup (s : Spec) (g : Nat) (hlen : g ≤ s.queue.length) (hsome : s.queue ≠ [] → 0 < g) :
    SpecStep itemSize depth s .removeSetup { s with shown := some g } (.granted g)
  | fetch (s : Spec) (g pos : Nat) (item : List UInt8) (b : UInt8) (hs : s.shown = some g)
      (hpos : pos < g * itemSize) (hitem : s.queue[pos / itemSize]? = some item)
      (hb : item[pos % itemSize]? = some b) :
    SpecStep itemSize depth s (.fetch pos) s (.byte b)
  | removeUpdate (s : Spec) (g n : Nat) (hs : s.shown = some g) (hn : n ≤ g) :
    SpecStep itemSize depth s (.removeUpdate n) { s with queue := s.queue.drop n, shown := none } .nothing

inductive SpecRun (itemSize depth : Nat) : Spec → List Event → List Output → Spec → Prop
  | nil (s : Spec) : SpecRun itemSize depth s [] [] s
  | cons {s s' s'' : Spec} {e : Event} {o : Output} {es : List Event} {os : List Output}
      (hstep : SpecStep itemSize depth s e s' o) (hrun : SpecRun itemSize depth s' es os s'') :
    SpecRun itemSize depth s (e :: es) (o :: os) s''

/-! ## 3. Memory -/

namespace Memory

variable {mem mem' : Memory} {itemSize : Nat}

theorem item_congr {i : Nat} (h : ∀ a, i * itemSize ≤ a → a < (i + 1) * itemSize → mem a = mem' a) :
    mem.item itemSize i = mem'.item itemSize i := by
  refine map_congr_left fun j hj => h _ (Nat.le_add_right _ _) ?_
  rw [Nat.succ_mul]
  exact Nat.add_lt_add_left (mem_range.mp hj) _

theorem item_behind (k i : Nat) :
    (mem.behind (k * itemSize)).item itemSize i = mem.item itemSize (k + i) := by
  refine map_congr_left fun j _ => ?_
  show mem (k * itemSize + (i * itemSize + j)) = mem ((k + i) * itemSize + j)
  rw [add_mul, add_assoc]

variable {n dst a : Nat}

theorem items_congr (h : ∀ a < n * itemSize, mem a = mem' a) :
    mem.items itemSize n = mem'.items itemSize n := by
  refine map_congr_left fun i hi => item_congr fun a _ ha => h a (lt_of_lt_of_le ha ?_)
  exact Nat.mul_le_mul_right itemSize (mem_range.mp hi)

theorem items_add (n m : Nat) : mem.items itemSize (n + m) =
      mem.items itemSize n ++ (mem.behind (n * itemSize)).items itemSize m := by
  unfold items
  rw [range_add, map_append, map_map]
  refine congrArg _ (map_congr_left fun i _ => ?_)
  exact (item_behind n i).symm

theorem behind_behind (k n : Nat) :
    (mem.behind (k * itemSize)).behind (n * itemSize) = mem.behind ((k + n) * itemSize) := by
  funext a
  show mem (k * itemSize + (n * itemSize + a)) = mem ((k + n) * itemSize + a)
  rw [add_mul, add_assoc]

theorem copy_inside (src : Memory) (h : a < n) : (mem.copy dst src n).behind dst a = src a := by
  show (if dst ≤ dst + a ∧ dst + a < dst + n then src (dst + a - dst) else mem (dst + a)) = src a
  rw [if_pos ⟨Nat.le_add_right _ _, Nat.add_lt_add_left h dst⟩, Nat.add_sub_cancel_left]

theorem copy_outside (src : Memory) (h : a < dst ∨ dst + n ≤ a) : mem.copy dst src n a = mem a := by
  refine if_neg fun hin => ?_
  omega

end Memory

/-! ## 4. The buffer holds the queue -/

namespace Fifo

structure Rep (itemSize depth : Nat) (f : Fifo) (q : List (List UInt8)) : Prop where
  itemSize_eq : f.itemSize = itemSize
  depth_eq : f.depth = depth
  rdIdx_lt : f.rdIdx < depth
  wrIdx_eq : f.wrIdx = (f.rdIdx + f.cnt) % depth
  cnt_le : f.cnt ≤ depth
  contents : Circular.window (f.buf.item itemSize) depth f.rdIdx f.cnt = q

section Rep

variable {itemSize depth : Nat} {f : Fifo} {q : List (List UInt8)}

theorem rep_create (h : 0 < depth) : Rep itemSize depth (create itemSize depth) [] :=
  ⟨rfl, rfl, h, (Nat.zero_mod depth).symm, Nat.zero_le depth, rfl⟩

variable (h : Rep itemSize depth f q)

include h

theorem Rep.length : q.length = f.cnt := by
  rw [← h.contents, length_window]

/-- **What an insert setup gives**: room behind the last item, up to the end of the buffer. -/
theorem insertDmaSetup_spec :
    f.insertDmaSetup.1 = f.wrIdx * itemSize ∧ f.insertDmaSetup.2 + q.length ≤ depth ∧
      f.wrIdx + f.insertDmaSetup.2 ≤ depth ∧ (q.length < depth → 0 < f.insertDmaSetup.2) := by
  have hrd := h.rdIdx_lt
  have hcnt := h.cnt_le
  have hwr := h.wrIdx_eq
  unfold insertDmaSetup
  rw [h.itemSize_eq, h.depth_eq, h.length]
  refine ⟨rfl, ?_⟩
  rcases lt_or_ge (f.rdIdx + f.cnt) depth with hnowrap | hwrap
  · rw [Nat.mod_eq_of_lt hnowrap] at hwr
    rw [if_neg (by omega), if_pos (by omega)]
    omega
  · rw [Nat.mod_eq_sub_mod hwrap, Nat.mod_eq_of_lt (by omega)] at hwr
    split
    · omega
    · rw [if_neg (by omega)]
      omega

/-- **What a remove setup gives**: items from the front, up to the end of the buffer. -/
theorem removeDmaSetup_spec :
    f.removeDmaSetup.1 = f.rdIdx * itemSize ∧ f.removeDmaSetup.2 ≤ q.length ∧
      f.rdIdx + f.removeDmaSetup.2 ≤ depth ∧ (q ≠ [] → 0 < f.removeDmaSetup.2) := by
  have hrd := h.rdIdx_lt
  have hcnt := h.cnt_le
  have hwr := h.wrIdx_eq
  have hne : q ≠ [] → 0 < f.cnt := fun hq => h.length ▸ length_pos_iff.mpr hq
  unfold removeDmaSetup
  rw [h.itemSize_eq, h.depth_eq, h.length]
  refine ⟨rfl, ?_⟩
  split
  · rename_i hzero
    exact ⟨by omega, by omega, fun hq => absurd hzero (ne_of_gt (hne hq))⟩
  · rcases lt_or_ge (f.rdIdx + f.cnt) depth with hnowrap | hwrap
    · rw [Nat.mod_eq_of_lt hnowrap] at hwr
      rw [if_pos (by omega)]
      omega
    · rw [Nat.mod_eq_sub_mod hwrap, Nat.mod_eq_of_lt (by omega)] at hwr
      rw [if_neg (by omega)]
      omega

theorem Rep.withBuf {g : Nat} (hroom : g + q.length ≤ depth)
    (hend : f.wrIdx + g ≤ depth) {mem : Memory}
    (hmem : ∀ a, a < f.wrIdx * itemSize ∨ (f.wrIdx + g) * itemSize ≤ a → mem a = f.buf a) :
    Rep itemSize depth { f with buf := mem } q := by
  refine ⟨h.itemSize_eq, h.depth_eq, h.rdIdx_lt, h.wrIdx_eq, h.cnt_le, ?_⟩
  rw [h.length] at hroom
  show window (mem.item itemSize) depth f.rdIdx f.cnt = q
  rw [← h.contents]
  refine window_congr fun i hi => Memory.item_congr fun a hlo hhi => hmem a ?_
  -- the cell of an item is not one of those that may be written
  have hcell : (f.rdIdx + i) % depth < f.wrIdx ∨ f.wrIdx + g ≤ (f.rdIdx + i) % depth := by
    refine Classical.byContradiction fun hin => ?_
    obtain ⟨k, hk⟩ := Nat.exists_eq_add_of_le (show f.wrIdx ≤ (f.rdIdx + i) % depth by omega)
    have hcells : (f.rdIdx + i) % depth = (f.rdIdx + (f.cnt + k)) % depth := by
      rw [hk, ← add_assoc, ← Nat.mod_add_mod, ← h.wrIdx_eq, Nat.mod_eq_of_lt (by omega)]
    exact index_ne f.rdIdx (by omega) (by omega) (by omega) hcells
  rcases hcell with hbefore | hbehind
  · exact .inl (lt_of_lt_of_le hhi (Nat.mul_le_mul_right itemSize hbefore))
  · exact .inr (le_trans (Nat.mul_le_mul_right itemSize hbehind) hlo)

variable {n : Nat}

/-- **An insert update** puts the items behind the pointer at the end of the queue. -/
theorem rep_insertDmaUpdate (hroom : n + q.length ≤ depth)
    (hend : f.wrIdx + n ≤ depth) : Rep itemSize depth (f.insertDmaUpdate n)
      (q ++ (f.buf.behind (f.wrIdx * itemSize)).items itemSize n) := by
  rw [h.length] at hroom
  refine ⟨h.itemSize_eq, h.depth_eq, h.rdIdx_lt, ?_, by show f.cnt + n ≤ depth; omega, ?_⟩
  · show (f.wrIdx + n) % f.depth = (f.rdIdx + (f.cnt + n)) % depth
    rw [h.depth_eq, h.wrIdx_eq, Nat.mod_add_mod, add_assoc]
  · show window (f.buf.item itemSize) depth f.rdIdx (f.cnt + n) = _
    have hnew : window (f.buf.item itemSize) depth f.wrIdx n =
        (f.buf.behind (f.wrIdx * itemSize)).items itemSize n := by
      rw [window_contiguous hend]
      exact map_congr_left fun i _ => (Memory.item_behind f.wrIdx i).symm
    rw [window_add, h.contents, ← window_mod, ← h.wrIdx_eq, hnew]

/-- **A remove update** takes items from the front. -/
theorem rep_removeDmaUpdate (hn : n ≤ q.length) : Rep itemSize depth (f.removeDmaUpdate n) (q.drop n) := by
  have hcnt := h.cnt_le
  have hdepth : 0 < depth := Nat.zero_lt_of_lt h.rdIdx_lt
  rw [h.length] at hn
  refine ⟨h.itemSize_eq, h.depth_eq, ?_, ?_, by show f.cnt - n ≤ depth; omega, ?_⟩
  · show (f.rdIdx + n) % f.depth < depth
    rw [h.depth_eq]
    exact Nat.mod_lt _ hdepth
  · show f.wrIdx = ((f.rdIdx + n) % f.depth + (f.cnt - n)) % depth
    rw [h.depth_eq, h.wrIdx_eq, Nat.mod_add_mod, add_assoc, Nat.add_sub_cancel' hn]
  · show window (f.buf.item itemSize) depth ((f.rdIdx + n) % f.depth) (f.cnt - n) = _
    rw [h.depth_eq, window_mod, ← drop_window hn, h.contents]

theorem Rep.take (hn : n ≤ q.length) (hend : f.rdIdx + n ≤ depth) :
    (f.buf.behind (f.rdIdx * itemSize)).items itemSize n = q.take n := by
  rw [h.length] at hn
  rw [← h.contents, take_window hn, window_contiguous hend]
  exact map_congr_left fun i _ => Memory.item_behind f.rdIdx i

end Rep

/-! ## 5. Insert and remove -/

section Loops

variable {itemSize depth : Nat} {f : Fifo} {q : List (List UInt8)}
variable {n nTodo nDone fuel : Nat}

theorem rep_insertPiece (h : Rep itemSize depth f q) (hroom : n + q.length ≤ depth)
    (hend : f.wrIdx + n ≤ depth) (src : Memory) : Rep itemSize depth
      ({ f with buf := f.buf.copy (f.wrIdx * itemSize) src (itemSize * n) }.insertDmaUpdate n)
      (q ++ src.items itemSize n) := by
  have hbuf : Rep itemSize depth { f with buf := f.buf.copy (f.wrIdx * itemSize) src (itemSize * n) } q :=
    h.withBuf hroom hend fun a ha =>
      Memory.copy_outside src (by rwa [mul_comm itemSize n, ← add_mul])
  have hupdate := rep_insertDmaUpdate hbuf hroom hend
  have hitems : ((f.buf.copy (f.wrIdx * itemSize) src (itemSize * n)).behind
      (f.wrIdx * itemSize)).items itemSize n = src.items itemSize n :=
    Memory.items_congr fun a ha => Memory.copy_inside src (by rwa [mul_comm])
  rwa [← hitems]

theorem ite_gt_eq_min (a b : Nat) : (if a > b then b else a) = min a b := by
  simp only [min_def, gt_iff_lt, ← not_le, ite_not]

/-- **The insert loop** takes as many items as there is room for. -/
theorem insertLoop_eq (h : Rep itemSize depth f q) (data : Memory)
    (hdone : nDone ≤ nTodo) (hfuel : nTodo - nDone < fuel) :
    ∃ f', insertLoop data nTodo fuel f (nDone * itemSize) nDone =
        some (f', nDone + min (nTodo - nDone) (depth - q.length)) ∧
      Rep itemSize depth f' (q ++ (data.behind (nDone * itemSize)).items itemSize
        (min (nTodo - nDone) (depth - q.length))) ∧ f'.rdIdx = f.rdIdx := by
  induction fuel generalizing f q nDone with
  | zero => exact absurd hfuel (Nat.not_lt_zero _)
  | succ fuel ih =>
    obtain ⟨hptr, hroom, hend, hsome⟩ := insertDmaSetup_spec h
    have hstop : ∀ m, m = 0 → ∃ f', some (f, nDone) = some (f', nDone + m) ∧
        Rep itemSize depth f' (q ++ (data.behind (nDone * itemSize)).items itemSize m) ∧
        f'.rdIdx = f.rdIdx := by
      intro m hm
      subst hm
      exact ⟨f, rfl, by rwa [Memory.items, range_zero, map_nil, append_nil], rfl⟩
    rw [insertLoop]
    dsimp only
    split
    · exact hstop _ (by omega)
    · split
      · rename_i hzero
        exact hstop _ (by omega)
      · rename_i hrest havail
        -- the piece of this round
        rw [ite_gt_eq_min]
        generalize hn : min f.insertDmaSetup.2 (nTodo - nDone) = n
        have hpiece := rep_insertPiece h (show n + q.length ≤ depth by omega)
          (show f.wrIdx + n ≤ depth by omega) (data.behind (nDone * itemSize))
        obtain ⟨f', hloop, hrep, hrd⟩ := ih hpiece (show nDone + n ≤ nTodo by omega) (by omega)
        refine ⟨f', ?_, ?_, hrd⟩
        · have hbytes : f.itemSize * n = n * itemSize := by rw [h.itemSize_eq, mul_comm]
          rw [hptr, hbytes, ← add_mul]
          rw [mul_comm itemSize n] at hloop
          refine hloop.trans (congrArg (fun m => some (f', m)) ?_)
          rw [length_append, Memory.items, length_map, length_range]
          omega
        · have hcount : min (nTodo - nDone) (depth - q.length) =
              n + min (nTodo - (nDone + n)) (depth - (q.length + n)) := by omega
          rw [length_append, Memory.items, length_map, length_range, append_assoc] at hrep
          rw [hcount, Memory.items_add, Memory.behind_behind]
          exact hrep

theorem insert_eq (h : Rep itemSize depth f q) (data : Memory) (n : Nat) :
    ∃ f', f.insert data n = some (f', min n (depth - q.length)) ∧
      Rep itemSize depth f' (q ++ data.items itemSize (min n (depth - q.length))) ∧
      f'.rdIdx = f.rdIdx := by
  obtain ⟨f', hloop, hrep, hrd⟩ := insertLoop_eq h data (Nat.zero_le n) (Nat.lt_succ_self n)
  rw [Nat.zero_mul, Nat.zero_add] at hloop
  have hbehind : data.behind (0 * itemSize) = data := by
    funext a
    show data (0 * itemSize + a) = data a
    rw [Nat.zero_mul, Nat.zero_add]
  rw [hbehind] at hrep
  exact ⟨f', hloop, hrep, hrd⟩

theorem items_removePiece (h : Rep itemSize depth f q) (hn : n ≤ q.length)
    (hend : f.rdIdx + n ≤ depth) (data : Memory) (nDone : Nat) :
    (data.copy (nDone * itemSize) (f.buf.behind (f.rdIdx * itemSize)) (itemSize * n)).items itemSize
        (nDone + n) = data.items itemSize nDone ++ q.take n := by
  rw [Memory.items_add]
  refine congrArg₂ _ (Memory.items_congr fun a ha => Memory.copy_outside _ (.inl ha)) ?_
  rw [← h.take hn hend]
  exact Memory.items_congr fun a ha => Memory.copy_inside _ (by rwa [mul_comm])

/-- **The remove loop** gives as many items as there are. -/
theorem removeLoop_eq (h : Rep itemSize depth f q) (data : Memory)
    (hdone : nDone ≤ nTodo) (hfuel : nTodo - nDone < fuel) :
    ∃ f' data', removeLoop nTodo fuel f data (nDone * itemSize) nDone =
        some (f', data', nDone + min (nTodo - nDone) q.length) ∧
      data'.items itemSize (nDone + min (nTodo - nDone) q.length) =
        data.items itemSize nDone ++ q.take (nTodo - nDone) ∧
      Rep itemSize depth f' (q.drop (nTodo - nDone)) ∧ f'.wrIdx = f.wrIdx ∧ f'.buf = f.buf := by
  induction fuel generalizing f q nDone data with
  | zero => exact absurd hfuel (Nat.not_lt_zero _)
  | succ fuel ih =>
    obtain ⟨hptr, hlen, hend, hsome⟩ := removeDmaSetup_spec h
    rw [removeLoop]
    dsimp only
    split
    · rename_i hzero
      rw [hzero, take_zero, append_nil]
      exact ⟨f, data, rfl, rfl, h, rfl, rfl⟩
    · split
      · rename_i hzero
        have hnil : q = [] := Classical.byContradiction fun hne => ne_of_gt (hsome hne) hzero
        subst hnil
        rw [length_nil, Nat.min_zero, take_nil, drop_nil, append_nil]
        exact ⟨f, data, rfl, rfl, h, rfl, rfl⟩
      · rename_i hrest havail
        rw [ite_gt_eq_min]
        generalize hn : min (nTodo - nDone) f.removeDmaSetup.2 = n
        have hpiece := items_removePiece h (show n ≤ q.length by omega)
          (show f.rdIdx + n ≤ depth by omega) data nDone
        have hupdate := rep_removeDmaUpdate h (show n ≤ q.length by omega)
        obtain ⟨f', data', hloop, hitems, hrep, hwr, hbuf⟩ := ih hupdate
          (data.copy (nDone * itemSize) (f.buf.behind (f.rdIdx * itemSize)) (itemSize * n))
          (show nDone + n ≤ nTodo by omega) (by omega)
        have hcount : nDone + n + min (nTodo - (nDone + n)) (q.drop n).length =
            nDone + min (nTodo - nDone) q.length := by
          rw [length_drop]
          omega
        have hrest : nTodo - nDone = n + (nTodo - (nDone + n)) := by omega
        rw [hcount] at hloop hitems
        refine ⟨f', data', ?_, ?_, ?_, hwr, hbuf⟩
        · have hbytes : f.itemSize * n = n * itemSize := by rw [h.itemSize_eq, mul_comm]
          rw [hptr, hbytes, ← add_mul]
          rw [mul_comm itemSize n] at hloop
          exact hloop
        · rw [hitems, hpiece, append_assoc, ← take_add, ← hrest]
        · rwa [drop_drop, ← hrest] at hrep

theorem remove_eq (h : Rep itemSize depth f q) (data : Memory) (n : Nat) :
    ∃ f' data', f.remove data n = some (f', data', min n q.length) ∧
      data'.items itemSize (min n q.length) = q.take n ∧ Rep itemSize depth f' (q.drop n) ∧
      f'.wrIdx = f.wrIdx ∧ f'.buf = f.buf := by
  obtain ⟨f', data', hloop, hitems, hrep, hkeep⟩ :=
    removeLoop_eq h data (Nat.zero_le n) (Nat.lt_succ_self n)
  rw [Nat.zero_mul, Nat.zero_add] at hloop
  rw [Nat.zero_add, Nat.sub_zero] at hitems
  exact ⟨f', data', hloop, hitems, hrep, hkeep⟩

end Loops

end Fifo

/-! ## 6. The simulation -/

/-- A FIFO and its client with the queue: the area that is being filled stands behind the last item, and the
    items that are being looked at are the first ones. -/
structure Relates (itemSize depth : Nat) (c : Client) (s : Spec) : Prop where
  rep : Fifo.Rep itemSize depth c.fifo s.queue
  staged : ∀ pMem g, c.insertGrant = some (pMem, g) → ∃ mem, s.staged = some (g, mem) ∧
    pMem = c.fifo.wrIdx * itemSize ∧ g + s.queue.length ≤ depth ∧ c.fifo.wrIdx + g ≤ depth ∧
    ∀ a < g * itemSize, c.fifo.buf (pMem + a) = mem a
  shown : ∀ pMem g, c.removeGrant = some (pMem, g) → s.shown = some g ∧
    pMem = c.fifo.rdIdx * itemSize ∧ g ≤ s.queue.length ∧ c.fifo.rdIdx + g ≤ depth

section Simulation

variable {itemSize depth : Nat} {c : Client} {s : Spec} {f : Fifo} {q : List (List UInt8)} {pMem g n : Nat}

variable (h : Relates itemSize depth c s)

include h

/-- What is put behind the queue does not touch the items that are being looked at. -/
theorem relates_insert (hrep : Fifo.Rep itemSize depth f (s.queue ++ q))
    (hrd : f.rdIdx = c.fifo.rdIdx) : Relates itemSize depth ⟨f, none, c.removeGrant⟩
      { s with queue := s.queue ++ q, staged := none } := by
  refine ⟨hrep, fun _ _ hnone => (by cases hnone), fun pMem g hgrant => ?_⟩
  obtain ⟨hs, hptr, hlen, hend⟩ := h.shown pMem g hgrant
  rw [length_append, hrd]
  exact ⟨hs, hptr, by omega, hend⟩

/-- What is taken from the front does not touch the area that is being filled. -/
theorem relates_remove (hrep : Fifo.Rep itemSize depth f (s.queue.drop n))
    (hwr : f.wrIdx = c.fifo.wrIdx) (hbuf : f.buf = c.fifo.buf) :
    Relates itemSize depth ⟨f, c.insertGrant, none⟩ { s with queue := s.queue.drop n, shown := none } := by
  refine ⟨hrep, fun pMem g hgrant => ?_, fun _ _ hnone => (by cases hnone)⟩
  obtain ⟨mem, hs, hptr, hroom, hend, hmem⟩ := h.staged pMem g hgrant
  rw [length_drop, hwr, hbuf]
  exact ⟨mem, hs, hptr, by omega, hend, hmem⟩

theorem relates_fill {pos : Nat} (byte : UInt8)
    (hgrant : c.insertGrant = some (pMem, g)) (hpos : pos < g * itemSize) {mem : Memory}
    (hs : s.staged = some (g, mem)) : Relates itemSize depth
      { c with fifo := { c.fifo with buf := update c.fifo.buf (pMem + pos) byte } }
      { s with staged := some (g, update mem pos byte) } := by
  obtain ⟨mem', hs', hptr, hroom, hend, hmem⟩ := h.staged pMem g hgrant
  obtain rfl : mem' = mem := congrArg Prod.snd (Option.some.inj (hs'.symm.trans hs))
  refine ⟨h.rep.withBuf hroom hend fun a ha => update_of_ne ?_ _ _, ?_, h.shown⟩
  · rw [add_mul] at ha
    omega
  · intro pMem' g' hgrant'
    obtain ⟨rfl, rfl⟩ := Prod.mk.inj (Option.some.inj (hgrant.symm.trans hgrant'))
    refine ⟨_, rfl, hptr, hroom, hend, fun a ha => ?_⟩
    dsimp only
    rw [update_apply, update_apply, hmem a ha]
    exact if_congr (Nat.add_right_inj) rfl rfl

/-- **Every call that keeps to the protocol is a step of the queue.** -/
theorem simulates {e : Event} (he : c.Allowed e) :
    ∃ c' o s', c.step e = some (c', o) ∧ SpecStep itemSize depth s e s' o ∧
      Relates itemSize depth c' s' := by
  have hrep := h.rep
  cases e with
  | insert data n =>
    obtain ⟨f', hinsert, hrep', hrd⟩ := Fifo.insert_eq hrep data n
    refine ⟨⟨f', none, c.removeGrant⟩, _, _, ?_, .insert s data n, relates_insert h hrep' hrd⟩
    rw [Client.step, hinsert, Option.map_some]
  | remove data n =>
    obtain ⟨f', data', hremove, hitems, hrep', hwr, hbuf⟩ := Fifo.remove_eq hrep data n
    refine ⟨⟨f', c.insertGrant, none⟩, _, _, ?_, .remove s data n, relates_remove h hrep' hwr hbuf⟩
    rw [Client.step, hremove, Option.map_some, hrep.itemSize_eq, hitems]
  | insertSetup =>
    obtain ⟨hptr, hroom, hend, hsome⟩ := Fifo.insertDmaSetup_spec hrep
    refine ⟨_, _, _, rfl, .insertSetup s _ (c.fifo.buf.behind c.fifo.insertDmaSetup.1) (by omega) hsome,
      hrep, fun pMem g hgrant => ?_, h.shown⟩
    cases hgrant
    exact ⟨_, rfl, hptr, hroom, hend, fun _ _ => rfl⟩
  | fill pos byte =>
    obtain ⟨pMem, g, hgrant, hpos⟩ := he
    rw [hrep.itemSize_eq] at hpos
    obtain ⟨mem, hs, -⟩ := h.staged pMem g hgrant
    refine ⟨_, _, _, ?_, .fill s g mem pos byte hs, relates_fill h byte hgrant hpos hs⟩
    rw [Client.step, hgrant]
  | insertUpdate n =>
    obtain ⟨pMem, g, hgrant, hn⟩ := he
    obtain ⟨mem, hs, hptr, hroom, hend, hmem⟩ := h.staged pMem g hgrant
    have hupdate := Fifo.rep_insertDmaUpdate hrep (show n + s.queue.length ≤ depth by omega)
      (show c.fifo.wrIdx + n ≤ depth by omega)
    have hitems : (c.fifo.buf.behind (c.fifo.wrIdx * itemSize)).items itemSize n =
        mem.items itemSize n := by
      refine Memory.items_congr fun a ha => ?_
      rw [← hptr]
      exact hmem a (lt_of_lt_of_le ha (Nat.mul_le_mul_right itemSize hn))
    rw [hitems] at hupdate
    exact ⟨_, _, _, rfl, .insertUpdate s g mem n hs hn, relates_insert h hupdate rfl⟩
  | removeSetup =>
    obtain ⟨hptr, hlen, hend, hsome⟩ := Fifo.removeDmaSetup_spec hrep
    refine ⟨_, _, _, rfl, .removeSetup s _ hlen hsome, hrep, h.staged, fun pMem g hgrant => ?_⟩
    cases hgrant
    exact ⟨rfl, hptr, hlen, hend⟩
  | fetch pos =>
    obtain ⟨pMem, g, hgrant, hpos⟩ := he
    rw [hrep.itemSize_eq] at hpos
    obtain ⟨hs, hptr, hlen, hend⟩ := h.shown pMem g hgrant
    have hsize : 0 < itemSize := Nat.pos_of_ne_zero fun hzero => by simp [hzero] at hpos
    have hindex : pos / itemSize < g := (Nat.div_lt_iff_lt_mul hsize).mpr hpos
    -- the byte is one of the item that stands there
    have hitem : s.queue[pos / itemSize]? =
        some (c.fifo.buf.item itemSize (c.fifo.rdIdx + pos / itemSize)) := by
      rw [← hrep.contents, getElem?_window (by rw [← hrep.length]; omega), Nat.mod_eq_of_lt (by omega)]
    have hbyte : (c.fifo.buf.item itemSize (c.fifo.rdIdx + pos / itemSize))[pos % itemSize]? =
        some (c.fifo.buf (pMem + pos)) := by
      unfold Memory.item
      rw [getElem?_map, getElem?_range (Nat.mod_lt _ hsize), Option.map_some, add_mul,
        add_assoc, Nat.div_add_mod', hptr]
    refine ⟨_, _, _, ?_, .fetch s g pos _ _ hs hpos hitem hbyte, h⟩
    rw [Client.step, hgrant]
  | removeUpdate n =>
    obtain ⟨pMem, g, hgrant, hn⟩ := he
    obtain ⟨hs, -, hlen, -⟩ := h.shown pMem g hgrant
    exact ⟨_, _, _, rfl, .removeUpdate s g n hs hn,
      relates_remove h (Fifo.rep_removeDmaUpdate hrep (le_trans hn hlen)) rfl rfl⟩

theorem simulates_run {es : List Event} (hes : c.Respects es) :
    ∃ os c' s', c.run es = some (os, c') ∧ SpecRun itemSize depth s es os s' ∧
      Relates itemSize depth c' s' := by
  induction es generalizing c s with
  | nil => exact ⟨[], c, s, rfl, .nil s, h⟩
  | cons e es ih =>
    obtain ⟨he, hrest⟩ := hes
    obtain ⟨c₁, o, s₁, hstep, hspec, hrel⟩ := simulates h he
    rw [hstep] at hrest
    obtain ⟨os, c', s', hrun, hspecs, hrel'⟩ := ih hrel hrest
    refine ⟨o :: os, c', s', ?_, .cons hspec hspecs, hrel'⟩
    rw [Client.run, hstep, Option.bind_some, hrun, Option.map_some]

end Simulation

/-- **The FIFO refines a bounded queue**: every run that keeps to the protocol ends, with outputs of the
    queue, and the buffer then holds its items. -/
theorem fifo_refines_queue (itemSize depth : Nat) (hdepth : 0 < depth) (es : List Event)
    (hes : (Client.start itemSize depth).Respects es) :
    ∃ os c s, (Client.start itemSize depth).run es = some (os, c) ∧
      SpecRun itemSize depth ⟨[], none, none⟩ es os s ∧ s.queue.length ≤ depth ∧
      Circular.window (c.fifo.buf.item itemSize) depth c.fifo.rdIdx c.fifo.cnt = s.queue := by
  have hstart : Relates itemSize depth (Client.start itemSize depth) ⟨[], none, none⟩ :=
    ⟨Fifo.rep_create hdepth, fun _ _ h => (by cases h), fun _ _ h => (by cases h)⟩
  obtain ⟨os, c, s, hrun, hspec, hrel⟩ := simulates_run hstart hes
  exact ⟨os, c, s, hrun, hspec, hrel.rep.length ▸ hrel.rep.cnt_le, hrel.rep.contents⟩

/-- A byte goes in by DMA, next to one that is inserted, and both are removed. -/
def bothWays : List Event :=
  [.insert (fun _ => 7) 1, .insertSetup, .fill 0 9, .removeSetup, .insertUpdate 1, .fetch 0,
    .remove (fun _ => 0) 3]

/-- The run, in a FIFO of two. -/
theorem fifo_refines_queue_both_ways : 0 < 2 ∧ (Client.start 1 2).Respects bothWays ∧
      ∃ os c s, (Client.start 1 2).run bothWays = some (os, c) ∧
        SpecRun 1 2 ⟨[], none, none⟩ bothWays os s ∧ s.queue.length ≤ 2 ∧
        Circular.window (c.fifo.buf.item 1) 2 c.fifo.rdIdx c.fifo.cnt = s.queue := by
  have hrespects : (Client.start 1 2).Respects bothWays :=
    ⟨trivial, trivial, ⟨1, 1, rfl, by decide⟩, trivial, ⟨1, 1, rfl, by decide⟩, ⟨0, 1, rfl, by decide⟩,
      trivial, trivial⟩
  exact ⟨by decide, hrespects, fifo_refines_queue 1 2 (by decide) bothWays hrespects⟩

example : ((Client.start 1 2).run bothWays).map (fun r => r.1.getLast?) =
    some (some (.removed 2 [[7], [9]])) := by decide

end DcuDaemon.Gateway
