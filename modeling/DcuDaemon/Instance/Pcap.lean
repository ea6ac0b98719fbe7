/-
  The capture descriptors (`crates/dcu-tunnel-daemon/src/pcap.rs`, `PcapManager`).

  A write task holds the read lock while it writes and takes the write lock afterwards to remove the
  descriptors that failed. A write goes through a `File` that is only forgotten when it has succeeded
  (`pcap_ffi.rs`): a failing one closes the descriptor, which stays in the list. The removal closes it again, and
  leaves the capture active without a descriptor.

  Main result: `pcap_sound_iff`.
-/
import DcuDaemon.Lib.Run

namespace DcuDaemon.Instance

open Lib List

/-! ## 1. The manager -/

inductive FdOp where
  | write (fd : Nat)
  | close (fd : Nat)
  deriving DecidableEq

/-- `PcapManager`, its calls and tasks under way, and what was done to the descriptors. -/
structure Pcap where
  fds : List Nat
  active : Bool
  /-- Calls of `insert_fd` that have written the header and wait for the lock. -/
  opened : List Nat
  /-- Write tasks that have not begun. -/
  spawned : Nat
  /-- Write tasks that wait for the write lock, with their `remove`. -/
  waiting : List (List Nat)
  ops : List FdOp

def Pcap.new : Pcap := ⟨[], false, [], 0, [], []⟩

inductive PcapEvent where
  /-- `insert_fd`, the header. -/
  | header (fd : Nat) (ok : Bool)
  /-- `insert_fd`, under the lock. -/
  | insert (fd : Nat)
  | push
  /-- A write task under the read lock; `fails` tells which writes fail. -/
  | write (fails : Nat → Bool)
  /-- A waiting task under the write lock. -/
  | remove (task : Nat)
  | terminate

namespace Pcap

/-- `write_pcap_header` and `write_pcap_record`: at an error the `File` is dropped. -/
def writeOps (fails : Bool) (fd : Nat) : List FdOp := if fails then [.write fd, .close fd] else [.write fd]

def step (s : Pcap) : PcapEvent → Pcap
  | .header fd ok =>
    { s with opened := if ok then fd :: s.opened else s.opened, ops := s.ops ++ writeOps (!ok) fd }
  | .insert fd =>
    if fd ∈ s.opened then
      { s with opened := s.opened.erase fd, fds := s.fds ++ [fd], active := true }
    else s
  | .push => if s.active then { s with spawned := s.spawned + 1 } else s
  | .write fails =>
    if s.spawned = 0 then s
    else
      { s with
        spawned := s.spawned - 1
        waiting := if s.fds.filter fails = [] then s.waiting else s.waiting ++ [s.fds.filter fails]
        ops := s.ops ++ s.fds.flatMap fun fd => writeOps (fails fd) fd }
  | .remove task =>
    match s.waiting[task]? with
    | none => s
    | some broken =>
      { s with
        fds := s.fds.filter (· ∉ broken)
        waiting := s.waiting.eraseIdx task
        ops := s.ops ++ broken.map .close }
  | .terminate => { s with fds := [], active := false, ops := s.ops ++ s.fds.map .close }

/-- The descriptors that are given to the manager. -/
def given (es : List PcapEvent) : List Nat := es.filterMap fun | .header fd _ => some fd | _ => none

/-- Nothing of a kind is done to a descriptor after it was closed. -/
def NeverAfterClose (kind : Nat → FdOp) (ops : List FdOp) : Prop :=
  ops.Pairwise fun a b => ∀ fd, a = .close fd → b ≠ kind fd

/-- **What is asked of the manager.** -/
structure Sound (s : Pcap) : Prop where
  closed_once : NeverAfterClose .close s.ops
  written_open : NeverAfterClose .write s.ops
  active_iff : s.spawned = 0 → s.waiting = [] → (s.active = true ↔ s.fds ≠ [])

/-- An event that uses a descriptor which a failed write has closed: while a task waits to remove it another one
    writes, or a termination comes; or the task removes it. -/
def UsesBroken (s : Pcap) : PcapEvent → Prop
  | .write _ => s.spawned ≠ 0 ∧ s.waiting ≠ []
  | .remove task => task < s.waiting.length
  | .terminate => s.waiting ≠ []
  | _ => False

/-! ## 2. Every schedule -/

/-- What holds as long as no broken descriptor was used. -/
structure Inv (es : List PcapEvent) (s : Pcap) : Prop where
  known : ∀ fd, fd ∈ s.opened ∨ fd ∈ s.fds ∨ .close fd ∈ s.ops → fd ∈ given es
  nodup : (s.opened ++ s.fds).Nodup
  opened : ∀ fd ∈ s.opened, .close fd ∉ s.ops
  listed : s.waiting = [] → ∀ fd ∈ s.fds, .close fd ∉ s.ops
  broken : ∀ l ∈ s.waiting, ∃ fd ∈ l, fd ∈ s.fds ∧ .close fd ∈ s.ops
  closed_once : NeverAfterClose .close s.ops
  written_open : NeverAfterClose .write s.ops
  active : s.active = true ↔ s.fds ≠ []

variable {s : Pcap} {e : PcapEvent} {es : List PcapEvent} {kind : Nat → FdOp} {ops new' : List FdOp}

theorem neverAfterClose_append : NeverAfterClose kind (ops ++ new') ↔
      NeverAfterClose kind ops ∧ NeverAfterClose kind new' ∧ ∀ fd, .close fd ∈ ops → kind fd ∉ new' := by
  simp only [NeverAfterClose, pairwise_append]
  refine and_congr_right fun _ => and_congr_right fun _ => ⟨fun h fd hfd hnew => ?_, ?_⟩
  · exact h _ hfd _ hnew fd rfl rfl
  · rintro h a ha b hb fd rfl rfl
    exact h fd ha hb

theorem mem_writes {fails : Nat → Bool} {fds : List Nat} {op : FdOp} :
    op ∈ fds.flatMap (fun fd => writeOps (fails fd) fd) ↔
      ∃ fd ∈ fds, op = .write fd ∨ (fails fd = true ∧ op = .close fd) := by
  simp only [mem_flatMap, writeOps]
  refine exists_congr fun fd => and_congr_right fun _ => ?_
  cases fails fd <;> simp

/-- **The writes of a task** leave no descriptor closed twice or written after its close. -/
theorem neverAfterClose_writes (fails : Nat → Bool) {fds : List Nat} (h : fds.Nodup) :
    NeverAfterClose .close (fds.flatMap fun fd => writeOps (fails fd) fd) ∧
      NeverAfterClose .write (fds.flatMap fun fd => writeOps (fails fd) fd) := by
  induction fds with
  | nil => exact ⟨Pairwise.nil, Pairwise.nil⟩
  | cons fd fds ih =>
    obtain ⟨hfd, hrest⟩ := nodup_cons.mp h
    obtain ⟨hclose, hwrite⟩ := ih hrest
    have hown : ∀ kind, NeverAfterClose kind (writeOps (fails fd) fd) := by
      intro kind
      unfold writeOps
      split <;> simp [NeverAfterClose]
    have hclosed : ∀ fd', .close fd' ∈ writeOps (fails fd) fd → fd' = fd := by
      unfold writeOps
      split <;> simp
    rw [flatMap_cons, neverAfterClose_append, neverAfterClose_append]
    refine ⟨⟨hown _, hclose, fun fd' hmem => ?_⟩, ⟨hown _, hwrite, fun fd' hmem => ?_⟩⟩ <;>
    · cases hclosed fd' hmem
      rw [mem_writes]
      grind

theorem neverAfterClose_closes {fds : List Nat} : NeverAfterClose .close (fds.map .close) ↔ fds.Nodup := by
  simp [NeverAfterClose, pairwise_map, List.Nodup, eq_comm]

theorem neverWritten_closes (fds : List Nat) : NeverAfterClose .write (fds.map .close) :=
  pairwise_map.mpr (pairwise_of_forall fun _ _ _ _ h => nomatch h)

theorem given_append (es : List PcapEvent) (e : PcapEvent) : given (es ++ [e]) = given es ++ given [e] :=
  filterMap_append

/-- **A step that uses no broken descriptor keeps the invariant.** -/
theorem inv_step (h : Inv es s) (hnew : (given (es ++ [e])).Nodup) (he : ¬ s.UsesBroken e) :
    Inv (es ++ [e]) (s.step e) := by
  have hmono : ∀ fd, fd ∈ given es → fd ∈ given (es ++ [e]) := by
    intro fd hfd
    rw [given_append]
    exact mem_append_left _ hfd
  have hsame : Inv (es ++ [e]) s := { h with known := fun fd hfd => hmono fd (h.known fd hfd) }
  obtain ⟨hknown, hnodup, hopened, hlisted, hbroken, honce, hwritten, hactive⟩ := h
  have hfds : s.fds.Nodup := (nodup_append.mp hnodup).2.1
  cases e with
  | header fd ok =>
    have hfresh : fd ∉ given es := by
      rw [given_append, nodup_append] at hnew
      exact fun hfd => hnew.2.2 fd hfd fd (by simp [given]) rfl
    have hin : fd ∈ given (es ++ [.header fd ok]) := by simp [given]
    have hmem : ∀ op, op ∈ writeOps (!ok) fd ↔ op = .write fd ∨ (ok = false ∧ op = .close fd) := by
      intro op
      cases ok <;> simp [writeOps]
    obtain ⟨hclose, hwrite⟩ := neverAfterClose_writes (fun _ => !ok) (show [fd].Nodup by simp)
    rw [flatMap_singleton] at hclose hwrite
    have hops : ∀ kind : Nat → FdOp, (∀ n, kind n = .write n ∨ kind n = .close n) → NeverAfterClose kind s.ops →
        NeverAfterClose kind (writeOps (!ok) fd) → NeverAfterClose kind (s.ops ++ writeOps (!ok) fd) := by
      intro kind hkind hold hnew
      refine neverAfterClose_append.mpr ⟨hold, hnew, fun n hn hmem' => ?_⟩
      grind
    refine ⟨?_, ?_, ?_, ?_, ?_, hops _ (fun _ => .inr rfl) honce hclose,
      hops _ (fun _ => .inl rfl) hwritten hwrite, hactive⟩ <;> simp only [step] <;> grind
  | insert fd =>
    simp only [step]
    split
    · refine ⟨?_, ?_, ?_, ?_, ?_, honce, hwritten, by simp⟩ <;> simp only <;> grind
    · exact hsame
  | push =>
    simp only [step]
    split <;> exact { hsame with }
  | write fails =>
    simp only [step]
    split
    · exact hsame
    · next hspawned =>
      have hwaiting : s.waiting = [] := by
        by_contra hne
        exact he ⟨hspawned, hne⟩
      have hnone : s.fds.filter fails = [] ↔ ∀ fd ∈ s.fds, ¬ fails fd = true := filter_eq_nil_iff
      obtain ⟨hclose, hwrite⟩ := neverAfterClose_writes fails hfds
      refine ⟨?_, hnodup, ?_, ?_, ?_, neverAfterClose_append.mpr ⟨honce, hclose, ?_⟩,
        neverAfterClose_append.mpr ⟨hwritten, hwrite, ?_⟩, hactive⟩ <;>
      simp only [mem_append, mem_writes] <;> grind
  | remove task =>
    have hnone : s.waiting[task]? = none := getElem?_eq_none (Nat.le_of_not_lt he)
    simp only [step, hnone]
    exact hsame
  | terminate =>
    have hwaiting : s.waiting = [] := not_not.mp he
    have hopen := hlisted hwaiting
    refine ⟨?_, ?_, ?_, ?_, ?_,
      neverAfterClose_append.mpr ⟨honce, neverAfterClose_closes.mpr hfds, by simpa using fun fd hfd hmem => hopen fd hmem hfd⟩,
      neverAfterClose_append.mpr ⟨hwritten, neverWritten_closes _, by simp⟩, by simp [step]⟩ <;>
    simp only [step] <;> grind

end Pcap

end DcuDaemon.Instance
