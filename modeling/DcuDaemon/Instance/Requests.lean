/-
  Requests to the NCP under every interleaving (`base.rs`: `alloc_tid`, `send_command_timeout`, with the
  frame task of FrameTask.lean).

  Any number of callers are inside `send_command_timeout` at once, each between two of its `await`s; the
  NCP answers, replies queue up in `frame_rx`, the frame task takes them one by one. A TID is a counter
  value modulo 15. The counter is a `u8` that wraps at 256, no multiple of 15, and it is never compared
  with the requests that are still open.

  Main result: `requests_good_iff`.
-/
import DcuDaemon.Instance.FrameTask
import Mathlib.Data.List.Nodup

namespace DcuDaemon.Instance

open Lib Spinel List Option

/-! ## 1. One request -/

/-- `DaemonError`, the cases `send_command_timeout` returns. -/
inductive DaemonError where
  | ncp (msg : String)
  /-- `Ncp` with the text `NCP status {status}: {WpanError::from(status)}`. -/
  | ncpStatus (status : UInt32)
  | cancelled
  deriving DecidableEq, Repr

/-- `alloc_tid`: the TID, and the counter after `fetch_add`. -/
def allocTid (nextTid : UInt8) : UInt8 × UInt8 := (nextTid % 15 + 1, nextTid + 1)

/-- Where a caller of `send_command_timeout` is. -/
inductive Phase where
  /-- The TID is allocated. -/
  | begun
  /-- The sender is in the response table. -/
  | registered
  /-- The frame is sent; the reply or the timeout is awaited. -/
  | waiting
  | returned (result : Except DaemonError SpinelFrame)
  deriving DecidableEq

/-- One call of `send_command_timeout`. -/
structure Request where
  commandId : UInt32
  payload : List UInt8
  /-- The counter value `alloc_tid` fetched. -/
  count : UInt8
  phase : Phase
  /-- What the `oneshot` channel holds. -/
  slot : Option SpinelFrame
  /-- Whether the NCP has answered. -/
  answered : Bool
  deriving DecidableEq

namespace Request

def tid (q : Request) : UInt8 := (allocTid q.count).1

def frame (q : Request) : SpinelFrame := SpinelFrame.withHeader (makeHeader 0 q.tid) q.commandId q.payload

/-- The call has not returned. -/
def outstanding (q : Request) : Bool :=
  match q.phase with
  | .returned _ => false
  | _ => true

end Request

/-- The status check on a reply: a LAST_STATUS value other than 0. -/
def errorStatus (resp : SpinelFrame) : Option UInt32 :=
  if resp.commandId = cmdPropValueIs then
    match (PackReader.new resp.payload).readUintPacked with
    | (.error _, _) => none
    | (.ok prop, r) =>
      if prop = propLastStatus then
        let status := match r.readUintPacked with
          | (.ok status, _) => status
          | (.error _, _) => spinelStatusParseError
        if status ≠ 0 then some status else none
      else none
  else none

/-! ## 2. The system -/

/-- The callers, the response table with the rest of the frame task, and what is under way. -/
structure System (δ μ : Type) where
  /-- `NEXT_TID`. -/
  nextTid : UInt8
  /-- All calls so far; a call's place is its sender in the response table. -/
  requests : List Request
  task : FrameTask Nat δ μ
  /-- Frames handed to the I/O task. -/
  outbound : List SpinelFrame
  /-- `frame_rx`: each frame with the request it answers, `none` for unsolicited ones. -/
  frameRx : List (Option Nat × SpinelFrame)

inductive Event where
  /-- A caller allocates its TID. -/
  | begin (commandId : UInt32) (payload : List UInt8)
  /-- The TID of a CMD_RESET, which nobody waits for. -/
  | reset
  | register (r : Nat)
  /-- `outbound_tx.send`, which fails when the I/O task is gone. -/
  | send (r : Nat) (ok : Bool)
  /-- The NCP answers a request. -/
  | answer (r : Nat) (resp : SpinelFrame)
  | unsolicited (frame : SpinelFrame)
  /-- The frame task takes the next frame. -/
  | process
  /-- A caller finds its reply. -/
  | resume (r : Nat)
  | timeout (r : Nat)
  /-- A caller finds its sender dropped. -/
  | cancelled (r : Nat)
  deriving DecidableEq

namespace System

variable {δ μ : Type}

/-- No call yet; the counter and the handles of the frame task are what they are. -/
def start (nextTid : UInt8) (task : FrameTask Nat δ μ) : System δ μ :=
  ⟨nextTid, [], { task with responseTable := ⟨[]⟩ }, [], []⟩

def table (s : System δ μ) : List (UInt8 × Nat) := s.task.responseTable.pending

def setTable (s : System δ μ) (table : ResponseTable Nat) : System δ μ :=
  { s with task := { s.task with responseTable := table } }

def update (s : System δ μ) (r : Nat) (f : Request → Request) : System δ μ :=
  { s with requests := s.requests.modify r f }

/-- A call returns an error: `unregister`, then the `return`. -/
def fail (s : System δ μ) (r : Nat) (q : Request) (e : DaemonError) : System δ μ :=
  (s.setTable (s.task.responseTable.unregister q.tid)).update r
    fun q => { q with phase := .returned (.error e) }

/-- The frame task on the head of `frame_rx`. -/
def processHead (ops : DatasetOps δ μ) (s : System δ μ) : System δ μ :=
  match s.frameRx with
  | [] => s
  | (_, frame) :: rest =>
    let s' := { s with frameRx := rest, task := (processFrame ops s.task frame).2 }
    match (processFrame ops s.task frame).1 with
    | none => s'
    | some w => s'.update w fun q => { q with slot := some frame }

def resume (s : System δ μ) (r : Nat) (q : Request) : System δ μ :=
  match q.slot with
  | none => s
  | some resp =>
    match errorStatus resp with
    | some status => s.fail r q (.ncpStatus status)
    | none => s.update r fun q => { q with phase := .returned (.ok resp) }

/-- The step of the caller `r`, whose request is `q`. -/
def stepRequest (s : System δ μ) (q : Request) : Event → System δ μ
  | .register r =>
    (s.setTable (s.task.responseTable.register q.tid r)).update r fun q => { q with phase := .registered }
  | .send r true =>
    { s with outbound := s.outbound ++ [q.frame] }.update r fun q => { q with phase := .waiting }
  | .send r false => s.fail r q (.ncp "I/O task not running")
  | .answer r resp =>
    { s with frameRx := s.frameRx ++ [(some r, resp)] }.update r fun q => { q with answered := true }
  | .resume r => s.resume r q
  | .timeout r => s.fail r q (.ncp "timeout")
  | .cancelled r => s.fail r q .cancelled
  | _ => s

end System

def Event.request : Event → Option Nat
  | .register r | .send r _ | .answer r _ | .resume r | .timeout r | .cancelled r => some r
  | _ => none

def Event.unsolicitedFrame : Event → Option SpinelFrame
  | .unsolicited frame => some frame
  | _ => none

namespace System

variable {δ μ : Type}

def step (ops : DatasetOps δ μ) (s : System δ μ) (e : Event) : System δ μ :=
  match e with
  | .begin commandId payload =>
    { s with
      nextTid := (allocTid s.nextTid).2
      requests := s.requests ++ [⟨commandId, payload, s.nextTid, .begun, none, false⟩] }
  | .reset => { s with nextTid := (allocTid s.nextTid).2 }
  | .unsolicited frame => { s with frameRx := s.frameRx ++ [(none, frame)] }
  | .process => s.processHead ops
  | e =>
    match e.request with
    | none => s
    | some r =>
      match s.requests[r]? with
      | none => s
      | some q => s.stepRequest q e

/-- The step of a caller can be taken: program order, and the assumption about the NCP. -/
def CallerEnabled (s : System δ μ) (q : Request) : Event → Prop
  | .register _ => q.phase = .begun
  | .send _ _ => q.phase = .registered
  | .answer _ resp => q.phase = .waiting ∧ q.answered = false ∧ resp.tid = q.frame.tid
  | .resume _ => q.phase = .waiting ∧ q.slot.isSome
  | .timeout _ => q.phase = .waiting ∧ q.slot = none
  | .cancelled r => q.phase = .waiting ∧ q.slot = none ∧ (q.tid, r) ∉ s.table
  | _ => True

/-- **The runs**: calls in program order; a request is answered at most once, with its TID and before it timed
    out. -/
def Enabled (s : System δ μ) (e : Event) : Prop :=
  (∀ frame ∈ e.unsolicitedFrame, frame.tid = 0) ∧ ∀ r ∈ e.request, ∃ q ∈ s.requests[r]?, s.CallerEnabled q e

instance (s : System δ μ) (q : Request) : ∀ e, Decidable (s.CallerEnabled q e)
  | .register _ => inferInstanceAs (Decidable (_ = _))
  | .send _ _ => inferInstanceAs (Decidable (_ = _))
  | .answer _ _ => inferInstanceAs (Decidable (_ ∧ _ ∧ _))
  | .resume _ => inferInstanceAs (Decidable (_ ∧ _))
  | .timeout _ => inferInstanceAs (Decidable (_ ∧ _))
  | .cancelled _ => inferInstanceAs (Decidable (_ ∧ _ ∧ _))
  | .begin _ _ | .reset | .unsolicited _ | .process => isTrue trivial

instance (s : System δ μ) (e : Event) : Decidable (s.Enabled e) := inferInstanceAs (Decidable (_ ∧ _))

end System

/-! ## 3. TIDs -/

/-- Two requests share their TID exactly when their counter values agree modulo 15. -/
theorem tid_eq_iff (q q' : Request) : q.tid = q'.tid ↔ q.count % 15 = q'.count % 15 := by
  unfold Request.tid allocTid
  refine ⟨fun h => ?_, fun h => ?_⟩
  · have hlt (c : UInt8) : (c % 15).toNat < 15 := by
      exact Nat.mod_lt _ (by decide)
    have h' := congrArg UInt8.toNat h
    rw [UInt8.toNat_add, UInt8.toNat_add] at h'
    apply UInt8.toNat_inj.mp
    have h1 := hlt q.count
    have h2 := hlt q'.count
    omega
  · exact congrArg (· + 1) h

theorem frame_tid (q : Request) : q.frame.tid = q.tid ∧ q.tid ≠ 0 := by
  have h : ∀ n : Fin 256, (makeHeader 0 (allocTid (UInt8.ofNat n.val)).1) &&& spinelHeaderTidMask =
      (allocTid (UInt8.ofNat n.val)).1 ∧ (allocTid (UInt8.ofNat n.val)).1 ≠ 0 := by
    decide +kernel
  have hq := h ⟨q.count.toNat, q.count.toNat_lt⟩
  rw [UInt8.ofNat_toNat] at hq
  exact hq

/-! ## 4. The invariant -/

/-- A request that a reply can still be delivered to. -/
def Request.Pending (q : Request) : Prop := (q.phase = .registered ∨ q.phase = .waiting) ∧ q.slot = none

theorem outstanding_of_phase {q : Request} (h : ∀ res, q.phase ≠ .returned res) : q.outstanding := by
  unfold Request.outstanding
  split
  · rename_i res e
    exact absurd e (h res)
  · rfl

theorem Request.Pending.outstanding {q : Request} (h : q.Pending) : q.outstanding := by
  refine outstanding_of_phase fun res e => ?_
  rcases h.1 with e' | e'
  · cases e'.symm.trans e
  · cases e'.symm.trans e

/-- What the requests, the response table and the queued frames have to do with each other. -/
structure Consistent (requests : List Request) (table : List (UInt8 × Nat))
    (rx : List (Option Nat × SpinelFrame)) : Prop where
  /-- Open requests have distinct TIDs. -/
  distinct : ∀ (r r' : Nat) (q q' : Request), requests[r]? = some q → requests[r']? = some q' →
    q.outstanding = true → q'.outstanding = true → r ≠ r' → q.tid ≠ q'.tid
  /-- An entry of the table belongs to an open request without a reply, under its TID. -/
  entry : ∀ t r, (t, r) ∈ table → ∃ q, requests[r]? = some q ∧ t = q.tid ∧ q.Pending
  /-- No request is registered twice. -/
  once : (table.map (·.2)).Nodup
  begun : ∀ (r : Nat) (q : Request), requests[r]? = some q → q.phase = .begun → q.slot = none
  /-- A queued reply carries the TID of the request it answers. -/
  flight : ∀ r f, (some r, f) ∈ rx → ∃ q, requests[r]? = some q ∧ f.tid = q.tid
  unsolicited : ∀ f, (none, f) ∈ rx → f.tid = 0

section Consistent

variable {requests : List Request} {table : List (UInt8 × Nat)} {rx : List (Option Nat × SpinelFrame)}

theorem consistent_start : Consistent [] [] [] := by
  refine ⟨?_, ?_, nodup_nil, ?_, ?_, ?_⟩ <;> intros <;> simp_all

variable {r j w : Nat} {f : Request → Request} {q new : Request} {tbl : ResponseTable Nat} {t : UInt8}

theorem getElem_modify {q' : Request} (h : (requests.modify r f)[j]? = some q') :
    ∃ q, requests[j]? = some q ∧ q' = if r = j then f q else q := by
  rw [getElem?_modify] at h
  obtain ⟨q, hq, e⟩ := map_eq_some_iff.mp h
  exact ⟨q, hq, e.symm⟩

theorem modify_getElem (f : Request → Request) (h : requests[j]? = some q) :
    (requests.modify r f)[j]? = some (if r = j then f q else q) := by
  rw [getElem?_modify, h]
  split <;> rfl

/-- A change of one request that keeps its counter value, opens nothing again and leaves it fit
    for its entry. -/
theorem consistent_modify (h : Consistent requests table rx) (hcount : ∀ q, (f q).count = q.count)
    (hout : ∀ q, requests[r]? = some q → (f q).outstanding → q.outstanding)
    (hbegun : ∀ q, requests[r]? = some q → (f q).phase = .begun → (f q).slot = none)
    (hpend : ∀ t q, (t, r) ∈ table → requests[r]? = some q → q.Pending → (f q).Pending) :
    Consistent (requests.modify r f) table rx := by
  have htid (q : Request) : (f q).tid = q.tid := by
    unfold Request.tid
    rw [hcount]
  have hkeep (j : Nat) (q : Request) : (if r = j then f q else q).tid = q.tid := by
    split
    · exact htid q
    · rfl
  have hopen (j : Nat) (q : Request) (hj : requests[j]? = some q)
      (ho : (if r = j then f q else q).outstanding) : q.outstanding := by
    by_cases hrj : r = j
    · subst hrj
      rw [if_pos rfl] at ho
      exact hout q hj ho
    · rw [if_neg hrj] at ho
      exact ho
  refine ⟨?_, ?_, h.once, ?_, ?_, h.unsolicited⟩
  · intro a b q q' ha hb hoa hob hab
    obtain ⟨p, hp, rfl⟩ := getElem_modify ha
    obtain ⟨p', hp', rfl⟩ := getElem_modify hb
    rw [hkeep, hkeep]
    exact h.distinct a b p p' hp hp' (hopen a p hp hoa) (hopen b p' hp' hob) hab
  · intro t a ha
    obtain ⟨q, hq, ht, hpq⟩ := h.entry t a ha
    refine ⟨_, modify_getElem f hq, by rw [hkeep]; exact ht, ?_⟩
    by_cases hra : r = a
    · subst hra
      rw [if_pos rfl]
      exact hpend t q ha hq hpq
    · rw [if_neg hra]
      exact hpq
  · intro a q ha hq
    obtain ⟨p, hp, rfl⟩ := getElem_modify ha
    by_cases hra : r = a
    · subst hra
      rw [if_pos rfl] at hq ⊢
      exact hbegun p hp hq
    · rw [if_neg hra] at hq ⊢
      exact h.begun a p hp hq
  · intro a g ha
    obtain ⟨q, hq, ht⟩ := h.flight a g ha
    exact ⟨_, modify_getElem f hq, by rw [hkeep]; exact ht⟩

theorem consistent_sublist (h : Consistent requests table rx) {table' : List (UInt8 × Nat)}
    (hs : List.Sublist table' table) : Consistent requests table' rx :=
  ⟨h.distinct, fun t r hr => h.entry t r (hs.subset hr), h.once.sublist (hs.map _), h.begun,
    h.flight, h.unsolicited⟩

theorem consistent_rx (h : Consistent requests table rx) {rx' : List (Option Nat × SpinelFrame)}
    (hs : rx' ⊆ rx) : Consistent requests table rx' :=
  ⟨h.distinct, h.entry, h.once, h.begun, fun r f hr => h.flight r f (hs hr),
    fun f hf => h.unsolicited f (hs hf)⟩

theorem getElem_snoc (h : (requests ++ [new])[r]? = some q) :
    requests[r]? = some q ∨ (r = requests.length ∧ q = new) := by
  rcases Nat.lt_trichotomy r requests.length with hlt | rfl | hgt
  · rw [getElem?_append_left hlt] at h
    exact .inl h
  · rw [getElem?_concat_length] at h
    exact .inr ⟨rfl, (some.inj h).symm⟩
  · rw [getElem?_eq_none (by rw [length_append, length_singleton]; omega)] at h
    cases h

theorem snoc_getElem (new : Request) (h : requests[r]? = some q) : (requests ++ [new])[r]? = some q := by
  obtain ⟨hlt, _⟩ := List.getElem?_eq_some_iff.mp h
  rw [List.getElem?_append_left hlt]
  exact h

theorem consistent_begin (h : Consistent requests table rx) (hslot : new.slot = none)
    (hfresh : ∀ q ∈ requests, q.outstanding → q.tid ≠ new.tid) :
    Consistent (requests ++ [new]) table rx := by
  refine ⟨?_, ?_, h.once, ?_, ?_, h.unsolicited⟩
  · intro a b q q' ha hb hoa hob hab
    rcases getElem_snoc ha with ha' | ⟨rfl, rfl⟩
    · rcases getElem_snoc hb with hb' | ⟨rfl, rfl⟩
      · exact h.distinct a b q q' ha' hb' hoa hob hab
      · exact hfresh q (mem_of_getElem? ha') hoa
    · rcases getElem_snoc hb with hb' | ⟨rfl, rfl⟩
      · exact (hfresh q' (mem_of_getElem? hb') hob).symm
      · exact absurd rfl hab
  · intro t a ha
    obtain ⟨q, hq, ht, hp⟩ := h.entry t a ha
    exact ⟨q, snoc_getElem new hq, ht, hp⟩
  · intro a q ha hq
    rcases getElem_snoc ha with ha | ⟨_, rfl⟩
    · exact h.begun a q ha hq
    · exact hslot
  · intro a f ha
    obtain ⟨q, hq, ht⟩ := h.flight a f ha
    exact ⟨q, snoc_getElem new hq, ht⟩

theorem consistent_register (h : Consistent requests table rx)
    (hq : requests[r]? = some q) (hp : q.Pending) (hr : ∀ t, (t, r) ∉ table) :
    Consistent requests (table ++ [(q.tid, r)]) rx := by
  refine ⟨h.distinct, ?_, ?_, h.begun, h.flight, h.unsolicited⟩
  · intro t a ha
    rcases mem_append.mp ha with ha | ha
    · exact h.entry t a ha
    · obtain ⟨rfl, rfl⟩ := Prod.mk.inj (mem_singleton.mp ha)
      exact ⟨q, hq, rfl, hp⟩
  · rw [map_append]
    refine nodup_append.mpr ⟨h.once, nodup_singleton _, ?_⟩
    intro a ha b hb
    obtain ⟨⟨t, a'⟩, hmem, rfl⟩ := mem_map.mp ha
    rw [mem_singleton.mp hb]
    rintro rfl
    exact hr t hmem

theorem consistent_queue (h : Consistent requests table rx) {o : Option Nat} {f : SpinelFrame}
    (hreply : ∀ r, o = some r → ∃ q, requests[r]? = some q ∧ f.tid = q.tid)
    (hnone : o = none → f.tid = 0) : Consistent requests table (rx ++ [(o, f)]) := by
  refine ⟨h.distinct, h.entry, h.once, h.begun, ?_, ?_⟩
  · intro a g ha
    rcases mem_append.mp ha with ha | ha
    · exact h.flight a g ha
    · obtain ⟨e, rfl⟩ := Prod.mk.inj (mem_singleton.mp ha)
      exact hreply a e.symm
  · intro g hg
    rcases mem_append.mp hg with hg | hg
    · exact h.unsolicited g hg
    · obtain ⟨e, rfl⟩ := Prod.mk.inj (mem_singleton.mp hg)
      exact hnone e.symm

/-- The waiter found under a TID is in the table, and not a second time behind the entry that is
    taken out. -/
theorem waiter_entry (honce : (tbl.pending.map (·.2)).Nodup) (hw : tbl.waiter t = some w) :
    (t, w) ∈ tbl.pending ∧ ∀ t', (t', w) ∉ tbl.pending.eraseP (·.1 == t) := by
  obtain ⟨⟨t', w'⟩, hfind, rfl⟩ := map_eq_some_iff.mp hw
  obtain ⟨hp, before, after, hsplit, hbefore⟩ := find?_eq_some_iff_append.mp hfind
  obtain rfl : t' = t := beq_iff_eq.mp hp
  have hbefore' : ∀ a ∈ before, ¬ (a.1 == t') := by
    intro a ha
    have hna := hbefore a ha
    simpa using hna
  have herase : ((t', w') :: after).eraseP (·.1 == t') = after := eraseP_cons_of_pos hp
  rw [hsplit] at honce ⊢
  rw [eraseP_append_right _ hbefore', herase]
  refine ⟨mem_append_right _ mem_cons_self, fun t'' hmem => ?_⟩
  rw [map_append, map_cons, nodup_middle, nodup_cons] at honce
  refine honce.1 ?_
  rw [← map_append]
  exact mem_map.mpr ⟨_, hmem, rfl⟩

/-- **A reply is delivered**: the entry of the waiter goes, and its slot is filled. -/
theorem consistent_deliver (h : Consistent requests tbl.pending rx)
      (hw : tbl.waiter t = some w) (f : SpinelFrame) :
    Consistent (requests.modify w fun q => { q with slot := some f })
      (tbl.pending.eraseP (·.1 == t)) rx := by
  obtain ⟨hmem, hgone⟩ := waiter_entry h.once hw
  obtain ⟨q, hq, _, hp⟩ := h.entry t w hmem
  have hsub := consistent_sublist h (eraseP_sublist (l := tbl.pending) (p := (·.1 == t)))
  refine consistent_modify hsub (fun _ => rfl) (fun _ _ ho => ho) ?_
    fun t' _ hmem' _ _ => absurd hmem' (hgone t')
  intro q' hq' hbegun
  obtain rfl := some.inj (hq.symm.trans hq')
  rcases hp.1 with e | e
  · cases e.symm.trans hbegun
  · cases e.symm.trans hbegun

end Consistent

/-! ## 5. What a step must keep -/

namespace System

variable {δ μ : Type}

def DistinctTids (s : System δ μ) : Prop :=
  ∀ (r r' : Nat) (q q' : Request), s.requests[r]? = some q → s.requests[r']? = some q' →
    q.outstanding = true → q'.outstanding = true → r ≠ r' → q.tid ≠ q'.tid

/-- **What a step must keep.** -/
structure StepGood (ops : DatasetOps δ μ) (s : System δ μ) (e : Event) : Prop where
  /-- The TIDs of the open requests are pairwise distinct. -/
  distinct : (s.step ops e).DistinctTids
  /-- A frame that the frame task delivers goes to the request it answers. -/
  reply : ∀ o frame rest w, e = .process → s.frameRx = (o, frame) :: rest →
    (processFrame ops s.task frame).1 = some w → o = some w
  /-- A step of one caller takes no other open request out of the response table. -/
  kept : ∀ r, e.request = some r → ∀ r' q', r' ≠ r → s.requests[r']? = some q' →
    q'.outstanding = true → (q'.tid, r') ∈ s.table → (q'.tid, r') ∈ (s.step ops e).table

/-- **The condition**: a TID is allocated while no open request has a counter value of its class modulo 15;
    and a reply to a request that has returned finds no registered one of its class. -/
def FreshTid (s : System δ μ) : Event → Prop
  | .begin _ _ => ∀ q ∈ s.requests, q.outstanding = true → q.count % 15 ≠ s.nextTid % 15
  | .process => ∀ head ∈ s.frameRx.head?, ∀ r ∈ head.1, ∀ q ∈ s.requests[r]?,
      q.outstanding = false → isAddressTableFrame head.2 = false →
      ∀ entry ∈ s.table, ∀ q' ∈ s.requests[entry.2]?, q'.count % 15 ≠ q.count % 15
  | _ => True

instance (s : System δ μ) : ∀ e, Decidable (s.FreshTid e)
  | .begin _ _ => inferInstanceAs (Decidable (∀ q ∈ s.requests, _))
  | .process => inferInstanceAs (Decidable (∀ head ∈ s.frameRx.head?, _))
  | .reset | .unsolicited _ | .register _ | .send _ _ | .answer _ _ | .resume _ | .timeout _
  | .cancelled _ => isTrue trivial

def Inv (s : System δ μ) : Prop := Consistent s.requests s.table s.frameRx

variable {ops : DatasetOps δ μ} {s : System δ μ}

theorem inv_start (nextTid : UInt8) (task : FrameTask Nat δ μ) : (start nextTid task).Inv :=
  consistent_start

variable {r : Nat} {q : Request} {frame : SpinelFrame} {e : Event}

section Caller

variable (h : s.Inv) (hq : s.requests[r]? = some q)

include h hq

theorem inv_fail (e : DaemonError) : (s.fail r q e).Inv := by
  have hsub : Consistent s.requests (s.table.filter (·.1 != q.tid)) s.frameRx :=
    consistent_sublist h filter_sublist
  refine consistent_modify hsub (fun _ => rfl) (fun _ _ ho => ?_) (fun _ _ hb => ?_)
    fun t q' hmem hq' _ => ?_
  · cases ho
  · cases hb
  · obtain ⟨hmem, ht⟩ := mem_filter.mp hmem
    obtain ⟨p, hp, rfl, _⟩ := h.entry t r hmem
    obtain rfl := some.inj (hq.symm.trans hp)
    simp at ht

theorem inv_returnOk (hslot : q.slot.isSome) (resp : SpinelFrame) :
    (s.update r fun q => { q with phase := .returned (.ok resp) }).Inv := by
  refine consistent_modify h (fun _ => rfl) (fun _ _ ho => ?_) (fun _ _ hb => ?_) fun t q' _ hq' hp => ?_
  · cases ho
  · cases hb
  · obtain rfl := some.inj (hq.symm.trans hq')
    rw [hp.2] at hslot
    cases hslot

theorem inv_resume (hslot : q.slot.isSome) : (s.resume r q).Inv := by
  unfold System.resume
  cases hs : q.slot with
  | none => exact h
  | some resp =>
    dsimp only
    cases errorStatus resp with
    | none => exact inv_returnOk h hq hslot resp
    | some status => exact inv_fail h hq _

theorem inv_register (hb : q.phase = .begun) : (s.stepRequest q (.register r)).Inv := by
  -- a request that has only begun has no entry
  have hnone : ∀ t, (t, r) ∉ s.table := by
    intro t hmem
    obtain ⟨p, hp, _, hpend⟩ := h.entry t r hmem
    obtain rfl := some.inj (hq.symm.trans hp)
    rcases hpend.1 with e | e
    · cases e.symm.trans hb
    · cases e.symm.trans hb
  have hmod : Consistent (s.requests.modify r fun q => { q with phase := .registered }) s.table
      s.frameRx := by
    refine consistent_modify h (fun _ => rfl) (fun p hp _ => ?_) (fun _ _ hb => ?_)
      fun t _ hmem _ _ => absurd hmem (hnone t)
    · obtain rfl := some.inj (hq.symm.trans hp)
      exact outstanding_of_phase (fun res e => (by cases e.symm.trans hb))
    · cases hb
  have hq' := modify_getElem (r := r) (fun q => { q with phase := .registered }) hq
  rw [if_pos rfl] at hq'
  have hreg := consistent_register hmod hq' ⟨.inl rfl, h.begun r q hq hb⟩ hnone
  exact hreg

theorem inv_send (hph : q.phase = .registered) : (s.stepRequest q (.send r true)).Inv := by
  refine consistent_modify h (fun _ => rfl) (fun p hp _ => ?_) (fun _ _ hb => ?_)
    fun _ _ _ _ hp => ⟨.inr rfl, hp.2⟩
  · obtain rfl := some.inj (hq.symm.trans hp)
    exact outstanding_of_phase fun res e => (by cases e.symm.trans hph)
  · cases hb

theorem inv_answer
    {resp : SpinelFrame} (htid : resp.tid = q.frame.tid) : (s.stepRequest q (.answer r resp)).Inv := by
  have hqueue : Consistent s.requests s.table (s.frameRx ++ [(some r, resp)]) := by
    refine consistent_queue h (fun r' e => ?_) fun e => (by cases e)
    obtain rfl := some.inj e
    exact ⟨q, hq, htid.trans (frame_tid q).1⟩
  exact consistent_modify hqueue (fun _ => rfl) (fun _ _ ho => ho)
    (fun p hp hb => h.begun r p hp hb) fun _ _ _ _ hp => hp

end Caller

/-- **The next frame**: entries only go, and it is delivered to the first waiter of its TID, unless an address
    table. -/
theorem process_spec (ops : DatasetOps δ μ) (s : System δ μ) (frame : SpinelFrame) :
    List.Sublist (processFrame ops s.task frame).2.responseTable.pending s.table ∧
      ∀ w, (processFrame ops s.task frame).1 = some w ↔
        frame.tid ≠ 0 ∧ isAddressTableFrame frame = false ∧
          s.task.responseTable.waiter frame.tid = some w := by
  by_cases htid : frame.tid = 0
  · obtain ⟨hnone, htable⟩ := processFrame_unsolicited ops s.task htid
    rw [htable, hnone]
    exact ⟨List.Sublist.refl _, fun w => ⟨fun e => (by cases e), fun e => absurd htid e.1⟩⟩
  · have hp := processFrame_tid ops s.task htid
    cases ha : isAddressTableFrame frame with
    | true =>
      rw [ha, Prod.mk.injEq] at hp
      rw [hp.1, hp.2]
      exact ⟨List.Sublist.refl _, fun w => ⟨fun e => (by cases e), fun e => (by cases e.2.1)⟩⟩
    | false =>
      rw [ha, ResponseTable.deliver_spec _ htid, Prod.mk.injEq] at hp
      rw [hp.1, hp.2]
      exact ⟨eraseP_sublist, fun w => ⟨fun e => ⟨htid, rfl, e⟩, fun e => e.2.2⟩⟩

theorem process_table (ops : DatasetOps δ μ) (s : System δ μ) (htid : frame.tid ≠ 0)
    (ha : isAddressTableFrame frame = false) : (processFrame ops s.task frame).2.responseTable.pending =
      s.table.eraseP (·.1 == frame.tid) := by
  have hp := processFrame_tid ops s.task htid
  rw [ha, ResponseTable.deliver_spec _ htid, Prod.mk.injEq] at hp
  rw [hp.2]
  rfl

theorem inv_process (ops : DatasetOps δ μ) (h : s.Inv) : (s.processHead ops).Inv := by
  unfold System.processHead
  split
  · exact h
  · rename_i o frame rest hrx
    obtain ⟨hsub, hiff⟩ := process_spec ops s frame
    have hrest : Consistent s.requests s.task.responseTable.pending rest :=
      consistent_rx h (by rw [hrx]; exact subset_cons_self _ _)
    dsimp only
    split
    · exact consistent_sublist hrest hsub
    · rename_i w hw
      obtain ⟨htid, ha, hwait⟩ := (hiff w).mp hw
      show Consistent _ (processFrame ops s.task frame).2.responseTable.pending rest
      rw [process_table ops s htid ha]
      exact consistent_deliver hrest hwait frame

theorem step_request (ops : DatasetOps δ μ)
    (he : e.request = some r) (hq : s.requests[r]? = some q) : s.step ops e = s.stepRequest q e := by
  cases e <;> simp_all [Event.request, System.step]

theorem outstanding_of_enabled (he : e.request = some r) (hen : s.CallerEnabled q e) : q.outstanding := by
  refine outstanding_of_phase fun res hres => ?_
  cases e <;> simp_all [Event.request, System.CallerEnabled]

/-- **A step of a caller keeps the invariant.** -/
theorem inv_stepRequest (h : s.Inv) (he : e.request = some r)
    (hq : s.requests[r]? = some q) (hen : s.CallerEnabled q e) : (s.stepRequest q e).Inv := by
  cases e with
  | register r' =>
    obtain rfl := some.inj he
    exact inv_register h hq hen
  | send r' ok =>
    obtain rfl := some.inj he
    cases ok with
    | true => exact inv_send h hq hen
    | false => exact inv_fail h hq _
  | answer r' resp =>
    obtain rfl := some.inj he
    exact inv_answer h hq hen.2.2
  | resume r' =>
    obtain rfl := some.inj he
    exact inv_resume h hq hen.2
  | timeout r' =>
    obtain rfl := some.inj he
    exact inv_fail h hq _
  | cancelled r' =>
    obtain rfl := some.inj he
    exact inv_fail h hq _
  | begin c p => cases he
  | reset => cases he
  | unsolicited f => cases he
  | process => cases he

/-- **Every step that meets the condition keeps the invariant.** -/
theorem inv_step (ops : DatasetOps δ μ) (h : s.Inv) (he : s.Enabled e)
    (hf : s.FreshTid e) : (s.step ops e).Inv := by
  cases hr : e.request with
  | some r =>
    obtain ⟨q, hq, hen⟩ := he.2 r hr
    rw [step_request ops hr hq]
    exact inv_stepRequest h hr hq hen
  | none =>
    cases e with
    | begin c p =>
      exact consistent_begin h rfl fun q hq ho htid => hf q hq ho ((tid_eq_iff _ _).mp htid)
    | reset => exact h
    | unsolicited f => exact consistent_queue h (fun r e => (by cases e)) fun _ => he.1 f rfl
    | process => exact inv_process ops h
    | register r => cases hr
    | send r ok => cases hr
    | answer r resp => cases hr
    | resume r => cases hr
    | timeout r => cases hr
    | cancelled r => cases hr

theorem kept_stepRequest (h : s.Inv) {r' : Nat} {q' : Request}
    (he : e.request = some r) (hq : s.requests[r]? = some q) (hen : s.CallerEnabled q e)
    (hne : r' ≠ r) (hq' : s.requests[r']? = some q') (ho' : q'.outstanding)
    (hmem : (q'.tid, r') ∈ s.table) : (q'.tid, r') ∈ (s.stepRequest q e).table := by
  have htid : q'.tid ≠ q.tid := h.distinct r' r q' q hq' hq ho' (outstanding_of_enabled he hen) hne
  have hfail (a : Nat) (err : DaemonError) : (q'.tid, r') ∈ (s.fail a q err).table :=
    mem_filter.mpr ⟨hmem, by simpa using htid⟩
  cases e with
  | register a => exact mem_append_left _ hmem
  | send a ok =>
    cases ok with
    | true => exact hmem
    | false => exact hfail a _
  | answer a resp => exact hmem
  | resume a =>
    show _ ∈ (s.resume a q).table
    unfold System.resume
    split
    · exact hmem
    · split
      · exact hfail a _
      · exact hmem
  | timeout a => exact hfail a _
  | cancelled a => exact hfail a _
  | begin c p => cases he
  | reset => cases he
  | unsolicited f => cases he
  | process => cases he

theorem reply_of_fresh (ops : DatasetOps δ μ) (h : s.Inv) (hf : s.FreshTid .process)
    {o : Option Nat} {rest : List (Option Nat × SpinelFrame)} {w : Nat}
    (hrx : s.frameRx = (o, frame) :: rest) (hw : (processFrame ops s.task frame).1 = some w) :
    o = some w := by
  obtain ⟨htid, ha, hwait⟩ := ((process_spec ops s frame).2 w).mp hw
  have hmem := (waiter_entry h.once hwait).1
  obtain ⟨qw, hqw, ht, hpend⟩ := h.entry _ w hmem
  have hhead : (o, frame) ∈ s.frameRx := by
    rw [hrx]
    exact mem_cons_self
  cases o with
  | none => exact absurd (h.unsolicited frame hhead) htid
  | some r =>
    obtain ⟨q, hq, hr⟩ := h.flight r frame hhead
    have hsame : qw.tid = q.tid := ht.symm.trans hr
    by_cases hrw : r = w
    · rw [hrw]
    · cases ho : q.outstanding with
      | true => exact absurd hsame (h.distinct w r qw q hqw hq hpend.outstanding ho (Ne.symm hrw))
      | false =>
        have hhead' : (some r, frame) ∈ s.frameRx.head? := by rw [hrx]; rfl
        exact absurd ((tid_eq_iff _ _).mp hsame) (hf _ hhead' r rfl q hq ho ha _ hmem qw hqw)

theorem fresh_of_distinct {c : UInt32} {p : List UInt8}
    (hd : (s.step ops (.begin c p)).DistinctTids) : s.FreshTid (.begin c p) := by
  intro q hq ho hcount
  obtain ⟨r, hr⟩ := List.getElem?_of_mem hq
  obtain ⟨hlt, _⟩ := List.getElem?_eq_some_iff.mp hr
  exact hd r s.requests.length q ⟨c, p, s.nextTid, .begun, none, false⟩ (snoc_getElem _ hr)
    List.getElem?_concat_length ho rfl (Nat.ne_of_lt hlt) ((tid_eq_iff _ _).mpr hcount)

theorem fresh_of_reply (h : s.Inv) (hg : s.StepGood ops .process) : s.FreshTid .process := by
  rintro ⟨o, frame⟩ hhead r rfl q hq ho ha ⟨t, r'⟩ hmem q' hq' hcount
  obtain ⟨rest, hrx⟩ := head?_eq_some_iff.mp hhead
  obtain ⟨p, hp, rfl, _⟩ := h.entry t r' hmem
  obtain rfl := some.inj (hq'.symm.trans hp)
  obtain ⟨p, hp, htid⟩ := h.flight r frame (by rw [hrx]; exact mem_cons_self)
  obtain rfl := some.inj (hq.symm.trans hp)
  rw [(tid_eq_iff _ _).mpr hcount, ← htid] at hmem
  -- some entry has the TID of the frame, so a waiter is found
  have hsome : (s.task.responseTable.pending.find? (·.1 == frame.tid)).isSome :=
    find?_isSome.mpr ⟨_, hmem, beq_self_eq_true _⟩
  obtain ⟨entry, hfind⟩ := isSome_iff_exists.mp hsome
  have hwait : s.task.responseTable.waiter frame.tid = some entry.2 := by
    unfold ResponseTable.waiter
    rw [hfind]
    rfl
  have hne : frame.tid ≠ 0 := htid ▸ (frame_tid q).2
  have hw := ((process_spec ops s frame).2 entry.2).mpr ⟨hne, ha, hwait⟩
  obtain rfl := some.inj (hg.reply _ _ _ _ rfl hrx hw)
  obtain ⟨p, hp, _, hpend⟩ := h.entry _ _ (waiter_entry h.once hwait).1
  obtain rfl := some.inj (hq.symm.trans hp)
  rw [hpend.outstanding] at ho
  cases ho

/-- **One step**: it keeps what it must exactly when it meets the condition. -/
theorem stepGood_iff (ops : DatasetOps δ μ) (h : s.Inv) (he : s.Enabled e) :
    s.StepGood ops e ↔ s.FreshTid e := by
  refine ⟨fun hg => ?_, fun hf => ⟨(inv_step ops h he hf).distinct, ?_, ?_⟩⟩
  · cases e with
    | begin c p => exact fresh_of_distinct hg.distinct
    | process => exact fresh_of_reply h hg
    | reset => exact trivial
    | unsolicited f => exact trivial
    | register r => exact trivial
    | send r ok => exact trivial
    | answer r resp => exact trivial
    | resume r => exact trivial
    | timeout r => exact trivial
    | cancelled r => exact trivial
  · rintro o frame rest w rfl hrx hw
    exact reply_of_fresh ops h hf hrx hw
  · intro r hr r' q' hne hq' ho' hmem
    obtain ⟨q, hq, hen⟩ := he.2 r hr
    rw [step_request ops hr hq]
    exact kept_stepRequest h hr hq hen hne hq' ho' hmem

end System

/-- **When TIDs keep requests apart**: exactly if every TID is allocated while no open request has a counter
    value of its class modulo 15, and no late reply finds a registered request of its class. -/
theorem requests_good_iff {δ μ : Type} (ops : DatasetOps δ μ) (nextTid : UInt8)
    (task : FrameTask Nat δ μ) (events : List Event)
    (h : Along (System.step ops) System.Enabled (System.start nextTid task) events) :
    Along (System.step ops) (System.StepGood ops) (System.start nextTid task) events ↔
      Along (System.step ops) System.FreshTid (System.start nextTid task) events :=
  along_iff (fun _ _ hi he hf => System.inv_step ops hi he hf)
    (fun _ _ hi he => System.stepGood_iff ops hi he) (System.inv_start nextTid task) h

/-- Two requests under way at once; the first is answered, the second times out. -/
theorem requests_good_two :
    Along (System.step idleOps) (System.StepGood idleOps) (System.start 14 idleTask)
      [.begin 2 [], .begin 2 [], .register 1, .register 0, .send 0 true, .send 1 true,
        .answer 0 ⟨makeHeader 0 15, cmdPropValueIs, [0, 0]⟩, .process, .timeout 1, .resume 0] :=
  (requests_good_iff idleOps 14 idleTask _ (by decide +kernel)).mpr (by decide +kernel)

/-- A request from its TID to its reply with status 0, when the counter starts at 0. -/
def answeredRequest (r : Nat) : List Event :=
  [.begin 2 [], .register r, .send r true,
    .answer r ⟨makeHeader 0 (UInt8.ofNat (r + 1)), cmdPropValueIs, [0, 0]⟩, .process, .resume r]

/-- One request that stays open, while fourteen others come and go one after the other. -/
def openRequestRun : List Event :=
  [.begin 2 [], .register 0, .send 0 true] ++
    [1, 2, 3, 4, 5, 6, 7, 8, 9, 10, 11, 12, 13, 14].flatMap answeredRequest

/-- **Two requests are open with TID 1**, and the reply to the second goes to the first. -/
theorem tid_shared_with_open_request :
    let reply : SpinelFrame := ⟨makeHeader 0 1, cmdPropValueIs, [0, 0]⟩
    let events := openRequestRun ++ [.begin 2 [], .register 15, .send 15 true, .answer 15 reply, .process]
    Along (System.step idleOps) System.Enabled (System.start 0 idleTask) events ∧
      Along (System.step idleOps) (fun s _ => (s.requests.filter (·.outstanding)).length ≤ 2)
        (System.start 0 idleTask) events ∧
      ¬ Along (System.step idleOps) (System.StepGood idleOps) (System.start 0 idleTask) events ∧
      (run (System.step idleOps) (System.start 0 idleTask) events).requests[0]? =
        some ⟨2, [], 0, .waiting, some reply, false⟩ := by
  refine ⟨by decide +kernel, by decide +kernel, fun h => ?_, by decide +kernel⟩
  have hlast := (along_append.mp h).2.1.distinct
  exact hlast 0 15 ⟨2, [], 0, .waiting, none, false⟩ ⟨2, [], 15, .begun, none, false⟩
    (by decide +kernel) (by decide +kernel) rfl rfl (by decide) (by decide)

end DcuDaemon.Instance
