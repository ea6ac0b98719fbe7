/-
  What the tasks of the daemon are made of (`crates/dcu-tunnel-daemon/src/instance/base.rs`:
  `send_command_timeout`, `send_prop_set`, `wait_for_state`, `wait_for_driver_ready`, `set_ncp_state`).

  The commands of the daemon run one after the other in its main loop. Each of them is a task: it
  exchanges frames with the NCP, waits for states and sets states. What the NCP sends while an exchange
  waits is any list of frames; they go through the frame task, and the exchange succeeds if one of them
  is handed to its waiter and reports no error.

  Only tasks set the NCP state, and no other task runs meanwhile. So a state that is waited for is there
  at once, or the wait runs into its timeout.

  Main results: `chains_exchanged`, `sat_sendCommand`.
-/
import DcuDaemon.Instance.Passthrough
import DcuDaemon.Instance.Requests
import DcuDaemon.Lib.Routine

namespace DcuDaemon.Dbus.NcpState

open List

def isAssociated : NcpState → Bool
  | .associated | .isolated | .netWakeWaking | .netWakeAsleep => true
  | _ => false

def isInitializing : NcpState → Bool
  | .uninitialized | .upgrading => true
  | _ => false

end DcuDaemon.Dbus.NcpState

namespace DcuDaemon.Tasks

open Dbus Instance Lib Spinel

/-! ## 1. The instance -/

inductive DriverState where
  | initializing
  | initializingWaitingForReset
  | normalOperation
  deriving DecidableEq

/-- The settings that `set_ncp_state` looks at. -/
structure NcpConfig where
  daemonTerminateOnFault : Bool
  daemonAutoAssociateAfterReset : Bool
  ncTxPower : Option Int8
  ncCcaThreshold : Option Int8

/-- An exchange with the NCP, and whether it succeeded. -/
structure Exchange where
  commandId : UInt32
  payload : List UInt8
  acked : Bool
  deriving DecidableEq

/-- `NcpInstanceBase`, as far as the tasks use it. `DaemonState.dataset` is in the frame task. -/
structure NcpBase (δ μ : Type) where
  ncpState : NcpState
  driverState : DriverState
  capabilities : List UInt32
  config : NcpConfig
  sharedState : DaemonState
  /-- `NEXT_TID`. -/
  nextTid : UInt8
  /-- The waiters are the numbers of the exchanges. -/
  task : FrameTask Nat δ μ
  /-- The exchanges so far. -/
  exchanges : List Exchange

/-- The other side: whether a frame is taken, and what comes in while the exchange with this number waits. -/
structure NcpLink where
  outboundOpen : Nat → Bool
  arrivals : Nat → SpinelFrame → List SpinelFrame

abbrev NcpTask (δ μ α : Type) := Routine DaemonError (NcpBase δ μ) α

section Exchanges

variable {δ μ : Type} (ops : DatasetOps δ μ) (link : NcpLink)

/-! ## 2. Exchanges -/

/-- The frame task over what comes in; the first frame that is handed to the waiter is the reply. -/
def receive (waiter : Nat) : FrameTask Nat δ μ → List SpinelFrame → Option SpinelFrame × FrameTask Nat δ μ
  | t, [] => (none, t)
  | t, frame :: frames =>
    let (taken, t) := processFrame ops t frame
    let (reply, t) := receive waiter t frames
    (if taken = some waiter then some frame else reply, t)

/-- `send_command_timeout` from the sending on: the result, and the frame task afterwards. -/
def awaitReply (waiter : Nat) (tid : UInt8) (frame : SpinelFrame) (t : FrameTask Nat δ μ) :
    Except DaemonError SpinelFrame × FrameTask Nat δ μ :=
  let unregister (t : FrameTask Nat δ μ) := { t with responseTable := t.responseTable.unregister tid }
  if link.outboundOpen waiter then
    match receive ops waiter t (link.arrivals waiter frame) with
    | (some resp, t) =>
      match errorStatus resp with
      | some status => (.error (.ncpStatus status), unregister t)
      | none => (.ok resp, t)
    | (none, t) => (.error (.ncp "timeout"), unregister t)
  else (.error (.ncp "I/O task not running"), unregister t)

variable (commandId : UInt32) (payload : List UInt8) (s : NcpBase δ μ)

/-- The result of `send_command_timeout` from a state, and the frame task afterwards. -/
def reply : Except DaemonError SpinelFrame × FrameTask Nat δ μ :=
  let tid := (allocTid s.nextTid).1
  let waiter := s.exchanges.length
  awaitReply ops link waiter tid (SpinelFrame.withHeader (makeHeader 0 tid) commandId payload)
    { s.task with responseTable := s.task.responseTable.register tid waiter }

/-- The exchange would succeed. -/
def acked : Bool := (reply ops link commandId payload s).1.isOk

/-- The instance after the exchange. -/
def exchanged : NcpBase δ μ :=
  { s with
    nextTid := (allocTid s.nextTid).2
    task := (reply ops link commandId payload s).2
    exchanges := s.exchanges ++ [⟨commandId, payload, acked ops link commandId payload s⟩] }

/-- `send_command_timeout`, `send_command`: how long to wait is no matter here. -/
def sendCommand : NcpTask δ μ SpinelFrame := fun s =>
  some ((reply ops link commandId payload s).1, exchanged ops link commandId payload s)

def sendPropSet (prop : UInt32) (payload : List UInt8) : NcpTask δ μ SpinelFrame := do
  let payload ← Routine.orAbort (propValueSet prop payload)
  sendCommand ops link cmdPropValueSet payload

/-- **An exchange** succeeds or fails. -/
theorem sendCommand_cases :
    (∃ resp, acked ops link commandId payload s ∧ sendCommand ops link commandId payload s =
          some (.ok resp, exchanged ops link commandId payload s)) ∨
      ∃ e, acked ops link commandId payload s = false ∧ sendCommand ops link commandId payload s =
          some (.error e, exchanged ops link commandId payload s) := by
  unfold acked sendCommand
  cases (reply ops link commandId payload s).1 with
  | ok resp => exact .inl ⟨resp, rfl, rfl⟩
  | error e => exact .inr ⟨e, rfl, rfl⟩

variable {prop commandId : UInt32} {pred : NcpState → Bool} {s : NcpBase δ μ} {state : NcpState}
  {payload : List UInt8}

theorem sendPropSet_eq (h : prop ≤ spinelMaxUintPacked) (payload : List UInt8) :
    sendPropSet ops link prop payload =
      sendCommand ops link cmdPropValueSet (PackWriter.uintPackedBytes prop ++ payload) := by
  rw [sendPropSet, propValueSet_eq h]
  rfl

theorem returns_sendCommand (commandId : UInt32) (payload : List UInt8) :
    Routine.Returns (sendCommand ops link commandId payload : NcpTask δ μ SpinelFrame) := by
  intro s h
  cases h

theorem returns_sendPropSet (h : prop ≤ spinelMaxUintPacked) (payload : List UInt8) :
    Routine.Returns (sendPropSet ops link prop payload : NcpTask δ μ SpinelFrame) := by
  rw [sendPropSet_eq ops link h]
  exact returns_sendCommand ops link _ _

/-! ## 3. States -/

def waitForState (pred : NcpState → Bool) : NcpTask δ μ Unit := fun s =>
  if pred s.ncpState then some (.ok (), s)
  else some (.error (.ncp "timeout waiting for NCP state"), s)

theorem waitForState_of_true (h : pred s.ncpState) : waitForState pred s = some (.ok (), s) := if_pos h

theorem waitForState_of_false (h : pred s.ncpState = false) :
    waitForState pred s = some (.error (.ncp "timeout waiting for NCP state"), s) :=
  if_neg (by simp [h])

theorem returns_waitForState (pred : NcpState → Bool) :
    Routine.Returns (waitForState pred : NcpTask δ μ Unit) := by
  intro s
  unfold waitForState
  split
  · simp
  · simp

def waitForDriverReady : NcpTask δ μ Unit := fun s =>
  if s.driverState = .normalOperation then some (.ok (), s) else some (.error .cancelled, s)

theorem returns_waitForDriverReady : Routine.Returns (waitForDriverReady : NcpTask δ μ Unit) := by
  intro s
  unfold waitForDriverReady
  split
  · simp
  · simp

/-- What a state does to `DaemonState`. -/
def enterState (state : NcpState) (ds : DaemonState) : DaemonState :=
  let ds := { ds with ncpState := state }
  match state with
  | .offline => { ds with isConnected := false, isCommissioned := false }
  | .associated | .isolated => { ds with isConnected := true }
  | .uninitialized =>
    { ds with
      isConnected := false
      isCommissioned := false
      networkName := ""
      panId := 0xABCD
      xpanId := []
      networkKey := [] }
  | _ => ds

def capMcuPowerState : UInt32 := 13
def propMcuPowerState : UInt32 := 13
def mcuPowerStateLowPower : UInt8 := 1
def propNetStackUp : UInt32 := 0x42
def propPhyTxPower : UInt32 := 0x25
def propPhyCcaThreshold : UInt32 := 0x24

/-- `set_ncp_state`, without the TUN interface, the retained network and the timer of the sleep. -/
def setNcpState (state : NcpState) : NcpTask δ μ Unit := do
  let s ← Routine.get
  let old := s.ncpState
  if old = state then pure ()
  else
    Routine.modify fun s => { s with ncpState := state }
    if state = .deepSleep ∧ capMcuPowerState ∈ s.capabilities then
      Routine.attempt (sendPropSet ops link propMcuPowerState [mcuPowerStateLowPower])
    -- `std::process::exit(1)`
    if state = .fault ∧ s.config.daemonTerminateOnFault then Routine.abort
    Routine.modify fun s => { s with sharedState := enterState state s.sharedState }
    if s.config.daemonAutoAssociateAfterReset ∧ old.isInitializing ∧ state = .offline then
      Routine.attempt (sendPropSet ops link propNetStackUp [1])
    if old.isInitializing ∧ state = .offline then
      Routine.whenSome s.config.ncTxPower fun power =>
        Routine.attempt (sendPropSet ops link propPhyTxPower [power.toUInt8])
      Routine.whenSome s.config.ncCcaThreshold fun threshold =>
        Routine.attempt (sendPropSet ops link propPhyCcaThreshold [threshold.toUInt8])

/-- States that are set without an exchange. -/
def Quiet (state : NcpState) : Prop := state ≠ .deepSleep ∧ state ≠ .fault ∧ state ≠ .offline

instance (state : NcpState) : Decidable (Quiet state) := inferInstanceAs (Decidable (_ ∧ _))

def NcpBase.entered (s : NcpBase δ μ) (state : NcpState) : NcpBase δ μ :=
  if s.ncpState = state then s
  else { s with ncpState := state, sharedState := enterState state s.sharedState }

theorem setNcpState_of_quiet (h : Quiet state) (s : NcpBase δ μ) :
    setNcpState ops link state s = some (.ok (), s.entered state) := by
  obtain ⟨hsleep, hfault, hoffline⟩ := h
  unfold setNcpState NcpBase.entered
  rw [Routine.bind_ok (show Routine.get s = some (.ok s, s) from rfl)]
  by_cases hold : s.ncpState = state
  · rw [if_pos hold, if_pos hold]
    rfl
  · rw [if_neg hold, if_neg hold]
    simp only [hsleep, hfault, hoffline, and_false]
    rfl

theorem NcpBase.entered_sharedState (h : s.ncpState ≠ state) :
    (s.entered state).sharedState = enterState state s.sharedState := by
  rw [NcpBase.entered, if_neg h]

@[simp] theorem NcpBase.entered_exchanges (s : NcpBase δ μ) (state : NcpState) :
    (s.entered state).exchanges = s.exchanges := by
  unfold NcpBase.entered
  split
  · rfl
  · rfl

@[simp] theorem NcpBase.entered_ncpState (s : NcpBase δ μ) (state : NcpState) :
    (s.entered state).ncpState = state := by
  unfold NcpBase.entered
  split
  · assumption
  · rfl

@[simp] theorem acked_entered (commandId : UInt32) (payload : List UInt8) (s : NcpBase δ μ)
    (state : NcpState) :
    acked ops link commandId payload (s.entered state) = acked ops link commandId payload s := by
  unfold NcpBase.entered
  split
  · rfl
  · rfl

/-! ## 4. Tasks that only exchange -/

/-- **Exchanges only**: the state stays, they are of this kind, and an error is returned exactly if one
    failed. -/
structure Exchanged (P : UInt32 → List UInt8 → Prop) (s : NcpBase δ μ) (o : Option DaemonError)
    (s' : NcpBase δ μ) : Prop where
  ncpState : s'.ncpState = s.ncpState
  sharedState : s'.sharedState = s.sharedState
  made : ∃ new, s'.exchanges = s.exchanges ++ new ∧ (∀ x ∈ new, P x.commandId x.payload) ∧
    (o = none ↔ ∀ x ∈ new, x.acked = true)

/-- The same, whatever the task returns. -/
structure Kept (P : UInt32 → List UInt8 → Prop) (s s' : NcpBase δ μ) : Prop where
  ncpState : s'.ncpState = s.ncpState
  sharedState : s'.sharedState = s.sharedState
  made : ∃ new, s'.exchanges = s.exchanges ++ new ∧ ∀ x ∈ new, P x.commandId x.payload

theorem Exchanged.kept {P : UInt32 → List UInt8 → Prop} {s' : NcpBase δ μ} {o : Option DaemonError}
    (h : Exchanged P s o s') : Kept P s s' := by
  obtain ⟨new, hnew, hP, -⟩ := h.made
  exact ⟨h.ncpState, h.sharedState, new, hnew, hP⟩

theorem chains_exchanged (P : UInt32 → List UInt8 → Prop) :
    Routine.Chains (Exchanged P : NcpBase δ μ → Option DaemonError → NcpBase δ μ → Prop) where
  refl s := ⟨rfl, rfl, [], by simp⟩
  trans := by
    intro s s₁ s' o h h'
    obtain ⟨new, hnew, hP, hok⟩ := h.made
    obtain ⟨new', hnew', hP', hok'⟩ := h'.made
    refine ⟨h'.ncpState.trans h.ncpState, h'.sharedState.trans h.sharedState, new ++ new', ?_, ?_, ?_⟩
    · rw [hnew', hnew, List.append_assoc]
    · intro x hx
      exact (List.mem_append.mp hx).elim (hP x) (hP' x)
    · rw [hok', List.forall_mem_append]
      exact (and_iff_right (hok.mp rfl)).symm

variable {P : UInt32 → List UInt8 → Prop}

/-- **One exchange.** -/
theorem sat_sendCommand (h : P commandId payload) :
    Routine.Sat (sendCommand ops link commandId payload) (Exchanged P) := by
  intro s r s' hrun
  have hkind : ∀ x ∈ [(⟨commandId, payload, acked ops link commandId payload s⟩ : Exchange)],
      P x.commandId x.payload := by
    intro x hx
    rw [List.mem_singleton.mp hx]
    exact h
  obtain ⟨resp, hacked, hsend⟩ | ⟨e, hacked, hsend⟩ := sendCommand_cases ops link commandId payload s
  · rw [hsend] at hrun
    cases hrun
    exact ⟨rfl, rfl, _, rfl, hkind, by simp [Routine.errorOf, hacked]⟩
  · rw [hsend] at hrun
    cases hrun
    exact ⟨rfl, rfl, _, rfl, hkind, by simp [Routine.errorOf, hacked]⟩

theorem sat_sendPropSet (h : P cmdPropValueSet (PackWriter.uintPackedBytes prop ++ payload)) :
    Routine.Sat (sendPropSet ops link prop payload) (Exchanged P) := by
  intro s r s' hrun
  by_cases hprop : prop ≤ spinelMaxUintPacked
  · rw [sendPropSet_eq ops link hprop] at hrun
    exact sat_sendCommand ops link h s r s' hrun
  · rw [sendPropSet, propValueSet, PackWriter.writeUintPacked, if_neg hprop] at hrun
    cases hrun

end Exchanges

end DcuDaemon.Tasks
