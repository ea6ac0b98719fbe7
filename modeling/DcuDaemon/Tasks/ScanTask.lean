/-
  The scan (`crates/dcu-tunnel-daemon/src/tasks/scan.rs`: `scan`;
  `crates/dcu-tunnel-daemon/src/instance/base.rs`: `register_scan_collector`,
  `unregister_scan_collector`; `crates/wisun-types/src/network_config.rs`: `ChannelMask`).

  The scan registers a channel for the beacons before its two exchanges and takes it off again when the
  beacons are collected. An exchange that fails ends the scan in between: the channel stays in the
  instance, with nobody at its other end.

  Main result: `scan_leaves_no_collector_iff`.
-/
import DcuDaemon.Tasks.Network
import DcuDaemon.Tasks.Scan

namespace DcuDaemon.Tasks

open Dbus Instance Lib Spinel

/-! ## 1. The task -/

abbrev ChannelMask := { bytes : List UInt8 // bytes.length = 17 }

namespace ChannelMask

def isChannelSet (mask : ChannelMask) (channel : UInt8) : Bool :=
  if channel > 128 then false
  else mask.val.getD (channel.toNat / 8) 0 &&& (1 <<< UInt8.ofNat (channel.toNat % 8)) != 0

/-- The channels of the mask, as the NCP gets them. -/
def channels (mask : ChannelMask) : List UInt8 :=
  ((List.range 129).map UInt8.ofNat).filter (isChannelSet mask)

end ChannelMask

def propMacScanMask : UInt32 := 0x31
def scanStateIdle : UInt8 := 0
def scanStateBeacon : UInt8 := 1

/-- The states in which a scan begins. -/
def scanReady (state : NcpState) : Bool :=
  !state.isInitializing &&
    match state with
    | .associating | .credentialsNeeded => false
    | _ => true

/-- The loop over what the channel holds; `budget` frames are received before the deadline comes. -/
def collectBeacons : Nat → List SpinelFrame → List ScanResult → Except DaemonError (List ScanResult)
  | 0, _, _ | _, [], _ => .error (.ncp "scan timed out")
  | budget + 1, frame :: queue, results =>
    let (prop, r) := unwrapOr (PackReader.new frame.payload).readUintPacked 0
    if prop = propMacScanState then
      if (unwrapOr r.readUintPacked scanStateIdle.toUInt32).1 = scanStateIdle.toUInt32 then .ok results
      else collectBeacons budget queue results
    else if prop = propMacScanBeacon then
      match fromBeacon frame.payload with
      | some result => collectBeacons budget queue (results ++ [result])
      | none => collectBeacons budget queue results
    else collectBeacons budget queue results

section Scan

variable {δ μ : Type}

/-- `register_scan_collector`, `unregister_scan_collector`. -/
def NcpBase.withCollector (s : NcpBase δ μ) (tx : Option (Channel SpinelFrame)) : NcpBase δ μ :=
  { s with task := { s.task with scanCollector := tx } }

/-- The instance with the channel of a scan, in place of any other. -/
def NcpBase.scanning (s : NcpBase δ μ) : NcpBase δ μ := s.withCollector (some ⟨true, []⟩)

/-- A part of a task that has the receiver: at its end, whatever it is, the channel is closed. -/
def receiving {α : Type} (t : NcpTask δ μ α) : NcpTask δ μ α := fun s =>
  (t s).map fun x =>
    (x.1, x.2.withCollector (x.2.task.scanCollector.map fun tx => { tx with isOpen := false }))

variable (ops : DatasetOps δ μ) (link : NcpLink) (mask : ChannelMask) (later : List SpinelFrame)
  (budget : Nat)

/-- The frame task over frames that nothing waits for. -/
def NcpBase.afterFrames (s : NcpBase δ μ) (frames : List SpinelFrame) : NcpBase δ μ :=
  { s with task := run (fun t frame => (processFrame ops t frame).2) s.task frames }

/-- The end of `scan`: the results, and the instance without the channel. `later` is what comes in until
    then. -/
def collect : NcpTask δ μ (List ScanResult) := do
  Routine.modify (·.afterFrames ops later)
  let s ← Routine.get
  let queue := match s.task.scanCollector with
    | some tx => tx.sent
    | none => []
  let results := collectBeacons budget queue []
  Routine.modify (·.withCollector none)
  Routine.ofExcept results

/-- `scan` behind the registration. -/
def scanRegistered : NcpTask δ μ (List ScanResult) := do
  let _ ← sendPropSet ops link propMacScanMask mask.channels
  let _ ← sendPropSet ops link propMacScanState [scanStateBeacon]
  collect ops later budget

def scan : NcpTask δ μ (List ScanResult) := do
  waitForState scanReady
  Routine.modify NcpBase.scanning
  receiving (scanRegistered ops link mask later budget)

/-! ## 2. The channel -/

/-- A channel is registered, and its receiver is there. -/
def Collecting (t : FrameTask Nat δ μ) : Prop := ∃ tx, t.scanCollector = some tx ∧ tx.isOpen = true

theorem scanCollector_handleDatasetFrameStatic (t : FrameTask Nat δ μ) (frame : SpinelFrame) :
    (handleDatasetFrameStatic ops t frame).2.scanCollector = t.scanCollector := by
  unfold handleDatasetFrameStatic
  repeat' split
  all_goals rfl

theorem scanCollector_notifyUnsolicited (t : FrameTask Nat δ μ) (frame : SpinelFrame) :
    (notifyUnsolicited t frame).scanCollector = t.scanCollector := by
  unfold notifyUnsolicited
  dsimp only
  repeat' split
  all_goals rfl

theorem scanCollector_pushPcap (t : FrameTask Nat δ μ) (frame : SpinelFrame) :
    (pushPcap t frame).scanCollector = t.scanCollector := by
  unfold pushPcap
  split
  · rfl
  · rfl

variable {t : FrameTask Nat δ μ} {s : NcpBase δ μ}

theorem collecting_dispatchUnsolicitedStatic (h : Collecting t)
    (frame : SpinelFrame) : Collecting (dispatchUnsolicitedStatic t frame) := by
  obtain ⟨tx, htx, hopen⟩ := h
  have hsend : tx.send frame = (true, { tx with sent := tx.sent ++ [frame] }) := by
    unfold Channel.send
    rw [if_pos hopen]
  unfold dispatchUnsolicitedStatic
  split
  · exact ⟨tx, htx, hopen⟩
  · split
    · exact ⟨tx, htx, hopen⟩
    · split
      · rw [htx]
        dsimp only
        rw [hsend]
        exact ⟨_, rfl, hopen⟩
      · split
        · exact ⟨tx, htx, hopen⟩
        · exact ⟨tx, htx, hopen⟩

/-- **No frame takes an open channel off.** -/
theorem collecting_processFrame (h : Collecting t) (frame : SpinelFrame) :
    Collecting (processFrame ops t frame).2 := by
  have hset := scanCollector_handleDatasetFrameStatic ops t frame
  unfold processFrame
  rcases hs : handleDatasetFrameStatic ops t frame with ⟨_ | _, t'⟩
  · rw [hs] at hset
    have h' : Collecting t' := by
      unfold Collecting
      rw [hset]
      exact h
    dsimp only
    split
    · exact h'
    · rcases t'.responseTable.deliver frame with ⟨_ | sender, table⟩
      · unfold Collecting
        rw [scanCollector_pushPcap, scanCollector_notifyUnsolicited]
        have ht : Collecting { t' with responseTable := table } := h'
        exact collecting_dispatchUnsolicitedStatic ht frame
      · unfold Collecting
        rw [scanCollector_pushPcap]
        exact h'
  · rw [hs] at hset
    unfold Collecting
    rw [hset]
    exact h

theorem collecting_receive (waiter : Nat) (frames : List SpinelFrame)
    (h : Collecting t) : Collecting (receive ops waiter t frames).2 := by
  induction frames generalizing t with
  | nil => exact h
  | cons frame frames ih => exact ih (collecting_processFrame ops h frame)

/-- **An exchange** leaves the channel registered and open, whether it succeeds or fails. -/
theorem collecting_exchanged (commandId : UInt32) (payload : List UInt8)
    (h : Collecting s.task) : Collecting (exchanged ops link commandId payload s).task := by
  show Collecting (reply ops link commandId payload s).2
  unfold reply awaitReply
  dsimp only
  split
  · have hrec := collecting_receive ops s.exchanges.length
      (link.arrivals s.exchanges.length
        (SpinelFrame.withHeader (makeHeader 0 (allocTid s.nextTid).1) commandId payload))
      (t := { s.task with
        responseTable := s.task.responseTable.register (allocTid s.nextTid).1 s.exchanges.length }) h
    split
    · rename_i resp t heq
      rw [heq] at hrec
      split
      · exact hrec
      · exact hrec
    · rename_i t heq
      rw [heq] at hrec
      exact hrec
  · exact h

/-! ## 3. What the scan leaves behind -/

def maskPayload : List UInt8 := PackWriter.uintPackedBytes propMacScanMask ++ mask.channels

def startPayload : List UInt8 := PackWriter.uintPackedBytes propMacScanState ++ [scanStateBeacon]

def ScanAcked (s : NcpBase δ μ) : Prop :=
  acked ops link cmdPropValueSet (maskPayload mask) s = true ∧
    acked ops link cmdPropValueSet startPayload
      (exchanged ops link cmdPropValueSet (maskPayload mask) s) = true

theorem Collecting.ne_none (h : Collecting t) : t.scanCollector ≠ none := by
  obtain ⟨tx, htx, -⟩ := h
  rw [htx]
  exact Option.some_ne_none tx

theorem collect_leaves_none (s : NcpBase δ μ) :
    ∃ r s', collect ops later budget s = some (r, s') ∧ s'.task.scanCollector = none := by
  have hend : ∀ (results : Except DaemonError (List ScanResult)) (s : NcpBase δ μ),
      Routine.ofExcept results s = some (results, s) := by
    intro results s
    cases results with
    | ok a => rfl
    | error e => rfl
  exact ⟨_, _, hend _ _, rfl⟩

/-- **Behind the registration**: the channel is taken off exactly if both exchanges succeed. -/
theorem scanRegistered_leaves_none_iff (h : Collecting s.task) :
    ∃ r s', scanRegistered ops link mask later budget s = some (r, s') ∧
      (s'.task.scanCollector = none ↔ ScanAcked ops link mask s) := by
  have h₁ := collecting_exchanged ops link cmdPropValueSet (maskPayload mask) h
  have h₂ := collecting_exchanged ops link cmdPropValueSet startPayload h₁
  unfold scanRegistered ScanAcked
  rw [sendPropSet_eq ops link (by decide), sendPropSet_eq ops link (by decide)]
  obtain ⟨resp, hacked, hsend⟩ | ⟨e, hacked, hsend⟩ :=
    sendCommand_cases ops link cmdPropValueSet (maskPayload mask) s
  · rw [show _ ++ mask.channels = maskPayload mask from rfl, Routine.bind_ok hsend]
    obtain ⟨resp', hacked', hsend'⟩ | ⟨e, hacked', hsend'⟩ :=
      sendCommand_cases ops link cmdPropValueSet startPayload
        (exchanged ops link cmdPropValueSet (maskPayload mask) s)
    · obtain ⟨r, s', hcollect, hnone⟩ := collect_leaves_none ops later budget
        (exchanged ops link cmdPropValueSet startPayload
          (exchanged ops link cmdPropValueSet (maskPayload mask) s))
      exact ⟨r, s', (Routine.bind_ok hsend').trans hcollect, fun _ => ⟨hacked, hacked'⟩, fun _ => hnone⟩
    · refine ⟨_, _, Routine.bind_error hsend', fun hnone => absurd hnone h₂.ne_none, fun hboth => ?_⟩
      rw [hacked'] at hboth
      exact absurd hboth.2 Bool.false_ne_true
  · refine ⟨_, _, Routine.bind_error hsend, fun hnone => absurd hnone h₁.ne_none, fun hboth => ?_⟩
    rw [hacked] at hboth
    exact absurd hboth.1 Bool.false_ne_true

/-- A part that has the receiver leaves a channel, closed, exactly if it does not take it off. -/
theorem receiving_of_eq {α : Type} {t : NcpTask δ μ α} {s' : NcpBase δ μ} {r : Except DaemonError α}
    (h : t s = some (r, s')) : ∃ s'', receiving t s = some (r, s'') ∧
      (s''.task.scanCollector = none ↔ s'.task.scanCollector = none) := by
  refine ⟨_, by rw [receiving, h]; rfl, ?_⟩
  exact Option.map_eq_none_iff

/-- No channel that the scan registered is left. -/
def LeavesNoCollector (s s' : NcpBase δ μ) : Prop :=
  scanReady s.ncpState = true → s'.task.scanCollector = none

/-- **The scan takes its channel off exactly if no exchange fails.** -/
theorem scan_leaves_no_collector_iff (s : NcpBase δ μ) :
    ∃ r s', scan ops link mask later budget s = some (r, s') ∧ (LeavesNoCollector s s' ↔
        (scanReady s.ncpState = true → ScanAcked ops link mask s.scanning)) := by
  unfold scan LeavesNoCollector
  cases hready : scanReady s.ncpState with
  | false =>
    refine ⟨_, s, Routine.bind_error (waitForState_of_false hready), ?_⟩
    exact ⟨fun _ h => absurd h Bool.false_ne_true, fun _ h => absurd h Bool.false_ne_true⟩
  | true =>
    have hcoll : Collecting s.scanning.task := ⟨_, rfl, rfl⟩
    obtain ⟨r, s₁, hbody, hiff⟩ := scanRegistered_leaves_none_iff ops link mask later budget hcoll
    obtain ⟨s', hrun, hclosed⟩ := receiving_of_eq hbody
    refine ⟨r, s', ?_, ?_⟩
    · rw [Routine.bind_ok (waitForState_of_true hready)]
      exact hrun
    · rw [hclosed, hiff]

/-- **An NCP that does not answer**: the scan fails, and its channel stays in the instance, closed. -/
theorem collector_stays :
    (scan idleOps silentLink ⟨List.replicate 17 0xFF, rfl⟩ [] 0 initialized).map
        (fun x => (Routine.errorOf x.1, x.2.task.scanCollector)) =
      some (some (.ncp "timeout"), some ⟨false, []⟩) ∧
    initialized.task.scanCollector = none := by
  decide +kernel

end Scan

end DcuDaemon.Tasks
