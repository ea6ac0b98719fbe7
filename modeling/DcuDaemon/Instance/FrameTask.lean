/-
  The frame-processing task of the NCP instance (`crates/dcu-tunnel-daemon/src/instance/base.rs`:
  `ResponseTable`, the spawned task of `run`, `handle_dataset_frame_static`, `is_address_table_frame`,
  `dispatch_unsolicited_static`).

  An inbound frame passes the stages in this order: operational datasets, address tables, the response
  table, everything unsolicited. The first stage takes frames with TID 0 only; the second does not look
  at the TID, so it also takes the reply to a pending request for one of the four tables.

  Main result: `frame_handed_to_waiter_iff`.
-/
import DcuDaemon.Lib.Run
import DcuDaemon.Spinel.Frame

namespace DcuDaemon.Instance

open Lib Spinel

/-! ## 1. The response table -/

/-- `ResponseTable`: the pending TIDs with the senders (`ω`) of the awaiting tasks, in the order of
    registration. -/
structure ResponseTable (ω : Type) where
  pending : List (UInt8 × ω)
  deriving DecidableEq, Repr

namespace ResponseTable

variable {ω : Type}

def register (table : ResponseTable ω) (tid : UInt8) (sender : ω) : ResponseTable ω :=
  ⟨table.pending ++ [(tid, sender)]⟩

/-- The first entry of a TID. -/
def waiter (table : ResponseTable ω) (tid : UInt8) : Option ω :=
  (table.pending.find? (·.1 == tid)).map (·.2)

/-- `deliver`: the sender the frame was sent to, `none` when the source returns `false`. -/
def deliver (table : ResponseTable ω) (frame : SpinelFrame) : Option ω × ResponseTable ω :=
  let tid := frame.tid
  if tid = 0 then (none, table)
  else
    match table.pending.find? (·.1 == tid) with
    | some (_, sender) => (some sender, ⟨table.pending.eraseP (·.1 == tid)⟩)
    | none => (none, table)

/-- `unregister`: `retain(|(t, _)| *t != tid)`. -/
def unregister (table : ResponseTable ω) (tid : UInt8) : ResponseTable ω :=
  ⟨table.pending.filter (·.1 != tid)⟩

/-- **`deliver`**: the first waiter of a non-zero TID, whose entry is taken out. -/
theorem deliver_spec (table : ResponseTable ω) {frame : SpinelFrame} (h : frame.tid ≠ 0) :
    table.deliver frame = (table.waiter frame.tid, ⟨table.pending.eraseP (·.1 == frame.tid)⟩) := by
  unfold deliver waiter
  rw [if_neg h]
  cases hf : table.pending.find? (·.1 == frame.tid) with
  | some entry => rfl
  | none =>
    have herase : table.pending.eraseP (·.1 == frame.tid) = table.pending :=
      List.eraseP_of_forall_not (List.find?_eq_none.mp hf)
    rw [herase]
    rfl

end ResponseTable

/-! ## 2. The stages -/

/-- A `tokio` channel, seen from its sender. -/
structure Channel (α : Type) where
  isOpen : Bool
  sent : List α
  deriving DecidableEq, Repr

/-- `send`: `false` when the receiver is gone. -/
def Channel.send {α : Type} (c : Channel α) (a : α) : Bool × Channel α :=
  if c.isOpen then (true, { c with sent := c.sent ++ [a] }) else (false, c)

/-- What the dataset stage uses: `OperationalDataset` is `δ`, the properties of `DaemonState.dataset` are
    `μ`. -/
structure DatasetOps (δ μ : Type) where
  fromSpinelFrame : List UInt8 → Except String δ
  default : δ
  /-- `sync_dataset_to_state_static`, from the active and the pending dataset. -/
  syncDatasetToState : δ → δ → μ

/-- The handles the frame task works on. -/
structure FrameTask (ω δ μ : Type) where
  responseTable : ResponseTable ω
  scanCollector : Option (Channel SpinelFrame)
  streamNetTx : Channel SpinelFrame
  addressFrameTx : Channel SpinelFrame
  timeUpdateTx : Channel (UInt64 × Int8)
  resetNotifyTx : Channel SpinelFrame
  resetExpected : Bool
  activeDataset : δ
  pendingDataset : δ
  /-- `DaemonState.dataset`. -/
  dataset : μ
  pcapEnabled : Bool
  pcapPackets : List (List UInt8)

def isDatasetProp (prop : UInt32) : Bool :=
  prop == propThreadActiveDataset || prop == propThreadPendingDataset

/-- `is_address_table_frame`. The TID is not looked at. -/
def isAddressTableFrame (frame : SpinelFrame) : Bool :=
  if frame.commandId ≠ cmdPropValueIs then false
  else
    match (PackReader.new frame.payload).readUintPacked with
    | (.error _, _) => false
    | (.ok prop, _) =>
      prop == propIpv6AddressTable || prop == propIpv6MulticastAddressTable ||
        prop == propThreadOnMeshNets || prop == propThreadOffMeshRoutes

section Stages

variable {ω δ μ : Type} (ops : DatasetOps δ μ)

variable (t : FrameTask ω δ μ) (frame : SpinelFrame)

/-- `handle_dataset_frame_static`; only frames with TID 0 are taken. -/
def handleDatasetFrameStatic : Bool × FrameTask ω δ μ :=
  if frame.commandId ≠ cmdPropValueIs ∨ frame.tid ≠ 0 then (false, t)
  else
    match (PackReader.new frame.payload).readUintPacked with
    | (.error _, _) => (false, t)
    | (.ok prop, r) =>
      if !isDatasetProp prop then (false, t)
      else
        match r.readBytes r.remaining with
        | (.error _, _) => (false, t)
        | (.ok value, _) =>
          -- a dataset that does not decode is cleared
          let ds := match ops.fromSpinelFrame value with
            | .ok ds => ds
            | .error _ => ops.default
          let t := if prop = propThreadPendingDataset then { t with pendingDataset := ds }
            else { t with activeDataset := ds }
          (true, { t with dataset := ops.syncDatasetToState t.activeDataset t.pendingDataset })

def dispatchUnsolicitedStatic : FrameTask ω δ μ :=
  if frame.commandId ≠ cmdPropValueIs then t
  else
    match (PackReader.new frame.payload).readUintPacked with
    | (.error _, _) => t
    | (.ok prop, _) =>
      if prop = propMacScanBeacon ∨ prop = propMacScanState then
        match t.scanCollector with
        | none => t
        | some tx =>
          match tx.send frame with
          | (true, tx) => { t with scanCollector := some tx }
          | (false, _) => { t with scanCollector := none }
      else if prop = propStreamNet ∨ prop = propStreamNetInsecure then
        { t with streamNetTx := (t.streamNetTx.send frame).2 }
      else t

/-- The part behind `dispatch_unsolicited_static`: network time and reset notification. -/
def notifyUnsolicited : FrameTask ω δ μ :=
  if frame.commandId ≠ cmdPropValueIs then t
  else
    match (PackReader.new frame.payload).readUintPacked with
    | (.error _, _) => t
    | (.ok prop, r) =>
      let t := if prop = propThreadNetworkTime then
          match r.readUint64 with
          | (.error _, _) => t
          | (.ok time, r) =>
            match r.readInt8 with
            | (.error _, _) => t
            | (.ok status, _) => { t with timeUpdateTx := (t.timeUpdateTx.send (time, status)).2 }
        else t
      if prop = propLastStatus ∧ t.resetExpected then
        { t with resetNotifyTx := (t.resetNotifyTx.send frame).2 }
      else t

/-- `pcap.push_packet`, when a capture is active. -/
def pushPcap : FrameTask ω δ μ :=
  if t.pcapEnabled then { t with pcapPackets := t.pcapPackets ++ [frame.payload] } else t

/-- One frame through the task: the waiter that got it, and the task afterwards. -/
def processFrame : Option ω × FrameTask ω δ μ :=
  match handleDatasetFrameStatic ops t frame with
  | (true, t) => (none, t)
  | (false, t) =>
    if isAddressTableFrame frame then
      (none, { t with addressFrameTx := (t.addressFrameTx.send frame).2 })
    else
      match t.responseTable.deliver frame with
      | (some sender, table) => (some sender, pushPcap { t with responseTable := table } frame)
      | (none, table) =>
        let t := { t with responseTable := table }
        (none, pushPcap (notifyUnsolicited (dispatchUnsolicitedStatic t frame) frame) frame)

/-! ## 3. What the stages leave alone -/

variable (t : FrameTask ω δ μ)

theorem dispatchUnsolicitedStatic_table (frame : SpinelFrame) :
    (dispatchUnsolicitedStatic t frame).responseTable = t.responseTable := by
  unfold dispatchUnsolicitedStatic
  repeat' split
  all_goals rfl

theorem notifyUnsolicited_table (frame : SpinelFrame) :
    (notifyUnsolicited t frame).responseTable = t.responseTable := by
  unfold notifyUnsolicited
  dsimp only
  repeat' split
  all_goals rfl

theorem pushPcap_table (frame : SpinelFrame) : (pushPcap t frame).responseTable = t.responseTable := by
  unfold pushPcap
  split
  · rfl
  · rfl

variable {frame : SpinelFrame}

theorem handleDatasetFrameStatic_tid
    (h : frame.tid ≠ 0) : handleDatasetFrameStatic ops t frame = (false, t) := by
  unfold handleDatasetFrameStatic
  rw [if_pos (.inr h)]

theorem handleDatasetFrameStatic_table (frame : SpinelFrame) :
    (handleDatasetFrameStatic ops t frame).2.responseTable = t.responseTable := by
  unfold handleDatasetFrameStatic
  repeat' split
  all_goals rfl

theorem processFrame_unsolicited (h : frame.tid = 0) : (processFrame ops t frame).1 = none ∧
      (processFrame ops t frame).2.responseTable = t.responseTable := by
  have htable := handleDatasetFrameStatic_table ops t frame
  unfold processFrame
  rcases hs : handleDatasetFrameStatic ops t frame with ⟨_ | _, t'⟩ <;> rw [hs] at htable
  · have hdel : t'.responseTable.deliver frame = (none, t'.responseTable) := by
      unfold ResponseTable.deliver
      rw [if_pos h]
    simp only [hdel]
    split
    · exact ⟨rfl, htable⟩
    · refine ⟨rfl, ?_⟩
      rw [pushPcap_table, notifyUnsolicited_table, dispatchUnsolicitedStatic_table]
      exact htable
  · exact ⟨rfl, htable⟩

/-- **A frame with a TID**: an address table goes to the main loop, every other frame to the first waiter. -/
theorem processFrame_tid (h : frame.tid ≠ 0) :
    ((processFrame ops t frame).1, (processFrame ops t frame).2.responseTable) =
      if isAddressTableFrame frame then (none, t.responseTable)
      else t.responseTable.deliver frame := by
  unfold processFrame
  rw [handleDatasetFrameStatic_tid ops t h]
  cases ha : isAddressTableFrame frame with
  | true => rfl
  | false =>
    simp only [Bool.false_eq_true, if_false]
    rcases t.responseTable.deliver frame with ⟨_ | sender, table⟩
    · simp only [pushPcap_table, notifyUnsolicited_table, dispatchUnsolicitedStatic_table]
    · simp only [pushPcap_table]

end Stages

/-! ## 4. Runs of the task -/

/-- What happens to the handles of the frame task: a frame arrives, or another task of the daemon
    uses one of the handles. -/
inductive TaskEvent (ω : Type) where
  | frame (frame : SpinelFrame)
  | register (tid : UInt8) (sender : ω)
  | unregister (tid : UInt8)
  /-- `register_scan_collector`, `unregister_scan_collector`. -/
  | scanCollector (tx : Option (Channel SpinelFrame))
  | resetExpected (value : Bool)
  | pcapEnabled (value : Bool)

def FrameTask.step {ω δ μ : Type} (ops : DatasetOps δ μ) (t : FrameTask ω δ μ) :
    TaskEvent ω → FrameTask ω δ μ
  | .frame frame => (processFrame ops t frame).2
  | .register tid sender => { t with responseTable := t.responseTable.register tid sender }
  | .unregister tid => { t with responseTable := t.responseTable.unregister tid }
  | .scanCollector tx => { t with scanCollector := tx }
  | .resetExpected value => { t with resetExpected := value }
  | .pcapEnabled value => { t with pcapEnabled := value }

/-- **Which replies reach their waiter**: a frame with a registered TID does exactly if it is not one of the
    four address tables. -/
theorem frame_handed_to_waiter_iff {ω δ μ : Type} (ops : DatasetOps δ μ) (t : FrameTask ω δ μ)
    (events : List (TaskEvent ω)) (frame : SpinelFrame) (sender : ω) (htid : frame.tid ≠ 0)
    (hreg : (run (FrameTask.step ops) t events).responseTable.waiter frame.tid = some sender) :
    (processFrame ops (run (FrameTask.step ops) t events) frame).1 = some sender ↔
      isAddressTableFrame frame = false := by
  have hp := congrArg Prod.fst (processFrame_tid ops (run (FrameTask.step ops) t events) htid)
  rw [show (processFrame ops (run (FrameTask.step ops) t events) frame).1 = _ from hp]
  cases ha : isAddressTableFrame frame with
  | true => exact ⟨fun h => (by cases h), fun h => (by cases h)⟩
  | false =>
    rw [if_neg Bool.false_ne_true, ResponseTable.deliver_spec _ htid]
    exact ⟨fun _ => rfl, fun _ => hreg⟩

section Example

/-- A task with nothing to do, and a dataset decoder that accepts nothing. -/
def idleOps : DatasetOps Unit Unit := ⟨fun _ => .error "", (), fun _ _ => ()⟩

def idleTask : FrameTask Nat Unit Unit :=
  ⟨⟨[]⟩, none, ⟨true, []⟩, ⟨true, []⟩, ⟨true, []⟩, ⟨true, []⟩, false, (), (), (), false, []⟩

/-- The reply to a request with TID 5 that is no address table: a LAST_STATUS value. -/
theorem frame_handed_last_status :
    (processFrame idleOps (run (FrameTask.step idleOps) idleTask [.register 5 7])
        ⟨makeHeader 0 5, cmdPropValueIs, [0, 0]⟩).1 = some 7 :=
  (frame_handed_to_waiter_iff idleOps idleTask [.register 5 7]
    ⟨makeHeader 0 5, cmdPropValueIs, [0, 0]⟩ 7 (by decide) (by decide)).mpr (by decide)

/-- **The reply to a request for the address table** goes to the main loop; its waiter gets nothing. -/
theorem address_table_reply_swallowed :
    let t := run (FrameTask.step idleOps) idleTask [.register 5 7]
    let frame : SpinelFrame := ⟨makeHeader 0 5, cmdPropValueIs, [0x63]⟩
    frame.tid ≠ 0 ∧ t.responseTable.waiter frame.tid = some 7 ∧
      (processFrame idleOps t frame).1 = none ∧
      (processFrame idleOps t frame).2.responseTable = t.responseTable ∧
      (processFrame idleOps t frame).2.addressFrameTx.sent = [frame] := by
  decide

end Example

end DcuDaemon.Instance
