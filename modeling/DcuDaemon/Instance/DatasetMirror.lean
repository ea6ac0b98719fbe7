/-
  The operational datasets among the D-Bus properties (`crates/dcu-tunnel-daemon/src/dataset.rs`:
  `field_to_string`; `crates/dcu-tunnel-daemon/src/instance/base.rs`: `sync_dataset_to_state_static`,
  over the runs of `handle_dataset_frame_static`).

  The NCP sends the active and the pending dataset each on its own. The daemon keeps the last one of
  either kind, and after each of these frames builds `DaemonState.dataset` anew from both.

  Main result: `dataset_mirrors_last_frames`.
-/
import DcuDaemon.Dbus.Properties
import DcuDaemon.Instance.Dataset
import DcuDaemon.Instance.FrameTask

namespace DcuDaemon.Instance

open Addresses Dbus Lib Spinel List

/-! ## 1. The fields as texts -/

/-- `format!("0x{:08X}{:08X}", (v >> 32) as u32, v as u32)`. -/
def timestampText (v : UInt64) : String :=
  "0x" ++ String.ofList (hexFixed 8 (v.toNat / 2 ^ 32) ++ hexFixed 8 (v.toNat % 2 ^ 32))

def hexEncode (v : List UInt8) : String := String.ofList (v.flatMap fun b => lowerHex 2 b.toNat)

section Texts

variable {ω : Type} (lib : Externals ω)

/-- `field_to_string`, which is `property_string`. -/
def fieldToString (d : OperationalDataset) (key : String) : Option String :=
  match key with
  | "Dataset:ActiveTimestamp" => d.activeTimestamp.map timestampText
  | "Dataset:PendingTimestamp" => d.pendingTimestamp.map timestampText
  | "Dataset:MasterKey" => d.masterKey.map fun v => "[" ++ hexEncode v ++ "]"
  | "Dataset:NetworkName" => d.networkName.map fun v => "\"" ++ v ++ "\""
  | "Dataset:ExtendedPanId" => d.extendedPanId.map fun v => "0x" ++ hexEncode v
  | "Dataset:MeshLocalPrefix" =>
    d.meshLocalPrefix.map fun v => lib.ipv6ToString v.addr ++ "/" ++ toString v.prefixLen.toNat
  | "Dataset:Delay" => d.delay.map fun v => toString v.toNat
  | "Dataset:PanId" => d.panId.map fun v => "0x" ++ String.ofList (upperHex 2 v.toNat)
  | "Dataset:Channel" => d.channel.map fun v => toString v.toNat
  | "Dataset:PSKc" => d.pskc.map fun v => "[" ++ hexEncode v ++ "]"
  | "Dataset:ChannelMaskPage0" =>
    d.channelMaskPage0.map fun v => "0x" ++ String.ofList (hexFixed 8 v.toNat)
  | "Dataset:SecPolicy:KeyRotation" => d.securityPolicy.map fun v => toString v.keyRotationTime.toNat
  | "Dataset:SecPolicy:Flags" =>
    d.securityPolicy.map fun v => "0x" ++ String.ofList (upperHex 1 v.flags.toNat)
  | "Dataset:RawTlvs" => d.rawTlvs.map fun v => "[" ++ hexEncode v ++ "]"
  | "Dataset:DestIpAddress" => d.destIpAddress.map lib.ipv6ToString
  | _ => none

/-- The field that is shown under a key; the two parts of the security policy have a key each. -/
def shownField : String → Option DatasetField
  | "Dataset:ActiveTimestamp" => some .activeTimestamp
  | "Dataset:PendingTimestamp" => some .pendingTimestamp
  | "Dataset:MasterKey" => some .masterKey
  | "Dataset:NetworkName" => some .networkName
  | "Dataset:ExtendedPanId" => some .extendedPanId
  | "Dataset:MeshLocalPrefix" => some .meshLocalPrefix
  | "Dataset:Delay" => some .delay
  | "Dataset:PanId" => some .panId
  | "Dataset:Channel" => some .channel
  | "Dataset:PSKc" => some .pskc
  | "Dataset:ChannelMaskPage0" => some .channelMaskPage0
  | "Dataset:SecPolicy:KeyRotation" => some .securityPolicy
  | "Dataset:SecPolicy:Flags" => some .securityPolicy
  | "Dataset:RawTlvs" => some .rawTlvs
  | "Dataset:DestIpAddress" => some .destIpAddress
  | _ => none

def DatasetField.present (field : DatasetField) (d : OperationalDataset) : Bool := (field.write d).isSome

def presentKeys (d : OperationalDataset) : List String :=
  datasetKeys.filter fun key => (shownField key).any fun field => field.present d

theorem isSome_fieldToString (d : OperationalDataset) (key : String) :
    (fieldToString lib d key).isSome = (shownField key).any fun field => field.present d := by
  unfold fieldToString shownField
  split <;> simp only [DatasetField.present, DatasetField.write, Option.isSome_map, Option.isSome_none,
    Option.any_some, Option.any_none]

/-! ## 2. The mirror -/

/-- One loop over the keys: what the dataset has is inserted under the key's name. -/
def mirrorInto (name : String → String) (d : OperationalDataset) (dataset : HashTable String String) :
    HashTable String String :=
  datasetKeys.foldl (fun dataset key =>
    HashTable.insertSome dataset (name key) (fieldToString lib d key)) dataset

/-- `sync_dataset_to_state_static`. -/
def syncDatasetToState (active pending : OperationalDataset) : HashTable String String :=
  mirrorInto lib (pendingStart ++ ·) pending (mirrorInto lib id active ∅)

/-- The map shows these two datasets: one entry for each of their fields, with its text, and no other. -/
structure Mirrors (active pending : OperationalDataset) (dataset : HashTable String String) :
    Prop where
  keys : dataset.keys.Perm (presentKeys active ++ (presentKeys pending).map (pendingStart ++ ·))
  active : ∀ key ∈ presentKeys active, dataset.lookup key = fieldToString lib active key
  pending : ∀ key ∈ presentKeys pending,
    dataset.lookup (pendingStart ++ key) = fieldToString lib pending key

theorem datasetKeys_nodup : datasetKeys.Nodup := by decide +kernel

theorem pendingStart_append_notMem (key : String) : pendingStart ++ key ∉ datasetKeys := by
  intro h
  have hfirst : datasetKeys.all (fun k => k.toList.head? == some 'D') := by
    decide +kernel
  have hkey := eq_of_beq (all_eq_true.mp hfirst _ h)
  rw [String.toList_append] at hkey
  exact absurd (Option.some.inj hkey) (by decide)

theorem pendingStart_append_injective : Function.Injective (pendingStart ++ · : String → String) := by
  intro k k' h
  have hlist := congrArg String.toList h
  simp only [String.toList_append, append_cancel_left_eq] at hlist
  exact String.toList_inj.mp hlist

def shownEntries (name : String → String) (d : OperationalDataset) : List (Sigma fun _ : String => String) :=
  datasetKeys.filterMap fun key => (fieldToString lib d key).map (Sigma.mk (name key))

theorem map_fst_shownEntries (name : String → String) (d : OperationalDataset) :
    (shownEntries lib name d).map Sigma.fst = (presentKeys d).map name := by
  unfold shownEntries presentKeys
  induction datasetKeys with
  | nil => rfl
  | cons key keys ih =>
    rw [filter_cons, ← isSome_fieldToString lib]
    cases hv : fieldToString lib d key with
    | none =>
      rw [filterMap_cons_none (by rw [hv]; rfl)]
      exact ih
    | some v =>
      rw [filterMap_cons_some (by rw [hv]; rfl)]
      exact congrArg (name key :: ·) ih

variable {name : String → String}

theorem mem_shownEntries {d : OperationalDataset} {key v : String}
    (hkey : key ∈ datasetKeys) (hv : fieldToString lib d key = some v) :
    (⟨name key, v⟩ : Sigma fun _ : String => String) ∈ shownEntries lib name d :=
  mem_filterMap.mpr ⟨key, hkey, by rw [hv]; rfl⟩

theorem entries_mirrorInto (hname : Function.Injective name)
    (d : OperationalDataset) {dataset : HashTable String String}
    (hnew : ∀ key ∈ datasetKeys, name key ∉ dataset) :
    (mirrorInto lib name d dataset).entries.Perm (dataset.entries ++ shownEntries lib name d) := by
  have hnames : (datasetKeys.map name).Nodup := datasetKeys_nodup.map hname
  exact HashTable.entries_foldl_insert name (fieldToString lib d) hnames hnew

theorem entries_syncDatasetToState (active pending : OperationalDataset) :
    (syncDatasetToState lib active pending).entries.Perm
      (shownEntries lib id active ++ shownEntries lib (pendingStart ++ ·) pending) := by
  have hactive : (mirrorInto lib id active ∅).entries.Perm (shownEntries lib id active) :=
    entries_mirrorInto lib Function.injective_id active fun key _ => AList.notMem_empty key
  -- the names of the pending keys are new
  have hnew : ∀ key ∈ datasetKeys, pendingStart ++ key ∉ mirrorInto lib id active ∅ := by
    intro key _ hmem
    have hkeys : pendingStart ++ key ∈ (shownEntries lib id active).map Sigma.fst :=
      (hactive.map Sigma.fst).mem_iff.mp hmem
    rw [map_fst_shownEntries, map_id] at hkeys
    exact pendingStart_append_notMem key (mem_of_mem_filter hkeys)
  exact (entries_mirrorInto lib pendingStart_append_injective pending hnew).trans (hactive.append_right _)

/-- **The mirror** shows the two datasets it is built from. -/
theorem mirrors_syncDatasetToState (active pending : OperationalDataset) :
    Mirrors lib active pending (syncDatasetToState lib active pending) := by
  have hentries := entries_syncDatasetToState lib active pending
  have hlookup {name : String} {o : Option String} (ho : o.isSome)
      (hmem : ∀ v, o = some v → (⟨name, v⟩ : Sigma fun _ : String => String) ∈
        shownEntries lib id active ++ shownEntries lib (pendingStart ++ ·) pending) :
      (syncDatasetToState lib active pending).lookup name = o := by
    obtain ⟨v, rfl⟩ := Option.isSome_iff_exists.mp ho
    exact AList.mem_lookup_iff.mpr (hentries.mem_iff.mpr (hmem v rfl))
  have hpresent {d : OperationalDataset} {key : String} (h : key ∈ presentKeys d) :
      key ∈ datasetKeys ∧ (fieldToString lib d key).isSome := by
    rw [isSome_fieldToString]
    exact mem_filter.mp h
  constructor
  case keys =>
    have hkeys := hentries.map Sigma.fst
    rwa [map_append, map_fst_shownEntries, map_fst_shownEntries, map_id] at hkeys
  case active =>
    intro key hkey
    obtain ⟨hkey, htext⟩ := hpresent hkey
    exact hlookup htext fun v hv => mem_append_left _ (mem_shownEntries lib hkey hv)
  case pending =>
    intro key hkey
    obtain ⟨hkey, htext⟩ := hpresent hkey
    exact hlookup htext fun v hv => mem_append_right _ (mem_shownEntries lib hkey hv)

end Texts

/-! ## 3. Frames with a dataset -/

/-- The two datasets. -/
inductive DatasetKind where
  | active
  | pending
  deriving DecidableEq

def DatasetKind.prop : DatasetKind → UInt32
  | .active => propThreadActiveDataset
  | .pending => propThreadPendingDataset

/-- The dataset that an unsolicited frame carries, if it carries one of this kind. -/
def datasetValue (kind : DatasetKind) (frame : SpinelFrame) : Option (List UInt8) :=
  if frame.commandId ≠ cmdPropValueIs ∨ frame.tid ≠ 0 then none
  else
    match (PackReader.new frame.payload).readUintPacked with
    | (.error _, _) => none
    | (.ok prop, r) => if prop = kind.prop then some r.rest else none

section Stages

variable {ω δ μ : Type} (ops : DatasetOps δ μ)

/-- What is kept of a dataset that was sent. -/
def DatasetOps.received (value : List UInt8) : δ :=
  match ops.fromSpinelFrame value with
  | .ok ds => ds
  | .error _ => ops.default

/-- The part of the task that the datasets are in. -/
def FrameTask.datasets (t : FrameTask ω δ μ) : δ × δ × μ := (t.activeDataset, t.pendingDataset, t.dataset)

/-- One frame, seen from the datasets. -/
def DatasetOps.next (s : δ × δ × μ) (frame : SpinelFrame) : δ × δ × μ :=
  match datasetValue .active frame, datasetValue .pending frame with
  | some value, _ => (ops.received value, s.2.1, ops.syncDatasetToState (ops.received value) s.2.1)
  | none, some value => (s.1, ops.received value, ops.syncDatasetToState s.1 (ops.received value))
  | none, none => s

variable (t : FrameTask ω δ μ)

theorem dispatchUnsolicitedStatic_datasets (frame : SpinelFrame) :
    (dispatchUnsolicitedStatic t frame).datasets = t.datasets := by
  unfold dispatchUnsolicitedStatic
  repeat' split
  all_goals rfl

theorem notifyUnsolicited_datasets (frame : SpinelFrame) :
    (notifyUnsolicited t frame).datasets = t.datasets := by
  unfold notifyUnsolicited
  dsimp only
  repeat' split
  all_goals rfl

theorem pushPcap_datasets (frame : SpinelFrame) : (pushPcap t frame).datasets = t.datasets := by
  unfold pushPcap
  split
  · rfl
  · rfl

theorem readBytes_behind_key {payload : List UInt8} {prop : UInt32} {r : PackReader}
    (h : (PackReader.new payload).readUintPacked = (.ok prop, r)) :
    r.readBytes r.remaining = (.ok r.rest, ⟨r.data, r.data.length⟩) := by
  have hreads := PackReader.reads_uintPacked (PackReader.at_new payload)
  rw [h] at hreads
  cases hunpack : Datatype.unpackUintPacked payload with
  | none =>
    rw [hunpack] at hreads
    obtain ⟨e, r', h'⟩ := hreads
    cases h'
  | some x =>
    rw [hunpack] at hreads
    obtain ⟨r', h', hat⟩ := hreads
    cases h'
    exact readBytes_remaining r hat.1

theorem handleDatasetFrameStatic_datasets (frame : SpinelFrame) :
    (handleDatasetFrameStatic ops t frame).2.datasets = ops.next t.datasets frame := by
  unfold handleDatasetFrameStatic DatasetOps.next datasetValue
  by_cases hframe : frame.commandId ≠ cmdPropValueIs ∨ frame.tid ≠ 0
  · simp only [if_pos hframe]
  · simp only [if_neg hframe]
    rcases hread : (PackReader.new frame.payload).readUintPacked with ⟨e | prop, r⟩
    · rfl
    · simp only [readBytes_behind_key hread, isDatasetProp, DatasetKind.prop]
      by_cases hactive : prop = propThreadActiveDataset
      · subst hactive
        rfl
      · by_cases hpending : prop = propThreadPendingDataset
        · subst hpending
          rfl
        · simp [hactive, hpending]

/-- **A frame and the datasets.** No other stage touches them. -/
theorem processFrame_datasets (frame : SpinelFrame) :
    (processFrame ops t frame).2.datasets = ops.next t.datasets frame := by
  rw [← handleDatasetFrameStatic_datasets]
  unfold processFrame
  rcases handleDatasetFrameStatic ops t frame with ⟨_ | _, t'⟩
  · dsimp only
    split
    · rfl
    · rcases t'.responseTable.deliver frame with ⟨_ | sender, table⟩
      · simp only [pushPcap_datasets, notifyUnsolicited_datasets, dispatchUnsolicitedStatic_datasets]
        rfl
      · simp only [pushPcap_datasets]
        rfl
  · rfl

def framesOf (events : List (TaskEvent ω)) : List SpinelFrame :=
  events.filterMap fun
    | .frame frame => some frame
    | _ => none

/-- **A run and the datasets**: only the frames count. -/
theorem run_datasets (events : List (TaskEvent ω)) :
    (run (FrameTask.step ops) t events).datasets = (framesOf events).foldl ops.next t.datasets := by
  induction events generalizing t with
  | nil => rfl
  | cons event events ih =>
    rw [run_cons, ih]
    cases event with
    | frame frame =>
      rw [FrameTask.step, processFrame_datasets]
      rfl
    | register => rfl
    | unregister => rfl
    | scanCollector => rfl
    | resetExpected => rfl
    | pcapEnabled => rfl

end Stages

/-! ## 4. The mirror over runs -/

/-- The dataset that a frame's value stands for: none of the fields if it does not decode. -/
def decodedOrEmpty (value : List UInt8) : OperationalDataset :=
  match OperationalDataset.fromSpinelFrame value with
  | .ok d => d
  | .error _ => {}

def lastDataset (kind : DatasetKind) (frames : List SpinelFrame) : OperationalDataset :=
  match (frames.filterMap (datasetValue kind)).getLast? with
  | some value => decodedOrEmpty value
  | none => {}

theorem lastDataset_append (kind : DatasetKind) (frames : List SpinelFrame) (frame : SpinelFrame) :
    lastDataset kind (frames ++ [frame]) =
      match datasetValue kind frame with
      | some value => decodedOrEmpty value
      | none => lastDataset kind frames := by
  unfold lastDataset
  rw [filterMap_append]
  cases hv : datasetValue kind frame with
  | none => rw [filterMap_cons_none hv, filterMap_nil, append_nil]
  | some value => rw [filterMap_cons_some hv, filterMap_nil, getLast?_concat]

theorem datasetValue_pending_of_active {frame : SpinelFrame} {value : List UInt8}
    (h : datasetValue .active frame = some value) : datasetValue .pending frame = none := by
  unfold datasetValue at h ⊢
  split at h
  · cases h
  · rename_i hframe
    rw [if_neg hframe]
    split at h
    · rfl
    · split at h
      · rename_i hprop
        rw [hprop]
        rfl
      · cases h

section Mirror

variable {ω : Type} (lib : Externals ω)

/-- The functions of `dataset.rs` that the frame task calls. -/
def mirrorOps : DatasetOps OperationalDataset (HashTable String String) where
  fromSpinelFrame value := (OperationalDataset.fromSpinelFrame value).mapError SpinelError.toText
  default := {}
  syncDatasetToState := syncDatasetToState lib

theorem received_mirrorOps (value : List UInt8) :
    (mirrorOps lib).received value = decodedOrEmpty value := by
  unfold DatasetOps.received decodedOrEmpty mirrorOps
  dsimp only
  cases OperationalDataset.fromSpinelFrame value with
  | ok d => rfl
  | error e => rfl

/-- What holds after these frames. -/
structure MirrorInv (frames : List SpinelFrame)
    (s : OperationalDataset × OperationalDataset × HashTable String String) : Prop where
  active : s.1 = lastDataset .active frames
  pending : s.2.1 = lastDataset .pending frames
  mirrors : Mirrors lib s.1 s.2.1 s.2.2

theorem mirrorInv_nil : MirrorInv lib [] ({}, {}, ∅) := by
  refine ⟨rfl, rfl, ?_⟩
  constructor
  case keys =>
    exact List.Perm.nil
  case active =>
    intro key hkey
    cases hkey
  case pending =>
    intro key hkey
    cases hkey

theorem MirrorInv.next {frames : List SpinelFrame}
    {s : OperationalDataset × OperationalDataset × HashTable String String}
    (h : MirrorInv lib frames s) (frame : SpinelFrame) :
    MirrorInv lib (frames ++ [frame]) ((mirrorOps lib).next s frame) := by
  unfold DatasetOps.next
  cases hactive : datasetValue .active frame with
  | some value =>
    have hpending := datasetValue_pending_of_active hactive
    constructor
    case active =>
      rw [lastDataset_append, hactive]
      exact received_mirrorOps lib value
    case pending => rw [lastDataset_append, hpending, h.pending]
    case mirrors => exact mirrors_syncDatasetToState lib _ _
  | none =>
    cases hpending : datasetValue .pending frame with
    | some value =>
      constructor
      case active => rw [lastDataset_append, hactive, h.active]
      case pending =>
        rw [lastDataset_append, hpending]
        exact received_mirrorOps lib value
      case mirrors => exact mirrors_syncDatasetToState lib _ _
    | none =>
      constructor
      case active => rw [lastDataset_append, hactive, h.active]
      case pending => rw [lastDataset_append, hpending, h.pending]
      case mirrors => exact h.mirrors

theorem mirrorInv_foldl (frames : List SpinelFrame) :
    MirrorInv lib frames (frames.foldl (mirrorOps lib).next ({}, {}, ∅)) := by
  induction frames using reverseRecOn with
  | nil => exact mirrorInv_nil lib
  | append_singleton frames frame ih =>
    rw [foldl_append]
    exact ih.next lib frame

def FrameTask.withoutDatasets {σ : Type}
    (t : FrameTask σ OperationalDataset (HashTable String String)) :
    FrameTask σ OperationalDataset (HashTable String String) :=
  { t with activeDataset := {}, pendingDataset := {}, dataset := ∅ }

/-- **The mirror after every run**: exactly one entry for each field of the last active and, under its own
    name, of the last pending dataset. A dataset that does not decode has no fields. -/
theorem dataset_mirrors_last_frames {σ : Type}
    (t : FrameTask σ OperationalDataset (HashTable String String)) (events : List (TaskEvent σ)) :
    Mirrors lib (lastDataset .active (framesOf events)) (lastDataset .pending (framesOf events))
      (run (FrameTask.step (mirrorOps lib)) t.withoutDatasets events).dataset := by
  have hinv := mirrorInv_foldl lib (framesOf events)
  have hrun : (run (FrameTask.step (mirrorOps lib)) t.withoutDatasets events).datasets =
      (framesOf events).foldl (mirrorOps lib).next ({}, {}, ∅) :=
    run_datasets (mirrorOps lib) t.withoutDatasets events
  rw [← hrun] at hinv
  rw [← hinv.active, ← hinv.pending]
  exact hinv.mirrors

end Mirror

end DcuDaemon.Instance
