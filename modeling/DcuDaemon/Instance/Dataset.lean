/-
  The codec of the operational dataset (`crates/dcu-tunnel-daemon/src/dataset.rs`: `from_spinel_frame`,
  `parse_entry`, `to_spinel_frame`).

  A dataset is fourteen optional fields. On the wire it is a sequence of structs, one for every field
  that is set: the property key, then the value. The fields of the source are a type here
  (`DatasetField`), so that what the two functions do for a field stands in one place, and what holds of
  every field is one statement.

  Main result: `fromSpinelFrame_toSpinelFrame`.

  The texts of a dataset are left out: no function here reads them.
-/
import DcuDaemon.Instance.Addresses
import DcuDaemon.Spinel.Datatype
import Mathlib.Data.Nat.Bitwise

namespace DcuDaemon.Instance

open Addresses Spinel Spinel.Datatype List Option PackReader

/-! ## 1. Datasets and their fields -/

structure SecurityPolicy where
  keyRotationTime : UInt16
  flags : UInt8
  deriving DecidableEq

structure OperationalDataset where
  activeTimestamp : Option UInt64 := none
  pendingTimestamp : Option UInt64 := none
  masterKey : Option (List UInt8) := none
  networkName : Option String := none
  extendedPanId : Option (List UInt8) := none
  meshLocalPrefix : Option Ipv6Net := none
  delay : Option UInt32 := none
  panId : Option UInt16 := none
  channel : Option UInt8 := none
  pskc : Option (List UInt8) := none
  channelMaskPage0 : Option UInt32 := none
  securityPolicy : Option SecurityPolicy := none
  rawTlvs : Option (List UInt8) := none
  destIpAddress : Option Ipv6Addr := none
  deriving DecidableEq

/-- The fields, in the order in which `to_spinel_frame` writes them. -/
inductive DatasetField where
  | activeTimestamp
  | pendingTimestamp
  | masterKey
  | networkName
  | extendedPanId
  | meshLocalPrefix
  | delay
  | panId
  | channel
  | pskc
  | channelMaskPage0
  | securityPolicy
  | rawTlvs
  | destIpAddress
  deriving DecidableEq

namespace DatasetField

def all : List DatasetField :=
  [activeTimestamp, pendingTimestamp, masterKey, networkName, extendedPanId, meshLocalPrefix, delay,
    panId, channel, pskc, channelMaskPage0, securityPolicy, rawTlvs, destIpAddress]

theorem mem_all (field : DatasetField) : field ∈ all := by
  cases field <;> decide

/-- The property of a field (`property.rs`). -/
def key : DatasetField → UInt32
  | activeTimestamp => 0x151C
  | pendingTimestamp => 0x151D
  | masterKey => 0x46
  | networkName => 0x44
  | extendedPanId => 0x45
  | meshLocalPrefix => 0x62
  | delay => 0x151E
  | panId => 0x36
  | channel => 0x21
  | pskc => 0x4B
  | channelMaskPage0 => 0x22
  | securityPolicy => 0x151F
  | rawTlvs => 0x1520
  | destIpAddress => 0x1527

/-- The arm of `match key`, if there is one. -/
def ofKey (key : UInt32) : Option DatasetField := all.find? (·.key = key)

end DatasetField

/-! ## 2. Reading -/

/-- `1u32 << ch`. -/
def channelBit (ch : UInt8) : UInt32 := 1 <<< ch.toUInt32

/-- The loop over the channels of a mask; a channel above 31 is passed over. -/
def channelMask (value : List UInt8) : UInt32 :=
  value.foldl (fun mask ch => if ch ≤ 31 then mask ||| channelBit ch else mask) 0

/-- The mesh-local prefix: an address and its length, which has to be 64. -/
def parseMeshLocalPrefix (r : PackReader) : Except SpinelError Ipv6Net :=
  PackReader.tryRead r.readIpv6 fun addr r =>
    PackReader.tryRead r.readUint8 fun prefixLen _ =>
      if prefixLen ≠ 64 then .error .invalidValue
      else
        match newIpv6Net addr prefixLen with
        | none => .error .invalidValue
        | some net => .ok net

def parseSecurityPolicy (r : PackReader) : Except SpinelError SecurityPolicy :=
  PackReader.tryRead r.readUint16 fun keyRotationTime r =>
    PackReader.tryRead r.readUint8 fun flags _ => .ok ⟨keyRotationTime, flags⟩

/-- The arm of `parse_entry` for a field. -/
def DatasetField.parse (field : DatasetField) (value : List UInt8) (d : OperationalDataset) :
    Except SpinelError OperationalDataset :=
  let r := PackReader.new value
  match field with
  | activeTimestamp => r.readUint64.1.map fun v => { d with activeTimestamp := some v }
  | pendingTimestamp => r.readUint64.1.map fun v => { d with pendingTimestamp := some v }
  | masterKey => .ok { d with masterKey := some value }
  | networkName => r.readUtf8.1.map fun v => { d with networkName := some v }
  | extendedPanId => .ok { d with extendedPanId := some value }
  | meshLocalPrefix => (parseMeshLocalPrefix r).map fun v => { d with meshLocalPrefix := some v }
  | panId => r.readUint16.1.map fun v => { d with panId := some v }
  | channel => r.readUint8.1.map fun v => { d with channel := some v }
  | pskc => .ok { d with pskc := some value }
  | channelMaskPage0 => .ok { d with channelMaskPage0 := some (channelMask value) }
  | securityPolicy => (parseSecurityPolicy r).map fun v => { d with securityPolicy := some v }
  | rawTlvs => .ok { d with rawTlvs := some value }
  | delay => r.readUint32.1.map fun v => { d with delay := some v }
  | destIpAddress => r.readIpv6.1.map fun v => { d with destIpAddress := some v }

namespace OperationalDataset

/-- `parse_entry`; an unknown key is skipped. -/
def parseEntry (d : OperationalDataset) (key : UInt32) (value : List UInt8) :
    Except SpinelError OperationalDataset :=
  match DatasetField.ofKey key with
  | none => .ok d
  | some field => field.parse value d

/-- `while !reader.is_empty()`; every turn reads two bytes at least. -/
def fromSpinelFrameLoop :
    Nat → PackReader → OperationalDataset → Except SpinelError OperationalDataset
  | 0, _, dataset => .ok dataset
  | fuel + 1, reader, dataset =>
    if reader.remaining = 0 then .ok dataset
    else
      PackReader.tryRead reader.readStruct fun entry reader =>
        PackReader.tryRead (PackReader.new entry).readUintPacked fun propKey sub =>
          PackReader.tryRead (sub.readBytes sub.remaining) fun value _ =>
            match dataset.parseEntry propKey value with
            | .error e => .error e
            | .ok dataset => fromSpinelFrameLoop fuel reader dataset

def fromSpinelFrame (data : List UInt8) : Except SpinelError OperationalDataset :=
  fromSpinelFrameLoop data.length (PackReader.new data) {}

end OperationalDataset

/-! ## 3. Writing -/

/-- The loop over the bits of a mask. -/
def writeChannels (mask : UInt32) (frame : PackWriter) : PackWriter :=
  (List.range 32).foldl (fun frame ch =>
    if mask &&& channelBit (UInt8.ofNat ch) ≠ 0 then frame.writeUint8 (UInt8.ofNat ch) else frame)
    frame

/-- The writes of a field's value, if the field is set. -/
def DatasetField.write (field : DatasetField) (d : OperationalDataset) : Option (PackWriter → PackWriter) :=
  match field with
  | activeTimestamp => d.activeTimestamp.map fun v frame => frame.writeUint64 v
  | pendingTimestamp => d.pendingTimestamp.map fun v frame => frame.writeUint64 v
  | masterKey => d.masterKey.map fun v frame => frame.writeBytes v
  | networkName => d.networkName.map fun v frame => frame.writeUtf8 v
  | extendedPanId => d.extendedPanId.map fun v frame => frame.writeBytes v
  | meshLocalPrefix =>
    d.meshLocalPrefix.map fun v frame => (frame.writeIpv6 v.addr).writeUint8 v.prefixLen
  | delay => d.delay.map fun v frame => frame.writeUint32 v
  | panId => d.panId.map fun v frame => frame.writeUint16 v
  | channel => d.channel.map fun v frame => frame.writeUint8 v
  | pskc => d.pskc.map fun v frame => frame.writeBytes v
  | channelMaskPage0 => d.channelMaskPage0.map fun v frame => writeChannels v frame
  | securityPolicy =>
    d.securityPolicy.map fun v frame => (frame.writeUint16 v.keyRotationTime).writeUint8 v.flags
  | rawTlvs => d.rawTlvs.map fun v frame => frame.writeBytes v
  | destIpAddress => d.destIpAddress.map fun v frame => frame.writeIpv6 v

/-- One block of `to_spinel_frame`: the key, and the value if wanted. `none`: the `assert!` of
    `write_uint_packed`. -/
def DatasetField.writeEntry (field : DatasetField) (d : OperationalDataset) (includeValues : Bool)
    (frame : PackWriter) : Option PackWriter :=
  match field.write d with
  | none => some frame
  | some write =>
    let (frame, start) := frame.writeStructStart
    (frame.writeUintPacked field.key).map fun frame =>
      (if includeValues then write frame else frame).writeStructEnd start

def OperationalDataset.toSpinelFrame (d : OperationalDataset) (includeValues : Bool) :
    Option (List UInt8) :=
  (DatasetField.all.foldlM
    (fun frame (field : DatasetField) => field.writeEntry d includeValues frame)
    PackWriter.new).map PackWriter.intoBytes

/-! ## 4. Channel masks -/

def channels (mask : UInt32) : List UInt8 :=
  ((List.range 32).map UInt8.ofNat).filter fun ch => mask &&& channelBit ch ≠ 0

theorem foldl_writeUint8 (p : UInt8 → Bool) (chs : List Nat) (frame : PackWriter) :
    chs.foldl (fun frame ch =>
        if p (UInt8.ofNat ch) then frame.writeUint8 (UInt8.ofNat ch) else frame) frame =
      ⟨frame.buf ++ (chs.map UInt8.ofNat).filter p⟩ := by
  induction chs generalizing frame with
  | nil => simp
  | cons ch chs ih =>
    rw [foldl_cons, ih, map_cons, filter_cons]
    split
    · simp [PackWriter.writeUint8]
    · rfl

theorem writeChannels_eq (mask : UInt32) (frame : PackWriter) :
    writeChannels mask frame = ⟨frame.buf ++ channels mask⟩ := by
  rw [channels, ← foldl_writeUint8 (fun ch => mask &&& channelBit ch ≠ 0) (range 32) frame]
  simp [writeChannels]

variable {ch : UInt8} {data : List UInt8}

theorem toNat_channelBit (h : ch ≤ 31) : (channelBit ch).toNat = 2 ^ ch.toNat := by
  have hle : ch.toNat ≤ 31 := UInt8.le_iff_toNat_le.mp h
  have hmod : ch.toNat % 32 = ch.toNat := Nat.mod_eq_of_lt (by omega)
  have hlt : 2 ^ ch.toNat < 2 ^ 32 := Nat.pow_lt_pow_right (by decide) (by omega)
  rw [channelBit, UInt32.toNat_shiftLeft, UInt8.toNat_toUInt32, hmod, UInt32.toNat_one,
    Nat.shiftLeft_eq, one_mul, Nat.mod_eq_of_lt hlt]

theorem and_channelBit_ne_zero (h : ch ≤ 31) (mask : UInt32) :
    mask &&& channelBit ch ≠ 0 ↔ mask.toNat.testBit ch.toNat := by
  rw [Ne, ← UInt32.toNat_inj, UInt32.toNat_and, toNat_channelBit h, Nat.and_two_pow]
  cases mask.toNat.testBit ch.toNat <;> simp

theorem testBit_channelMask (value : List UInt8) (mask : UInt32) (i : Nat) :
    (value.foldl (fun mask ch => if ch ≤ 31 then mask ||| channelBit ch else mask)
        mask).toNat.testBit i =
      (mask.toNat.testBit i || decide (∃ ch ∈ value, ch ≤ 31 ∧ ch.toNat = i)) := by
  induction value generalizing mask with
  | nil => simp
  | cons ch value ih =>
    rw [foldl_cons, ih]
    by_cases hle : ch ≤ 31
    · rw [if_pos hle, UInt32.toNat_or, Nat.testBit_or, toNat_channelBit hle, Nat.testBit_two_pow]
      simp [hle, Bool.or_assoc]
    · simp [hle]

/-- **A mask is the mask of its channels.** -/
theorem channelMask_channels (mask : UInt32) : channelMask (channels mask) = mask := by
  rw [← UInt32.toNat_inj]
  refine Nat.eq_of_testBit_eq fun i => ?_
  rw [channelMask, testBit_channelMask, UInt32.toNat_zero, Nat.zero_testBit, Bool.false_or]
  rcases Nat.lt_or_ge i 32 with hlt | hge
  · have hi : (UInt8.ofNat i).toNat = i := by
      rw [UInt8.toNat_ofNat']
      omega
    have hle : UInt8.ofNat i ≤ 31 := UInt8.le_iff_toNat_le.mpr (by rw [hi]; exact Nat.le_of_lt_succ hlt)
    have hbit := and_channelBit_ne_zero hle mask
    rw [hi] at hbit
    rw [Bool.eq_iff_iff, decide_eq_true_iff, ← hbit]
    constructor
    · intro ⟨ch, hch, _, he⟩
      obtain rfl : ch = UInt8.ofNat i := by rw [← UInt8.toNat_inj, he, hi]
      exact of_decide_eq_true (mem_filter.mp hch).2
    · intro hne
      refine ⟨UInt8.ofNat i, mem_filter.mpr ⟨?_, decide_eq_true hne⟩, hle, hi⟩
      exact mem_map_of_mem (mem_range.mpr hlt)
  · -- no mask has a bit above 31, and no channel is counted there
    have hpow : 2 ^ 32 ≤ 2 ^ i := Nat.pow_le_pow_right (by decide) hge
    rw [Nat.testBit_eq_false_of_lt (mask.toNat_lt.trans_le hpow), decide_eq_false_iff_not]
    intro ⟨ch, _, hle, he⟩
    have : ch.toNat ≤ 31 := UInt8.le_iff_toNat_le.mp hle
    omega

/-! ## 5. The frame is the entries of the fields -/

/-- The bytes of a field's value, if the field is set. -/
def DatasetField.value (field : DatasetField) (d : OperationalDataset) : Option (List UInt8) :=
  (field.write d).map fun write => (write .new).buf

/-- The entries of a dataset: the key of every field that is set, with its value or without. -/
def OperationalDataset.entries (d : OperationalDataset) (includeValues : Bool) :
    List (UInt32 × List UInt8) :=
  DatasetField.all.filterMap fun field =>
    (field.value d).map fun value => (field.key, if includeValues then value else [])

def keyedEntry (e : UInt32 × List UInt8) : List UInt8 := PackWriter.uintPackedBytes e.1 ++ e.2

theorem DatasetField.value_eq (field : DatasetField) (d : OperationalDataset) :
    field.value d =
      match field with
      | activeTimestamp => d.activeTimestamp.map fun v => leBytes 8 v.toNat
      | pendingTimestamp => d.pendingTimestamp.map fun v => leBytes 8 v.toNat
      | masterKey => d.masterKey
      | networkName => d.networkName.map fun v => asBytes v ++ [0]
      | extendedPanId => d.extendedPanId
      | meshLocalPrefix => d.meshLocalPrefix.map fun v => v.addr.val ++ [v.prefixLen]
      | delay => d.delay.map fun v => leBytes 4 v.toNat
      | panId => d.panId.map fun v => leBytes 2 v.toNat
      | channel => d.channel.map fun v => [v]
      | pskc => d.pskc
      | channelMaskPage0 => d.channelMaskPage0.map channels
      | securityPolicy =>
        d.securityPolicy.map fun v => leBytes 2 v.keyRotationTime.toNat ++ [v.flags]
      | rawTlvs => d.rawTlvs
      | destIpAddress => d.destIpAddress.map fun v => v.val := by
  cases field with
  | channelMaskPage0 =>
    simp only [value, write, Option.map_map, writeChannels_eq]
    rfl
  | _ =>
    simp [value, write, Function.comp_def, PackWriter.new, PackWriter.writeUint64,
      PackWriter.writeUint32, PackWriter.writeUint16, PackWriter.writeUint8, PackWriter.writeBytes,
      PackWriter.writeUtf8, PackWriter.writeIpv6]

section Write

variable {field : DatasetField} {d : OperationalDataset}

theorem DatasetField.key_le (field : DatasetField) : field.key ≤ spinelMaxUintPacked := by
  cases field <;> decide

theorem DatasetField.write_append {write : PackWriter → PackWriter}
    (h : field.write d = some write) (frame : PackWriter) :
    write frame = ⟨frame.buf ++ (write .new).buf⟩ := by
  cases field with
  | channelMaskPage0 =>
    obtain ⟨mask, -, rfl⟩ := map_eq_some_iff.mp h
    simp only [writeChannels_eq]
    rfl
  | _ =>
    obtain ⟨v, -, rfl⟩ := map_eq_some_iff.mp h
    simp [PackWriter.new, PackWriter.writeUint64, PackWriter.writeUint32, PackWriter.writeUint16,
      PackWriter.writeUint8, PackWriter.writeBytes, PackWriter.writeUtf8, PackWriter.writeIpv6]

def DatasetField.block (field : DatasetField) (d : OperationalDataset) (includeValues : Bool) :
    List UInt8 :=
  match field.value d with
  | none => []
  | some value => structEntry (keyedEntry (field.key, if includeValues then value else []))

/-- **A block of the writer appends the entry of its field.** -/
theorem DatasetField.writeEntry_eq (field : DatasetField) (d : OperationalDataset)
    (includeValues : Bool) (frame : PackWriter) : field.writeEntry d includeValues frame =
      some ⟨frame.buf ++ field.block d includeValues⟩ := by
  rw [writeEntry, block, value]
  cases hwrite : field.write d with
  | none => simp
  | some write =>
    have hvalue : (if includeValues then
          write ⟨frame.writeStructStart.1.buf ++ PackWriter.uintPackedBytes field.key⟩
          else ⟨frame.writeStructStart.1.buf ++ PackWriter.uintPackedBytes field.key⟩) =
        ⟨frame.writeStructStart.1.buf ++
          keyedEntry (field.key, if includeValues then (write .new).buf else [])⟩ := by
      cases includeValues with
      | false => simp [keyedEntry]
      | true =>
        rw [if_pos rfl, if_pos rfl, write_append hwrite, keyedEntry, append_assoc]
    simp only [PackWriter.writeUintPacked, if_pos field.key_le, map_some, hvalue]
    rw [PackWriter.writeStructEnd_start]

/-- **The frame is the blocks of the fields, one after the other.** -/
theorem OperationalDataset.toSpinelFrame_blocks (d : OperationalDataset) (includeValues : Bool) :
    d.toSpinelFrame includeValues =
      some (DatasetField.all.flatMap fun field => field.block d includeValues) := by
  have hrun : ∀ (fields : List DatasetField) (frame : PackWriter),
      fields.foldlM (fun frame (field : DatasetField) => field.writeEntry d includeValues frame)
          frame =
        some ⟨frame.buf ++ fields.flatMap fun field => field.block d includeValues⟩ := by
    intro fields
    induction fields with
    | nil => intro frame; simp
    | cons field fields ih =>
      intro frame
      rw [foldlM_cons, field.writeEntry_eq]
      show foldlM _ _ _ = _
      rw [ih, flatMap_cons, append_assoc]
  rw [toSpinelFrame, hrun]
  rfl

theorem OperationalDataset.toSpinelFrame_eq (d : OperationalDataset) (includeValues : Bool) :
    d.toSpinelFrame includeValues = some (structEntries ((d.entries includeValues).map keyedEntry)) := by
  have hfields : ∀ fields : List DatasetField,
      (fields.flatMap fun field => field.block d includeValues) =
        structEntries ((fields.filterMap fun field => (field.value d).map fun value =>
          (field.key, if includeValues then value else [])).map keyedEntry) := by
    intro fields
    induction fields with
    | nil => rfl
    | cons field fields ih =>
      rw [flatMap_cons, ih, filterMap_cons, DatasetField.block]
      cases field.value d <;> simp [structEntries]
  rw [d.toSpinelFrame_blocks, hfields]
  rfl

end Write

/-! ## 6. Reading goes over the entries -/

/-- A step over the entries. -/
def OperationalDataset.parsed (d : OperationalDataset) (e : UInt32 × List UInt8) :
    Option OperationalDataset := (d.parseEntry e.1 e.2).toOption

open OperationalDataset

theorem fromSpinelFrameLoop_eq (fuel : Nat) {r : PackReader} (d : OperationalDataset) (h : r.At data) :
    (fromSpinelFrameLoop fuel r d).toOption = foldEntries parsed fuel data d := by
  induction fuel generalizing r data d with
  | zero => rfl
  | succ fuel ih =>
    rw [fromSpinelFrameLoop, foldEntries, h.remaining]
    split
    · rfl
    · refine (reads_dataWithLen h).tryRead fun entry r post hat => ?_
      refine (reads_uintPacked (at_new entry)).tryRead fun key sub value hsub => ?_
      -- the value is all that is left of the entry
      have hsub' : sub.At (value ++ []) := by
        rw [append_nil]
        exact hsub
      rw [(readBytes_append hsub' hsub.remaining.symm).1, tryRead]
      cases hparse : d.parseEntry key value with
      | error e => simp [parsed, hparse, Except.toOption]
      | ok d' => simpa [parsed, hparse, Except.toOption] using ih d' hat

/-- **A frame is accepted iff it is a sequence of entries that are parsed one after the other.** -/
theorem fromSpinelFrame_eq_ok {d : OperationalDataset} : fromSpinelFrame data = .ok d ↔
      ∃ es, Keyed data es ∧ es.foldlM parsed {} = some d := by
  have hloop := fromSpinelFrameLoop_eq data.length {} (at_new data)
  rw [← foldEntries_eq_some (Nat.le_refl data.length), ← hloop, fromSpinelFrame]
  cases fromSpinelFrameLoop data.length (new data) {} <;>
    simp [Except.toOption]

/-! ## 7. Round trip -/

namespace DatasetField

theorem ofKey_key (field : DatasetField) : ofKey field.key = some field := by
  cases field <;> rfl

/-- A dataset over another one, in one field: the upper one's value, if it has one. -/
def overlay (field : DatasetField) (upper lower : OperationalDataset) : OperationalDataset :=
  match field with
  | activeTimestamp =>
    { lower with activeTimestamp := upper.activeTimestamp.or lower.activeTimestamp }
  | pendingTimestamp =>
    { lower with pendingTimestamp := upper.pendingTimestamp.or lower.pendingTimestamp }
  | masterKey => { lower with masterKey := upper.masterKey.or lower.masterKey }
  | networkName => { lower with networkName := upper.networkName.or lower.networkName }
  | extendedPanId => { lower with extendedPanId := upper.extendedPanId.or lower.extendedPanId }
  | meshLocalPrefix =>
    { lower with meshLocalPrefix := upper.meshLocalPrefix.or lower.meshLocalPrefix }
  | delay => { lower with delay := upper.delay.or lower.delay }
  | panId => { lower with panId := upper.panId.or lower.panId }
  | channel => { lower with channel := upper.channel.or lower.channel }
  | pskc => { lower with pskc := upper.pskc.or lower.pskc }
  | channelMaskPage0 =>
    { lower with channelMaskPage0 := upper.channelMaskPage0.or lower.channelMaskPage0 }
  | securityPolicy => { lower with securityPolicy := upper.securityPolicy.or lower.securityPolicy }
  | rawTlvs => { lower with rawTlvs := upper.rawTlvs.or lower.rawTlvs }
  | destIpAddress => { lower with destIpAddress := upper.destIpAddress.or lower.destIpAddress }

theorem foldl_overlay_all (d : OperationalDataset) :
    all.foldl (fun lower field => field.overlay d lower) {} = d := by
  simp [all, overlay]

theorem overlay_of_unset {field : DatasetField} {d : OperationalDataset}
    (h : field.value d = none) (lower : OperationalDataset) : field.overlay d lower = lower := by
  rw [value_eq] at h
  cases field <;> simp only [map_eq_none_iff] at h <;> simp only [overlay, h, none_or]

end DatasetField

section RoundTrip

variable {d : OperationalDataset}

theorem parseMeshLocalPrefix_append {net : Ipv6Net} (h : net.prefixLen = 64) :
    parseMeshLocalPrefix (new (net.addr.val ++ [net.prefixLen])) = .ok net := by
  obtain ⟨haddr, hat⟩ := readIpv6_append net.addr (at_new (net.addr.val ++ [net.prefixLen]))
  obtain ⟨hlen, -⟩ := readUint8_cons hat
  simp only [parseMeshLocalPrefix, haddr, hlen, tryRead]
  rw [if_neg (not_not.mpr h), newIpv6Net, dif_pos net.bound]

theorem parseSecurityPolicy_append (policy : SecurityPolicy) :
    parseSecurityPolicy (new (leBytes 2 policy.keyRotationTime.toNat ++ [policy.flags])) = .ok policy := by
  obtain ⟨htime, hat⟩ := readUint16_append
    (at_new (leBytes 2 policy.keyRotationTime.toNat ++ [policy.flags]))
  obtain ⟨hflags, -⟩ := readUint8_cons hat
  simp only [parseSecurityPolicy, htime, hflags, tryRead]

/-- **What was written for a field is parsed into that field.** -/
theorem DatasetField.parse_value {field : DatasetField} {value : List UInt8}
    (hname : ∀ s, d.networkName = some s → 0 ∉ asBytes s)
    (hlen : ∀ net, d.meshLocalPrefix = some net → net.prefixLen = 64)
    (h : field.value d = some value) (lower : OperationalDataset) :
    field.parse value lower = .ok (field.overlay d lower) := by
  rw [value_eq] at h
  cases field with
  | masterKey | extendedPanId | pskc | rawTlvs => simp_all [parse, overlay]
  | activeTimestamp | pendingTimestamp =>
    obtain ⟨v, hv, rfl⟩ := map_eq_some_iff.mp h
    have hread := reads_uint64 (at_new (leBytes 8 v.toNat ++ []))
    rw [unpackUint64_leBytes, append_nil] at hread
    simp [parse, overlay, hv, hread.eq_ok, Except.map]
  | networkName =>
    obtain ⟨s, hs, rfl⟩ := map_eq_some_iff.mp h
    have hread := reads_utf8 (at_new (asBytes s ++ 0 :: []))
    rw [unpackUtf8_append (hname s hs)] at hread
    simp [parse, overlay, hs, hread.eq_ok, Except.map]
  | meshLocalPrefix =>
    obtain ⟨net, hnet, rfl⟩ := map_eq_some_iff.mp h
    simp [parse, overlay, hnet, parseMeshLocalPrefix_append (hlen net hnet), Except.map]
  | delay =>
    obtain ⟨v, hv, rfl⟩ := map_eq_some_iff.mp h
    have hread := reads_uint32 (at_new (leBytes 4 v.toNat ++ []))
    rw [unpackUint32_leBytes, append_nil] at hread
    simp [parse, overlay, hv, hread.eq_ok, Except.map]
  | panId =>
    obtain ⟨v, hv, rfl⟩ := map_eq_some_iff.mp h
    have hread := reads_uint16 (at_new (leBytes 2 v.toNat ++ []))
    rw [unpackUint16_leBytes, append_nil] at hread
    simp [parse, overlay, hv, hread.eq_ok, Except.map]
  | channel =>
    obtain ⟨v, hv, rfl⟩ := map_eq_some_iff.mp h
    have hread := (readUint8_cons (at_new (v :: []))).1
    simp [parse, overlay, hv, hread, Except.map]
  | channelMaskPage0 =>
    obtain ⟨mask, hmask, rfl⟩ := map_eq_some_iff.mp h
    simp [parse, overlay, hmask, channelMask_channels]
  | securityPolicy =>
    obtain ⟨policy, hpolicy, rfl⟩ := map_eq_some_iff.mp h
    simp [parse, overlay, hpolicy, parseSecurityPolicy_append, Except.map]
  | destIpAddress =>
    obtain ⟨addr, haddr, rfl⟩ := map_eq_some_iff.mp h
    have hread := reads_ipv6 (at_new (addr.val ++ []))
    rw [unpackIpv6_append, append_nil] at hread
    simp [parse, overlay, haddr, hread.eq_ok, Except.map]

/-- **The entries of some fields put these fields over what is there.** -/
theorem foldlM_parsed_entries (hname : ∀ s, d.networkName = some s → 0 ∉ asBytes s)
    (hlen : ∀ net, d.meshLocalPrefix = some net → net.prefixLen = 64)
    (fields : List DatasetField) (lower : OperationalDataset) :
    (fields.filterMap fun field => (field.value d).map fun value =>
        (field.key, if true then value else [])).foldlM parsed lower =
      some (fields.foldl (fun lower field => field.overlay d lower) lower) := by
  induction fields generalizing lower with
  | nil => rfl
  | cons field fields ih =>
    rw [filterMap_cons, foldl_cons]
    cases hvalue : field.value d with
    | none =>
      rw [field.overlay_of_unset hvalue]
      exact ih lower
    | some value =>
      have hstep : lower.parsed (field.key, value) = some (field.overlay d lower) := by
        rw [parsed, parseEntry, field.ofKey_key]
        simp only [field.parse_value hname hlen hvalue, Except.toOption]
      simp only [map_some, if_true, foldlM_cons, hstep]
      exact ih _

/-- **A dataset comes back from its frame**, if its name has no NUL, its prefix has 64 bits and every entry
    fits its length. -/
theorem OperationalDataset.fromSpinelFrame_toSpinelFrame (d : OperationalDataset)
    (hname : ∀ s, d.networkName = some s → 0 ∉ asBytes s)
    (hlen : ∀ net, d.meshLocalPrefix = some net → net.prefixLen = 64)
    (hfit : ∀ (field : DatasetField) (value : List UInt8), field.value d = some value →
      (PackWriter.uintPackedBytes field.key).length + value.length < 65536) :
    ∃ frame, d.toSpinelFrame true = some frame ∧ fromSpinelFrame frame = .ok d := by
  refine ⟨_, d.toSpinelFrame_eq true, fromSpinelFrame_eq_ok.mpr ⟨d.entries true, ?_, ?_⟩⟩
  · have hentry : ∀ e ∈ d.entries true, ∃ field : DatasetField, ∃ value,
        field.value d = some value ∧ e = (field.key, value) := by
      intro e he
      obtain ⟨field, -, he⟩ := mem_filterMap.mp he
      obtain ⟨value, hvalue, rfl⟩ := map_eq_some_iff.mp he
      exact ⟨field, value, hvalue, rfl⟩
    refine keyed_structEntries (d.entries true) (fun e he => ?_) (fun e he => ?_)
    · obtain ⟨field, value, -, rfl⟩ := hentry e he
      exact field.key_le
    · obtain ⟨field, value, hvalue, rfl⟩ := hentry e he
      rw [Fits, length_append]
      exact hfit field value hvalue
  · rw [entries, foldlM_parsed_entries hname hlen, DatasetField.foldl_overlay_all]

/-- A dataset with a name, a prefix, a mask and an empty key. -/
theorem dataset_comes_back :
    let d : OperationalDataset :=
      { networkName := some "Wi-SUN"
        meshLocalPrefix := some ⟨⟨0xFD :: replicate 15 0, rfl⟩, 64, by decide⟩
        channelMaskPage0 := some 0x80000005
        masterKey := some [] }
    ∃ frame, d.toSpinelFrame true = some frame ∧ fromSpinelFrame frame = .ok d := by
  refine fromSpinelFrame_toSpinelFrame _ ?_ ?_ ?_
  · intro s hs
    cases hs
    decide +kernel
  · intro net hnet
    cases hnet
    rfl
  · intro field value h
    cases field <;> cases h <;> decide +kernel

end RoundTrip

end DcuDaemon.Instance
