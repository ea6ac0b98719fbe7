/-
  The operational dataset of the C++ daemon (`src/ncp-spinel/SpinelNCPThreadDataset.cpp`:
  `set_from_spinel_frame`, `parse_dataset_entry`, `convert_to_spinel_frame`).

  The pack helpers are taken at their documented format (`Spinel/Datatype.lean`). A prefix is an address
  only, its length is always 64, and a name is the bytes of a `std::string`.
-/
import DcuDaemon.Instance.Dataset

namespace DcuDaemon.Wfantund

open Addresses (Ipv6Addr)
open Instance (DatasetField SecurityPolicy)
open Spinel Spinel.Datatype

/-! ## 1. Data -/

structure ThreadDataset where
  mActiveTimestamp : Option UInt64 := none
  mPendingTimestamp : Option UInt64 := none
  mMasterKey : Option (List UInt8) := none
  mNetworkName : Option (List UInt8) := none
  mExtendedPanId : Option (List UInt8) := none
  mMeshLocalPrefix : Option Ipv6Addr := none
  mDelay : Option UInt32 := none
  mPanId : Option UInt16 := none
  mChannel : Option UInt8 := none
  mPSKc : Option (List UInt8) := none
  mChannelMaskPage0 : Option UInt32 := none
  mSecurityPolicy : Option SecurityPolicy := none
  mRawTlvs : Option (List UInt8) := none
  mDestIpAddress : Option Ipv6Addr := none
  deriving DecidableEq

/-- The two results of `set_from_spinel_frame`. -/
inductive WpantundStatus where
  | ok
  | failure
  deriving DecidableEq, Repr

/-- The property of a field (`spinel.h`). -/
def spinelProp : DatasetField → UInt32
  | .activeTimestamp => 0x1500 + 28
  | .pendingTimestamp => 0x1500 + 29
  | .masterKey => 0x40 + 6
  | .networkName => 0x40 + 4
  | .extendedPanId => 0x40 + 5
  | .meshLocalPrefix => 0x60 + 2
  | .delay => 0x1500 + 30
  | .panId => 0x30 + 6
  | .channel => 0x20 + 1
  | .pskc => 0x40 + 11
  | .channelMaskPage0 => 0x20 + 2
  | .securityPolicy => 0x1500 + 31
  | .rawTlvs => 0x1500 + 32
  | .destIpAddress => 0x1500 + 39

def kMeshLocalPrefixLen : UInt8 := 64

namespace ThreadDataset

def clear (_ : ThreadDataset) : ThreadDataset := {}

/-! ## 2. Reading -/

/-- The loop over the channels of a mask; a channel above 31 is a failure. -/
def channelMaskLoop : List UInt8 → UInt32 → Option UInt32
  | [], channelMask => some channelMask
  | channel :: value, channelMask =>
    if channel ≤ 31 then channelMaskLoop value (channelMask ||| ((1 : UInt32) <<< channel.toUInt32)) else none

/-- `require_action(value_len > 0, ..)`. -/
def requireData (value : List UInt8) : Option (List UInt8) :=
  if value.length > 0 then some value else none

variable (c : ThreadDataset)

/-- The case of `parse_dataset_entry` for a field. -/
def parseField (field : DatasetField) (value : List UInt8) : Option ThreadDataset :=
  match field with
  | .activeTimestamp => (unpackUint64 value).map fun x => { c with mActiveTimestamp := some x.1 }
  | .pendingTimestamp => (unpackUint64 value).map fun x => { c with mPendingTimestamp := some x.1 }
  | .masterKey => (requireData value).map fun v => { c with mMasterKey := some v }
  | .networkName => (unpackUtf8 value).map fun x => { c with mNetworkName := some (asBytes x.1) }
  | .extendedPanId => (requireData value).map fun v => { c with mExtendedPanId := some v }
  | .meshLocalPrefix =>
    (unpackIpv6 value).bind fun x => (unpackUint8 x.2).bind fun y =>
      if y.1 = kMeshLocalPrefixLen then some { c with mMeshLocalPrefix := some x.1 } else none
  | .delay => (unpackUint32 value).map fun x => { c with mDelay := some x.1 }
  | .panId => (unpackUint16 value).map fun x => { c with mPanId := some x.1 }
  | .channel => (unpackUint8 value).map fun x => { c with mChannel := some x.1 }
  | .pskc => (requireData value).map fun v => { c with mPSKc := some v }
  | .channelMaskPage0 =>
    (channelMaskLoop value 0).map fun v => { c with mChannelMaskPage0 := some v }
  | .securityPolicy =>
    (unpackUint16 value).bind fun x => (unpackUint8 x.2).map fun y =>
      { c with mSecurityPolicy := some ⟨x.1, y.1⟩ }
  | .rawTlvs => (requireData value).map fun v => { c with mRawTlvs := some v }
  | .destIpAddress => (unpackIpv6 value).map fun x => { c with mDestIpAddress := some x.1 }

/-- The `switch` of `parse_dataset_entry`; an unknown key is only logged. -/
def parseValue (e : UInt32 × List UInt8) : Option ThreadDataset :=
  match DatasetField.all.find? (spinelProp · = e.1) with
  | none => some c
  | some field => c.parseField field e.2

def parseDatasetEntry (data : List UInt8) : Option ThreadDataset :=
  (unpackUintPacked data).bind fun e => c.parseValue e

/-- `while (data_len > 0)`. Every turn takes two bytes at least. -/
def setFromSpinelFrameLoop : Nat → List UInt8 → ThreadDataset → Option ThreadDataset
  | 0, _, c => some c
  | fuel + 1, data, c =>
    if data.length = 0 then some c
    else
      (unpackDataWlen data).bind fun x =>
        (c.parseDatasetEntry x.1).bind fun c => setFromSpinelFrameLoop fuel x.2 c

/-- `set_from_spinel_frame`: a failure leaves the dataset cleared. -/
def setFromSpinelFrame (data : List UInt8) : WpantundStatus × ThreadDataset :=
  match setFromSpinelFrameLoop data.length data c.clear with
  | some c => (.ok, c)
  | none => (.failure, c.clear)

/-! ## 3. Writing -/

/-- What `strlen` sees of a string. -/
def cStr (s : List UInt8) : List UInt8 := s.takeWhile (· ≠ 0)

/-- The channels of a mask, as `mask_data`. -/
def maskData (mask : UInt32) : List UInt8 :=
  ((List.range 32).map UInt8.ofNat).filter fun i => mask &&& ((1 : UInt32) <<< i.toUInt32) ≠ 0

/-- The value that is packed for a field, if the field is set. -/
def packedValue (field : DatasetField) : Option (List UInt8) :=
  match field with
  | .activeTimestamp => c.mActiveTimestamp.map fun v => leBytes 8 v.toNat
  | .pendingTimestamp => c.mPendingTimestamp.map fun v => leBytes 8 v.toNat
  | .masterKey => c.mMasterKey
  | .networkName => c.mNetworkName.map fun v => cStr v ++ [0]
  | .extendedPanId => c.mExtendedPanId
  | .meshLocalPrefix => c.mMeshLocalPrefix.map fun v => v.val ++ [kMeshLocalPrefixLen]
  | .delay => c.mDelay.map fun v => leBytes 4 v.toNat
  | .panId => c.mPanId.map fun v => leBytes 2 v.toNat
  | .channel => c.mChannel.map fun v => [v]
  | .pskc => c.mPSKc
  | .channelMaskPage0 => c.mChannelMaskPage0.map maskData
  | .securityPolicy =>
    c.mSecurityPolicy.map fun v => leBytes 2 v.keyRotationTime.toNat ++ [v.flags]
  | .rawTlvs => c.mRawTlvs
  | .destIpAddress => c.mDestIpAddress.map fun v => v.val

/-- The blocks of the raw TLVs and of the destination do not ask for `include_value`. -/
def valueAlways : DatasetField → Bool
  | .rawTlvs | .destIpAddress => true
  | _ => false

/-- One block of `convert_to_spinel_frame`: "t(i..)", with the value or without. -/
def packEntry (includeValue : Bool) (field : DatasetField) : List UInt8 :=
  match c.packedValue field with
  | none => []
  | some value =>
    structEntry (packUintPacked (spinelProp field) ++
      if includeValue || valueAlways field then value else [])

def convertToSpinelFrame (includeValue : Bool) : List UInt8 :=
  DatasetField.all.flatMap (c.packEntry includeValue)

end ThreadDataset

end DcuDaemon.Wfantund
