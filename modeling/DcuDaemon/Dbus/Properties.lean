/-
  The D-Bus values and the properties that the daemon answers from its own state
  (`crates/dcu-dbus/src/properties.rs`, `types.rs`, `crates/wisun-types/src/network_config.rs`,
  `ncp_state.rs`).

  A value is one of the variants the daemon tells apart, or another one of a type that it only prints.
  What the libraries below it print and convert is in `Externals`.

  Main definitions: `getPropertyLocked`, `setPropertyLocked`.
-/
import DcuDaemon.Lib.HashTable
import DcuDaemon.Lib.Radix
import DcuDaemon.Spinel.Pack

namespace DcuDaemon.Dbus

open Lib
open Spinel.PackReader (leValue)

/-! ## 1. Values -/

/-- `zbus::zvariant::Value`; `ω` has the values of the kinds that are not told apart. An `f64` is
    given by its bits. -/
inductive Variant (ω : Type) where
  | u8 (n : UInt8)
  | u16 (n : UInt16)
  | u32 (n : UInt32)
  | u64 (n : UInt64)
  | i16 (n : Int16)
  | i32 (n : Int32)
  | i64 (n : Int64)
  | f64 (bits : UInt64)
  | bool (b : Bool)
  | str (s : String)
  | other (v : ω)
  deriving DecidableEq

abbrev Ipv6Address := { octets : List UInt8 // octets.length = 16 }

abbrev Eui64 := { octets : List UInt8 // octets.length = 8 }

/-- What the daemon takes from the libraries below it. -/
structure Externals (ω : Type) where
  /-- `f64::to_string`. -/
  f64ToString : UInt64 → String
  /-- `n as f64`. -/
  f64OfInt32 : Int32 → UInt64
  /-- `{:?}` of a value. -/
  debug : Variant ω → String
  /-- `{}` of a `std::net::Ipv6Addr`. -/
  ipv6ToString : Ipv6Address → String
  /-- `serde_json::to_string` of a map. -/
  json : HashTable String String → String

/-- Libraries without another kind of value. -/
def noExternals : Externals Empty where
  f64ToString _ := "0"
  f64OfInt32 _ := 0
  debug _ := ""
  ipv6ToString _ := "::"
  json _ := ""

/-- `DbusError`, the cases returned here. -/
inductive DbusError where
  | unknownProperty (name : String)
  | decoding (msg : String)
  deriving DecidableEq, Repr

section Conversions

variable {ω : Type} (lib : Externals ω)

def variantToString : Variant ω → String
  | .u8 n => toString n.toNat
  | .u16 n => toString n.toNat
  | .u32 n => toString n.toNat
  | .u64 n => toString n.toNat
  | .i16 n => toString n.toInt
  | .i32 n => toString n.toInt
  | .i64 n => toString n.toInt
  | .f64 bits => lib.f64ToString bits
  | .bool b => toString b
  | .str s => s
  | .other v => lib.debug (.other v)

/-- `string_from`; an `i16` is not among the values it takes. -/
def stringFrom : Variant ω → Except DbusError String
  | .str s => .ok s
  | .u8 n => .ok (toString n.toNat)
  | .u16 n => .ok (toString n.toNat)
  | .u32 n => .ok (toString n.toNat)
  | .u64 n => .ok (toString n.toNat)
  | .i32 n => .ok (toString n.toInt)
  | .i64 n => .ok (toString n.toInt)
  | v => .error (.decoding ("expected string-like value, got " ++ lib.debug v))

def boolFrom : Variant ω → Except DbusError Bool
  | .bool b => .ok b
  | .u8 n => .ok (n ≠ 0)
  | v => .error (.decoding ("expected bool, got " ++ lib.debug v))

/-- `i8_from`: the casts keep the low eight bits. -/
def i8From : Variant ω → Except DbusError Int8
  | .i16 n => .ok n.toInt8
  | .i32 n => .ok n.toInt8
  | .i64 n => .ok n.toInt8
  | .u8 n => .ok n.toInt8
  | v => .error (.decoding ("expected integer, got " ++ lib.debug v))

def f64From : Variant ω → Except DbusError UInt64
  | .f64 bits => .ok bits
  | .i32 n => .ok (lib.f64OfInt32 n)
  | v => .error (.decoding ("expected number, got " ++ lib.debug v))

end Conversions

/-! ## 2. The network ids -/

/-- `s.strip_prefix("0x").or_else(|| s.strip_prefix("0X")).unwrap_or(s)`. -/
def stripHexPrefix : List Char → List Char
  | '0' :: 'x' :: cs => cs
  | '0' :: 'X' :: cs => cs
  | cs => cs

def networkNameFromStr (s : String) : Except String String :=
  if s.utf8ByteSize > 32 then .error "NetworkName too long (max 32 bytes)" else .ok s

/-- `PanId::from_str`: hexadecimal, with or without the `0x`. -/
def panIdFromStr (s : String) : Except String UInt16 :=
  match fromStrRadix 16 65536 (stripHexPrefix (trim s.toList)) with
  | some n => .ok (UInt16.ofNat n)
  | none => .error "invalid PAN ID hex string"

/-- `{}` of a `PanId`. -/
def panIdToString (panId : UInt16) : String := String.ofList ('0' :: 'x' :: hexFixed 4 panId.toNat)

/-- Why `u8::from_str_radix` of two characters fails; both are never empty, and two digits do not
    overflow. -/
def parseIntErrorText : String := "invalid digit found in string"

/-- The loop of `parse_xpanid` over the characters. -/
def xpanidPairs : List Char → Except DbusError (List UInt8)
  | [] => .ok []
  | [_] => .error (.decoding "odd XPANID hex length")
  | hi :: lo :: cs =>
    match fromStrRadix 16 256 [hi, lo] with
    | none => .error (.decoding parseIntErrorText)
    | some byte => do .ok (UInt8.ofNat byte :: (← xpanidPairs cs))

/-- The characters that `parse_xpanid` takes in pairs. -/
def xpanidDigits (s : String) : List Char := (stripHexPrefix (trim s.toList)).filter (· ≠ ':')

/-- `parse_xpanid`: the bytes in the order of the text. -/
def parseXpanid (s : String) : Except DbusError (List UInt8) :=
  if (String.ofList (xpanidDigits s)).utf8ByteSize > 16 then .error (.decoding "XPANID too long")
  else xpanidPairs (xpanidDigits s)

/-- `xpanid_u64`: the first eight bytes, zeros behind them, as a little-endian number. -/
def xpanidU64 (bytes : List UInt8) : Nat :=
  leValue (bytes.take 8 ++ List.replicate (8 - min bytes.length 8) 0)

/-- Eight parts, each a byte in hexadecimal. -/
def eui64OfParts (text : String) (parts : List (List Char)) : Except String Eui64 :=
  match parts.mapM (fromStrRadix 16 256) with
  | none => .error text
  | some bytes =>
    if h : bytes.length = 8 then .ok ⟨bytes.map UInt8.ofNat, by simpa using h⟩ else .error text

/-- `Eui64::from_str`, called on printed bytes only, which its slices do not cut. -/
def eui64FromStr (s : String) : Except String Eui64 :=
  let cs := trim s.toList
  if ':' ∈ cs then
    if (cs.splitOn ':').length ≠ 8 then
      .error "EUI-64 colon-separated form requires exactly 8 hex bytes"
    else eui64OfParts "invalid hex byte in colon-separated EUI-64" (cs.splitOn ':')
  else if (String.ofList cs).utf8ByteSize ≠ 16 then
    .error "EUI-64 string must be exactly 16 hex digits (or 8 colon-separated bytes)"
  else eui64OfParts "invalid hex byte in EUI-64" (cs.toChunks 2)

/-! ## 3. The state -/

inductive NcpState where
  | uninitialized
  | fault
  | upgrading
  | deepSleep
  | offline
  | commissioned
  | associating
  | credentialsNeeded
  | associated
  | isolated
  | netWakeWaking
  | netWakeAsleep
  deriving DecidableEq, Repr

/-- `{}` of an `NcpState`. -/
def NcpState.toText : NcpState → String
  | .uninitialized => "uninitialized"
  | .fault => "uninitialized:fault"
  | .upgrading => "uninitialized:upgrading"
  | .deepSleep => "offline:deep-sleep"
  | .offline => "offline"
  | .commissioned => "offline:commissioned"
  | .associating => "associating"
  | .credentialsNeeded => "associating:credentials-needed"
  | .associated => "associated"
  | .isolated => "associated:no-parent"
  | .netWakeWaking => "associated:netwake-waking"
  | .netWakeAsleep => "associated:netwake-asleep"

/-- `DaemonState`: what the D-Bus properties are answered from. -/
structure DaemonState where
  ncpState : NcpState
  ncpVersion : String
  ncpProtocolVersion : String
  ncpInterfaceType : String
  hardwareAddress : Eui64
  ncpExtendedAddress : Eui64
  ncpMacAddress : Eui64
  ccaThreshold : Int8
  /-- An `f64`, by its bits. -/
  txPower : UInt64
  region : String
  modeId : String
  channel : UInt8
  frequency : UInt32
  rssi : Int32
  networkName : String
  panId : UInt16
  xpanId : List UInt8
  nodeType : String
  isCommissioned : Bool
  isConnected : Bool
  networkKey : List UInt8
  linkLocalAddress : Ipv6Address
  meshLocalAddress : Ipv6Address
  meshLocalPrefix : String
  interfaceUp : Bool
  stackUp : Bool
  /-- The `Dataset:*` values as texts. -/
  dataset : HashTable String String
  daemonEnabled : Bool
  readyForHostSleep : Bool
  /-- The views of the address manager. -/
  ipv6AllAddresses : List String
  ipv6Routes : List String
  onMeshPrefixes : List String
  offMeshRoutes : List String

def DaemonState.default : DaemonState where
  ncpState := .uninitialized
  ncpVersion := ""
  ncpProtocolVersion := ""
  ncpInterfaceType := ""
  hardwareAddress := ⟨List.replicate 8 0, rfl⟩
  ncpExtendedAddress := ⟨List.replicate 8 0, rfl⟩
  ncpMacAddress := ⟨List.replicate 8 0, rfl⟩
  ccaThreshold := 0
  txPower := 0
  region := ""
  modeId := ""
  channel := 0
  frequency := 0
  rssi := 0
  networkName := ""
  panId := 0
  xpanId := []
  nodeType := ""
  isCommissioned := false
  isConnected := false
  networkKey := []
  linkLocalAddress := ⟨List.replicate 16 0, rfl⟩
  meshLocalAddress := ⟨List.replicate 16 0, rfl⟩
  meshLocalPrefix := ""
  interfaceUp := false
  stackUp := false
  dataset := ∅
  daemonEnabled := false
  readyForHostSleep := false
  ipv6AllAddresses := []
  ipv6Routes := []
  onMeshPrefixes := []
  offMeshRoutes := []

/-! ## 4. The properties -/

/-- `s.starts_with(start)`. -/
def startsWith (start s : String) : Bool := start.toList.isPrefixOf s.toList

/-- `collect` into a map. -/
def collect (entries : List (String × String)) : HashTable String String :=
  entries.foldl (fun t x => t.insert x.1 x.2) ∅

def pairs (t : HashTable String String) : List (String × String) := t.entries.map fun x => (x.1, x.2)

/-- The keys of `Dataset:AllFields`, in the order they are listed. -/
def datasetKeys : List String :=
  ["Dataset:ActiveTimestamp", "Dataset:PendingTimestamp", "Dataset:MasterKey", "Dataset:NetworkName",
    "Dataset:ExtendedPanId", "Dataset:MeshLocalPrefix", "Dataset:Delay", "Dataset:PanId",
    "Dataset:Channel", "Dataset:PSKc", "Dataset:ChannelMaskPage0", "Dataset:SecPolicy:KeyRotation",
    "Dataset:SecPolicy:Flags", "Dataset:RawTlvs", "Dataset:DestIpAddress"]

def datasetAllFields (dataset : HashTable String String) : String :=
  String.intercalate "\n" (datasetKeys.filterMap fun key =>
    (dataset.lookup key).map fun v => key ++ " = " ++ v)

def pendingStart : String := "Thread:PendingDataset:"

def activeDataset (dataset : HashTable String String) : HashTable String String :=
  collect ((pairs dataset).filter fun x => !startsWith pendingStart x.1)

def pendingDataset (dataset : HashTable String String) : HashTable String String :=
  collect (((pairs dataset).filter fun x => startsWith pendingStart x.1).map fun x =>
    (String.ofList (x.1.toList.drop pendingStart.length), x.2))

section Properties

variable {ω : Type} (lib : Externals ω)

/-- `get_property_locked`; an `i8` becomes an `i16`. -/
def getPropertyLocked (name : String) (state : DaemonState) : Except DbusError (Variant ω) :=
  match name with
  | "NCP:State" => .ok (.str state.ncpState.toText)
  | "NCP:Version" => .ok (.str state.ncpVersion)
  | "NCP:ProtocolVersion" => .ok (.str state.ncpProtocolVersion)
  | "NCP:InterfaceType" => .ok (.str state.ncpInterfaceType)
  | "NCP:HardwareAddress" => .ok (.str (String.ofList (hexBytes state.hardwareAddress.val)))
  | "NCP:ExtendedAddress" => .ok (.str (String.ofList (hexBytes state.ncpExtendedAddress.val)))
  | "NCP:MACAddress" => .ok (.str (String.ofList (hexBytes state.ncpMacAddress.val)))
  | "NCP:CCAThreshold" => .ok (.i16 state.ccaThreshold.toInt16)
  | "NCP:TXPower" => .ok (.f64 state.txPower)
  | "NCP:Region" => .ok (.str state.region)
  | "NCP:ModeID" => .ok (.str state.modeId)
  | "NCP:Channel" => .ok (.u8 state.channel)
  | "NCP:Frequency" => .ok (.u32 state.frequency)
  | "NCP:RSSI" => .ok (.i32 state.rssi)
  | "Network:Name" => .ok (.str state.networkName)
  | "Network:PANID" => .ok (.str (panIdToString state.panId))
  | "Network:XPANID" => .ok (.str (String.ofList (hexFixed 16 (xpanidU64 state.xpanId))))
  | "Network:NodeType" => .ok (.str state.nodeType)
  | "Network:IsCommissioned" => .ok (.bool state.isCommissioned)
  | "Network:IsConnected" => .ok (.bool state.isConnected)
  | "Network:Key" => .ok (.str (String.ofList (hexBytes state.networkKey)))
  | "IPv6:LinkLocalAddress" => .ok (.str (lib.ipv6ToString state.linkLocalAddress))
  | "IPv6:MeshLocalAddress" => .ok (.str (lib.ipv6ToString state.meshLocalAddress))
  | "IPv6:MeshLocalPrefix" => .ok (.str state.meshLocalPrefix)
  | "IPv6:AllAddresses" => .ok (.str (String.intercalate "\n" state.ipv6AllAddresses))
  | "IPv6:Routes" => .ok (.str (String.intercalate "\n" state.ipv6Routes))
  | "Thread:OnMeshPrefixes" => .ok (.str (String.intercalate "\n" state.onMeshPrefixes))
  | "Thread:OffMeshRoutes" => .ok (.str (String.intercalate "\n" state.offMeshRoutes))
  | "Interface:Up" => .ok (.bool state.interfaceUp)
  | "Stack:Up" => .ok (.bool state.stackUp)
  | "Dataset:AllFields" | "Dataset" => .ok (.str (datasetAllFields state.dataset))
  | "Dataset:AsValMap" | "Thread:ActiveDataset:AsValMap" | "Thread:ActiveDataset" =>
    .ok (.str (lib.json (activeDataset state.dataset)))
  | "Thread:PendingDataset:AsValMap" | "Thread:PendingDataset" =>
    .ok (.str (lib.json (pendingDataset state.dataset)))
  | "Daemon:Version" => .ok (.str "0.1.0")
  | "Daemon:Enabled" => .ok (.bool state.daemonEnabled)
  | "Daemon:ReadyForHostSleep" => .ok (.bool state.readyForHostSleep)
  | name =>
    if startsWith "Dataset:" name || startsWith "Thread:" name then
      match state.dataset.lookup name with
      | some v => .ok (.str v)
      | none => .error (.unknownProperty name)
    else .error (.unknownProperty name)

/-- The error of a `from_str` as that of the property. -/
def decoded {α : Type} : Except String α → Except DbusError α
  | .ok a => .ok a
  | .error text => .error (.decoding text)

def setPropertyLocked (name : String) (value : Variant ω) (state : DaemonState) :
    Except DbusError DaemonState :=
  match name with
  | "Network:Name" => do
    let name ← decoded (networkNameFromStr (← stringFrom lib value))
    .ok { state with networkName := name }
  | "Network:PANID" => do
    let panId ← decoded (panIdFromStr (← stringFrom lib value))
    .ok { state with panId := panId }
  | "Network:XPANID" => do
    let xpanId ← parseXpanid (← stringFrom lib value)
    .ok { state with xpanId := xpanId }
  | "Interface:Up" => do .ok { state with interfaceUp := ← boolFrom lib value }
  | "Stack:Up" => do .ok { state with stackUp := ← boolFrom lib value }
  | "NCP:Region" => do .ok { state with region := ← stringFrom lib value }
  | "NCP:ModeID" => do .ok { state with modeId := ← stringFrom lib value }
  | "NCP:CCAThreshold" => do .ok { state with ccaThreshold := ← i8From lib value }
  | "NCP:TXPower" => do .ok { state with txPower := ← f64From lib value }
  | "Daemon:Enabled" => do .ok { state with daemonEnabled := ← boolFrom lib value }
  | name => .error (.unknownProperty name)

end Properties

end DcuDaemon.Dbus
