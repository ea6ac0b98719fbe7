/-
  Values on their way to the NCP and back (`crates/dcu-tunnel-daemon/src/instance/base.rs`):
  `set_property_by_name`, `parse_prop_response`, `query_and_update_daemon_state`.

  A value is written by its own kind and read by the name of the property. The two agree on integers and
  booleans; a text goes out as its bytes, without the NUL that a string needs on the wire and without
  regard to the hexadecimal digits that a byte property is read as.

  Main result: `set_then_get_iff`.
-/
import DcuDaemon.Dbus.Properties
import DcuDaemon.Instance.PropertyHandlers
import DcuDaemon.Instance.Requests

namespace DcuDaemon.Instance

open Dbus Lib Spinel

/-! ## 1. From a value to the wire and back -/

/-- How `parse_prop_response` reads a value. -/
inductive WireType where
  | utf8
  | uint8
  | int8
  | uint16
  | uint32
  | bool
  | hex
  | meshLocalPrefix
  deriving DecidableEq, Repr

/-- The names that `parse_prop_response` knows. -/
def wireTypeOf (name : String) : Option WireType :=
  if name ∈ ["NCP:Version", "NCP:ProtocolVersion", "NCP:InterfaceType", "Network:Name"] then
    some .utf8
  else if name ∈ ["NCP:Channel", "NCP:Region", "NCP:ModeID", "NCP:MCUPowerState", "Network:NodeType",
      "OperatingClass", "NumChannels", "UCDwellInterval", "BCDwellInterval", "UCChFunction",
      "BCChFunction", "MacFilterMode"] then
    some .uint8
  else if name ∈ ["NCP:CCAThreshold", "NCP:TXPower", "NCP:RSSI"] then some .int8
  else if name ∈ ["Network:PANID", "ChSpacing"] then some .uint16
  else if name ∈ ["NCP:Frequency", "Network:KeyIndex", "Network:PartitionId",
      "Network:KeySwitchGuardTime", "BCInterval"] then
    some .uint32
  else if name ∈ ["Interface:Up", "Stack:Up"] then some .bool
  else if name ∈ ["NCP:HardwareAddress", "NCP:ExtendedAddress", "Network:XPANID", "Network:Key",
      "Network:PSKc"] then
    some .hex
  else if name = "IPv6:MeshLocalPrefix" then some .meshLocalPrefix
  else none

section Values

variable {ω : Type} (lib : Externals ω)

/-- A read whose error is reported with a text before it. -/
def readValue {α : Type} (text : String) (read : Except SpinelError α × PackReader)
    (value : α → Variant ω) : Except DaemonError (Variant ω) :=
  match read.1 with
  | .error e => .error (.ncp (text ++ e.toText))
  | .ok a => .ok (value a)

/-- `{b:02X}` of every byte, as a value. -/
def hexText (bytes : List UInt8) : Variant ω := .str (String.ofList (hexBytes bytes))

/-- The first eight bytes as the address of a prefix. -/
def meshLocalText (bytes : List UInt8) : Variant ω :=
  if h : 8 ≤ bytes.length then
    .str (lib.ipv6ToString ⟨bytes.take 8 ++ List.replicate 8 0, by simp; omega⟩ ++ "/64")
  else hexText bytes

/-- The value behind the property id; an unknown name is read as bytes. -/
def decodeValue (ty : Option WireType) (r : PackReader) : Except DaemonError (Variant ω) :=
  match ty with
  | some .utf8 => readValue "failed to parse string: " r.readUtf8 .str
  | some .uint8 => readValue "failed to parse u8: " r.readUint8 .u8
  | some .int8 => readValue "failed to parse i8: " r.readInt8 fun b => .i16 b.toInt16
  | some .uint16 => readValue "failed to parse u16: " r.readUint16 .u16
  | some .uint32 => readValue "failed to parse u32: " r.readUint32 .u32
  | some .bool => readValue "failed to parse bool: " r.readUint8 fun b => .bool (b ≠ 0)
  | some .hex => readValue "failed to read bytes: " (r.readBytes r.remaining) hexText
  | some .meshLocalPrefix =>
    readValue "failed to read prefix: " (r.readBytes r.remaining) (meshLocalText lib)
  | none => readValue "failed to read bytes: " (r.readBytes r.remaining) hexText

def parsePropResponse (name : String) (payload : List UInt8) : Except DaemonError (Variant ω) :=
  match (PackReader.new payload).readUintPacked with
  | (.error e, _) => .error (.ncp ("failed to parse property ID: " ++ e.toText))
  | (.ok _, r) => decodeValue lib (wireTypeOf name) r

/-- The bytes that `set_property_by_name` makes of a value. -/
def wireBytes : Variant ω → Option (List UInt8)
  | .str s => some (asBytes s)
  | .u8 n => some [n]
  | .u16 n => some (leBytes 2 n.toNat)
  | .u32 n => some (leBytes 4 n.toNat)
  | .i16 n => some (leBytes 2 n.toUInt16.toNat)
  | .i32 n => some (leBytes 4 n.toUInt32.toNat)
  | .bool b => some [if b then 1 else 0]
  | _ => none

/-- `set_property_by_name` before the frame is sent: the handler and the value bytes. -/
def setRequest (name : String) (value : Variant ω) : Except DaemonError (PropHandler × List UInt8) :=
  match lookup name with
  | none => .error (.ncp ("unknown property: " ++ name))
  | some h =>
    if h.access = .readOnly then .error (.ncp ("property " ++ name ++ " is read-only"))
    else
      match wireBytes value with
      | none => .error (.ncp ("unsupported value type for " ++ name ++ ": " ++ lib.debug value))
      | some bytes => .ok (h, bytes)

/-- `set_property_by_name`; `sendPropSet` is the outcome of sending the payload. -/
def setPropertyByName (sendPropSet : List UInt8 → Except DaemonError SpinelFrame) (name : String)
    (value : Variant ω) : Except DaemonError Unit :=
  (setRequest lib name value).bind fun x => (sendPropSet (x.1.payload x.2)).map fun _ => ()

/-- `if let Ok(a) = res`: what does not parse leaves the state alone. -/
def ifOk {α : Type} (res : Except String α) (ds : DaemonState) (update : α → DaemonState) : DaemonState :=
  match res with
  | .ok a => update a
  | .error _ => ds

/-- What `query_and_update_daemon_state` does with a value. -/
def updateDaemonState (name : String) (value : Variant ω) (ds : DaemonState) : DaemonState :=
  match name, value with
  | "NCP:Version", v => { ds with ncpVersion := variantToString lib v }
  | "NCP:ProtocolVersion", v => { ds with ncpProtocolVersion := variantToString lib v }
  | "NCP:InterfaceType", v => { ds with ncpInterfaceType := variantToString lib v }
  | "NCP:HardwareAddress", v =>
    ifOk (eui64FromStr (variantToString lib v)) ds fun eui => { ds with hardwareAddress := eui }
  | "NCP:Channel", .u8 channel => { ds with channel := channel }
  | "NCP:Frequency", .u32 freq => { ds with frequency := freq }
  | "NCP:CCAThreshold", .i16 v => { ds with ccaThreshold := v.toInt8 }
  | "NCP:TXPower", .i16 v => { ds with txPower := lib.f64OfInt32 v.toInt32 }
  | "NCP:RSSI", .i16 v => { ds with rssi := v.toInt32 }
  | "Network:Name", v =>
    ifOk (networkNameFromStr (variantToString lib v)) ds fun name => { ds with networkName := name }
  | "Network:PANID", v =>
    ifOk (panIdFromStr (variantToString lib v)) ds fun pan => { ds with panId := pan }
  | "Network:NodeType", v => { ds with nodeType := variantToString lib v }
  | _, _ => ds

/-- `query_and_update_daemon_state`; `sendPropGet` is the outcome of the request. -/
def queryAndUpdateDaemonState (sendPropGet : UInt32 → Except DaemonError SpinelFrame) (name : String)
    (ds : DaemonState) : Except DaemonError DaemonState :=
  match lookup name with
  | none => .error (.ncp ("unknown property: " ++ name))
  | some h =>
    match sendPropGet h.propId with
    | .error e => .error e
    | .ok resp => (parsePropResponse lib name resp.payload).map (updateDaemonState lib name · ds)

/-! ## 2. Which values come back -/

/-- A value of the kind that a property is read as. -/
def WireType.Holds : WireType → Variant ω → Prop
  | utf8, .str _ => True
  | uint8, .u8 _ => True
  | int8, .i16 _ => True
  | uint16, .u16 _ => True
  | uint32, .u32 _ => True
  | bool, .bool _ => True
  | hex, .str _ => True
  | meshLocalPrefix, .str _ => True
  | _, _ => False

variable {name s : String} {value : Variant ω} {h : PropHandler} {bytes : List UInt8} {r : PackReader}

theorem setRequest_eq_ok : setRequest lib name value = .ok (h, bytes) ↔
      lookup name = some h ∧ h.access = .readWrite ∧ wireBytes value = some bytes := by
  unfold setRequest
  cases hl : lookup name with
  | none => simp
  | some h' =>
    cases ha : h'.access with
    | readOnly =>
      simp only [ha, if_pos, reduceCtorEq, false_iff, Option.some.injEq]
      rintro ⟨rfl, hrw, -⟩
      rw [ha] at hrw
      cases hrw
    | readWrite =>
      cases hw : wireBytes value with
      | none => simp [ha]
      | some bytes' =>
        simp only [ha, reduceCtorEq, if_false, Except.ok.injEq, Prod.mk.injEq, Option.some.injEq]
        constructor
        · rintro ⟨rfl, rfl⟩
          exact ⟨rfl, ha, rfl⟩
        · rintro ⟨rfl, -, rfl⟩
          exact ⟨rfl, rfl⟩

theorem parsePropResponse_payload (name : String) (h : PropHandler) (bytes : List UInt8) :
    ∃ r : PackReader, r.At bytes ∧
      parsePropResponse lib name (h.payload bytes) = decodeValue lib (wireTypeOf name) r := by
  obtain ⟨hid, hat⟩ := PackReader.readUintPacked_append h.bound
    (PackReader.at_new (PackWriter.uintPackedBytes h.propId ++ bytes))
  refine ⟨_, hat, ?_⟩
  unfold parsePropResponse PropHandler.payload
  rw [hid]

theorem toInt8_toInt16_eq_iff (n : Int16) :
    (UInt8.ofNat n.toUInt16.toNat).toInt8.toInt16 = n ↔ -128 ≤ n.toInt ∧ n.toInt ≤ 127 := by
  have hlow : (UInt8.ofNat n.toUInt16.toNat).toInt8 = n.toInt8 := by
    apply Int8.toBitVec_inj.mp
    simp [BitVec.signExtend_eq_setWidth_of_le]
  rw [hlow, ← Int16.toInt_inj, Int8.toInt_toInt16, Int16.toInt_toInt8]
  constructor
  · intro e
    have hle := @Int.le_bmod n.toInt (2 ^ 8) (by decide)
    have hlt := @Int.bmod_lt n.toInt (2 ^ 8) (by decide)
    rw [e] at hle hlt
    exact ⟨by simpa using hle, by omega⟩
  · rintro ⟨hle, hlt⟩
    exact Int.bmod_eq_of_le (by omega) (by omega)

theorem readValue_of_ok {α : Type} {text : String} {read : Except SpinelError α × PackReader}
    {value : α → Variant ω} {a : α} (h : read = (.ok a, r)) : readValue text read value = .ok (value a) := by
  rw [h]
  rfl

theorem decodeValue_utf8 (hat : r.At (asBytes s)) : decodeValue lib (some .utf8) r ≠ .ok (.str s) := by
  intro e
  have hread : r.readUtf8.1 = .ok s := by
    unfold decodeValue readValue at e
    dsimp only at e
    split at e
    · cases e
    · rename_i s' hs
      cases e
      exact hs
  exact lt_irrefl _ (PackReader.length_of_readUtf8 hat hread)

/-- Two digits stand for every byte, so that only the empty text is its own. -/
theorem decodeValue_hex (hat : r.At (asBytes s)) : decodeValue lib (some .hex) r = .ok (.str s) ↔ s = "" := by
  have hread : decodeValue lib (some .hex) r = .ok (hexText (asBytes s)) := by
    obtain ⟨hread, -⟩ := PackReader.readBytes_append (show r.At (asBytes s ++ []) by simpa using hat)
      hat.remaining.symm
    exact readValue_of_ok hread
  rw [hread]
  constructor
  · intro e
    have htext : String.ofList (hexBytes (asBytes s)) = s := Variant.str.inj (Except.ok.inj e)
    have hlen := length_le_utf8ByteSize (hexBytes (asBytes s))
    rw [htext, length_hexBytes, length_asBytes] at hlen
    have hzero : s.utf8ByteSize = 0 := by omega
    exact String.utf8ByteSize_eq_zero_iff.mp hzero
  · rintro rfl
    rfl

/-- The values of a kind that are read as they were written. -/
def WireType.Kept : WireType → Variant ω → Prop
  | utf8, _ => False
  | hex, v => v = .str ""
  | int8, .i16 n => -128 ≤ n.toInt ∧ n.toInt ≤ 127
  | _, _ => True

theorem decodeValue_eq_iff {ty : WireType}
    (hty : ty ≠ .meshLocalPrefix) (hv : ty.Holds value) (hb : wireBytes value = some bytes)
    (hat : r.At bytes) : decodeValue lib (some ty) r = .ok value ↔ ty.Kept value := by
  have hat' : r.At (bytes ++ []) := by simpa using hat
  cases ty with
  | meshLocalPrefix => exact absurd rfl hty
  | utf8 =>
    cases value <;> try exact hv.elim
    cases hb
    exact iff_of_false (decodeValue_utf8 lib hat) id
  | hex =>
    cases value <;> try exact hv.elim
    cases hb
    rw [decodeValue_hex lib hat]
    exact ⟨fun e => e ▸ rfl, Variant.str.inj⟩
  | uint8 =>
    cases value <;> try exact hv.elim
    cases hb
    exact iff_of_true (readValue_of_ok (PackReader.readUint8_cons hat).1) trivial
  | int8 =>
    cases value <;> try exact hv.elim
    rename_i n
    cases hb
    have hread : decodeValue lib (some .int8) r =
        .ok (.i16 (UInt8.ofNat n.toUInt16.toNat).toInt8.toInt16) :=
      readValue_of_ok (PackReader.readInt8_cons hat).1
    rw [hread, Except.ok.injEq, Variant.i16.injEq]
    exact toInt8_toInt16_eq_iff n
  | uint16 =>
    cases value <;> try exact hv.elim
    cases hb
    exact iff_of_true (readValue_of_ok (PackReader.readUint16_append hat').1) trivial
  | uint32 =>
    cases value <;> try exact hv.elim
    cases hb
    exact iff_of_true (readValue_of_ok (PackReader.readUint32_append hat').1) trivial
  | bool =>
    cases value <;> try exact hv.elim
    rename_i b
    cases hb
    refine iff_of_true ((readValue_of_ok (PackReader.readUint8_cons hat).1).trans ?_) trivial
    cases b <;> rfl

/-- Among the properties that can be written one is read as a text and one as hexadecimal digits. -/
theorem readWrite_names (hl : lookup name = some h) (ha : h.access = .readWrite) :
    (wireTypeOf name = some .utf8 ↔ name = "Network:Name") ∧
      (wireTypeOf name = some .hex ↔ name = "Network:XPANID") ∧
      wireTypeOf name ≠ some .meshLocalPrefix := by
  have hall : ∀ x ∈ handlerMap, x.2.access = .readWrite →
      (wireTypeOf x.1 = some .utf8 ↔ x.1 = "Network:Name") ∧
        (wireTypeOf x.1 = some .hex ↔ x.1 = "Network:XPANID") ∧
        wireTypeOf x.1 ≠ some .meshLocalPrefix := by
    decide +kernel
  exact hall (name, h) (mem_of_lookup hl) ha

/-- **A value that `set_property_by_name` sends comes back if and only if** it is not the network name, not
    an extended PAN id (the empty text apart), and, as an `i16`, fits a byte. -/
theorem set_then_get_iff {name : String} {value : Variant ω} {ty : WireType} {h : PropHandler}
    {bytes : List UInt8} (hset : setRequest lib name value = .ok (h, bytes))
    (hty : wireTypeOf name = some ty) (hv : ty.Holds value) :
    (∀ sendPropSet, setPropertyByName lib sendPropSet name value =
      (sendPropSet (h.payload bytes)).map fun _ => ()) ∧
    (parsePropResponse lib name (h.payload bytes) = .ok value ↔
      name ≠ "Network:Name" ∧ (name = "Network:XPANID" → value = .str "") ∧
        ∀ n, value = .i16 n → -128 ≤ n.toInt ∧ n.toInt ≤ 127) := by
  refine ⟨fun sendPropSet => by rw [setPropertyByName, hset]; rfl, ?_⟩
  obtain ⟨hl, ha, hb⟩ := (setRequest_eq_ok lib).mp hset
  obtain ⟨hname, hxpanid, hmlp⟩ := readWrite_names hl ha
  rw [hty] at hname hxpanid hmlp
  obtain ⟨r, hat, hparse⟩ := parsePropResponse_payload lib name h bytes
  rw [hparse, hty, decodeValue_eq_iff lib (fun e => hmlp (congrArg some e)) hv hb hat, ne_eq,
    ← hname, ← hxpanid]
  cases ty with
  | utf8 => simp [WireType.Kept]
  | meshLocalPrefix => exact absurd rfl hmlp
  | _ =>
    cases value <;> try exact hv.elim
    simp [WireType.Kept]

end Values

/-- A channel spacing of 200 comes back. -/
theorem chSpacing_comes_back : parsePropResponse noExternals "ChSpacing"
      (PropHandler.payload { propId := 0x1500, access := .readWrite } [200, 0]) = .ok (.u16 200) :=
  (set_then_get_iff noExternals (show setRequest noExternals "ChSpacing" (.u16 200) = .ok (_, _) from rfl)
    (show wireTypeOf "ChSpacing" = some .uint16 by decide) trivial).2.mpr
    ⟨by decide, fun e => absurd e (by decide), fun n e => by cases e⟩

/-- A network name is refused when it comes back, and an extended PAN id comes back as the digits of
    its digits. -/
theorem name_does_not_come_back :
    let h : PropHandler := { propId := 0x44, access := .readWrite }
    let h' : PropHandler := { propId := 0x45, access := .readWrite }
    setRequest noExternals "Network:Name" (.str "dcu") = .ok (h, asBytes "dcu") ∧
      parsePropResponse noExternals "Network:Name" (h.payload (asBytes "dcu")) =
        .error (.ncp "failed to parse string: not enough data") ∧
      setRequest noExternals "Network:XPANID" (.str "00AB") = .ok (h', asBytes "00AB") ∧
      parsePropResponse noExternals "Network:XPANID" (h'.payload (asBytes "00AB")) =
        .ok (.str "30304142") := by
  decide +kernel

end DcuDaemon.Instance
