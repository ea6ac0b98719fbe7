/-
  The map from D-Bus keys to Spinel properties
  (`crates/dcu-tunnel-daemon/src/instance/property_handlers.rs`) and the payload of the frames that
  carry a value (`crates/spinel/src/property.rs`, `prop_value_set`).

  The packed property id is written with an `assert!`; a handler holds the bound that the assertion asks
  for.
-/
import DcuDaemon.Spinel.Fields
import DcuDaemon.Spinel.Frame

namespace DcuDaemon.Instance

open Spinel

inductive PropAccess where
  | readOnly
  | readWrite
  deriving DecidableEq, Repr

structure PropHandler where
  propId : UInt32
  access : PropAccess
  bound : propId ≤ spinelMaxUintPacked := by decide
  deriving DecidableEq

/-- `build_handler_map`. -/
def handlerMap : List (String × PropHandler) :=
  [("NCP:ProtocolVersion", { propId := 1, access := .readOnly }),
    ("NCP:Version", { propId := 2, access := .readOnly }),
    ("NCP:InterfaceType", { propId := 3, access := .readOnly }),
    ("NCP:HardwareAddress", { propId := 8, access := .readOnly }),
    ("NCP:CCAThreshold", { propId := 0x24, access := .readWrite }),
    ("NCP:TXPower", { propId := 0x25, access := .readWrite }),
    ("NCP:Channel", { propId := 0x21, access := .readOnly }),
    ("NCP:Frequency", { propId := 0x23, access := .readOnly }),
    ("NCP:RSSI", { propId := 0x26, access := .readOnly }),
    ("NCP:ExtendedAddress", { propId := 0x1302, access := .readOnly }),
    ("NCP:MACAddress", { propId := 0x1302, access := .readOnly }),
    ("NCP:MCUPowerState", { propId := 13, access := .readWrite }),
    ("Network:PANID", { propId := 0x36, access := .readWrite }),
    ("Network:Name", { propId := 0x44, access := .readWrite }),
    ("Network:XPANID", { propId := 0x45, access := .readWrite }),
    ("Network:Key", { propId := 0x46, access := .readOnly }),
    ("Network:KeyIndex", { propId := 0x47, access := .readOnly }),
    ("Network:PSKc", { propId := 0x4B, access := .readOnly }),
    ("Network:PartitionId", { propId := 0x48, access := .readOnly }),
    ("Network:NodeType", { propId := 0x43, access := .readWrite }),
    ("Network:KeySwitchGuardTime", { propId := 0x4A, access := .readOnly }),
    ("Interface:Up", { propId := 0x41, access := .readWrite }),
    ("Stack:Up", { propId := 0x42, access := .readWrite }),
    ("IPv6:MeshLocalPrefix", { propId := 0x62, access := .readOnly }),
    ("NCP:Region", { propId := 0x50, access := .readWrite }),
    ("NCP:ModeID", { propId := 0x51, access := .readWrite }),
    ("UnicastChList", { propId := 0x52, access := .readWrite }),
    ("BroadcastChList", { propId := 0x53, access := .readWrite }),
    ("AsyncChList", { propId := 0x54, access := .readWrite }),
    ("RegulationChList", { propId := 0x55, access := .readWrite }),
    ("OperatingClass", { propId := 0x56, access := .readWrite }),
    ("NumChannels", { propId := 0x57, access := .readOnly }),
    ("ChSpacing", { propId := 0x1500, access := .readWrite }),
    ("Ch0CenterFreq", { propId := 0x1501, access := .readWrite }),
    ("UCDwellInterval", { propId := 0x1556, access := .readWrite }),
    ("BCDwellInterval", { propId := 0x1557, access := .readWrite }),
    ("BCInterval", { propId := 0x1558, access := .readWrite }),
    ("UCChFunction", { propId := 0x1559, access := .readWrite }),
    ("BCChFunction", { propId := 0x155A, access := .readWrite }),
    ("MacFilterList", { propId := 0x155B, access := .readWrite }),
    ("MacFilterMode", { propId := 0x155C, access := .readWrite })]

def lookup (name : String) : Option PropHandler := handlerMap.lookup name

theorem mem_of_lookup {name : String} {h : PropHandler} (hl : lookup name = some h) :
    (name, h) ∈ handlerMap := by
  obtain ⟨l₁, l₂, e, -⟩ := List.lookup_eq_some_iff.mp hl
  rw [e]
  simp

/-- The payload of `prop_value_set`, and of the answer that reports the same bytes. -/
def PropHandler.payload (h : PropHandler) (value : List UInt8) : List UInt8 :=
  PackWriter.uintPackedBytes h.propId ++ value

/-- The assertion of `write_uint_packed` holds, so that this is what is written. -/
theorem PropHandler.payload_eq (h : PropHandler) (value : List UInt8) :
    (PackWriter.new.writeUintPacked h.propId).map (fun w => (w.writeBytes value).intoBytes) =
      some (h.payload value) := by
  rw [PackWriter.writeUintPacked, if_pos h.bound]
  rfl

end DcuDaemon.Instance
