/-
  The Spinel frame without HDLC framing (`crates/spinel/src/frame.rs`): header byte, packed command id,
  payload.

  Main result: `decode_encode`.
-/
import DcuDaemon.Spinel.Pack

namespace DcuDaemon.Spinel

open List

/-! ## 1. Header and frame -/

/-- Header FLAG bit (bit 7). -/
def spinelHeaderFlag : UInt8 := 0x80
/-- Header IID mask (bits 5-4) and shift. -/
def spinelHeaderIidMask : UInt8 := 0x30
def spinelHeaderIidShift : UInt8 := 4
/-- Header TID mask (bits 3-0). -/
def spinelHeaderTidMask : UInt8 := 0x0F

structure SpinelFrame where
  header : UInt8
  commandId : UInt32
  payload : List UInt8
  deriving DecidableEq, Repr

namespace SpinelFrame

def withHeader (header : UInt8) (commandId : UInt32) (payload : List UInt8) : SpinelFrame :=
  ⟨header, commandId, payload⟩

/-- `encode`: header, packed command id, payload. -/
def encode (frame : SpinelFrame) : Option (List UInt8) :=
  ((PackWriter.new.writeUint8 frame.header).writeUintPacked frame.commandId).map fun w =>
    (w.writeBytes frame.payload).intoBytes

def decode (data : List UInt8) : Except SpinelError SpinelFrame :=
  if data.isEmpty then .error .invalidHeader
  else
    match (PackReader.new data).readUint8 with
    | (.error e, _) => .error e
    | (.ok header, r) =>
      if header &&& spinelHeaderFlag = 0 then .error .invalidHeader
      else
        match r.readUintPacked with
        | (.error e, _) => .error e
        | (.ok commandId, r) =>
          if r.remaining > 0 then
            match r.readBytes r.remaining with
            | (.error e, _) => .error e
            | (.ok payload, _) => .ok ⟨header, commandId, payload⟩
          else .ok ⟨header, commandId, []⟩

/-- `iid`: the interface id. -/
def iid (frame : SpinelFrame) : UInt8 := (frame.header &&& spinelHeaderIidMask) >>> spinelHeaderIidShift

/-- `tid`: the transaction id; 0 marks an unsolicited frame. -/
def tid (frame : SpinelFrame) : UInt8 := frame.header &&& spinelHeaderTidMask

def hasFlag (frame : SpinelFrame) : Bool := frame.header &&& spinelHeaderFlag != 0

end SpinelFrame

def makeHeader (iid tid : UInt8) : UInt8 :=
  spinelHeaderFlag ||| ((iid <<< spinelHeaderIidShift) &&& spinelHeaderIidMask) |||
    (tid &&& spinelHeaderTidMask)

/-! ## 2. Command and property ids (command.rs, property.rs) -/

def cmdReset : UInt32 := 1
def cmdPropValueSet : UInt32 := 3
def cmdPropValueInsert : UInt32 := 4
def cmdPropValueRemove : UInt32 := 5
def cmdPropValueIs : UInt32 := 6
def cmdNetClear : UInt32 := 10

def propLastStatus : UInt32 := 0
def propMacScanState : UInt32 := 0x30
def propMacScanBeacon : UInt32 := 0x33
def propIpv6MulticastAddressTable : UInt32 := 0x61
def propIpv6AddressTable : UInt32 := 0x63
def propStreamNet : UInt32 := 0x72
def propStreamNetInsecure : UInt32 := 0x73
def propThreadOnMeshNets : UInt32 := 0x1510
def propThreadOffMeshRoutes : UInt32 := 0x1511
def propThreadActiveDataset : UInt32 := 0x1518
def propThreadPendingDataset : UInt32 := 0x1519
def propThreadNetworkTime : UInt32 := 0x1907

/-- `SPINEL_STATUS_PARSE_ERROR`, the status of a reply whose status does not parse. -/
def spinelStatusParseError : UInt32 := 9

/-! ## 3. The round trip -/

/-- What a Spinel frame needs to travel: the FLAG bit, and a command id the packed format holds. -/
structure Wireable (frame : SpinelFrame) : Prop where
  flag : frame.hasFlag = true
  command : frame.commandId ≤ spinelMaxUintPacked

instance (frame : SpinelFrame) : Decidable (Wireable frame) :=
  decidable_of_iff (frame.hasFlag = true ∧ frame.commandId ≤ spinelMaxUintPacked)
    ⟨fun h => ⟨h.1, h.2⟩, fun h => ⟨h.flag, h.command⟩⟩

theorem encode_eq {frame : SpinelFrame} (h : frame.commandId ≤ spinelMaxUintPacked) : frame.encode =
      some (frame.header :: (PackWriter.uintPackedBytes frame.commandId ++ frame.payload)) := by
  unfold SpinelFrame.encode PackWriter.writeUintPacked
  rw [if_pos h]
  simp [PackWriter.writeBytes, PackWriter.intoBytes, PackWriter.writeUint8, PackWriter.new]

theorem readBytes_remaining (r : PackReader) (h : r.offset ≤ r.data.length) :
    r.readBytes r.remaining = (.ok r.rest, ⟨r.data, r.data.length⟩) := by
  have e : r.offset + r.remaining = r.data.length := by
    unfold PackReader.remaining
    omega
  have hlen : r.rest.length = r.remaining := by
    unfold PackReader.rest PackReader.remaining
    rw [length_drop]
  unfold PackReader.readBytes
  rw [if_neg (by omega), ← hlen, take_length, hlen, e]

/-- **Decoding inverts encoding** of frames with the FLAG bit and a 21-bit command id. -/
theorem decode_encode {frame : SpinelFrame} (h : Wireable frame) :
    ∃ data, frame.encode = some data ∧ data ≠ [] ∧ SpinelFrame.decode data = .ok frame := by
  refine ⟨_, encode_eq h.command, cons_ne_nil _ _, ?_⟩
  have hflag : ¬ frame.header &&& spinelHeaderFlag = 0 := by
    have hf := h.flag
    unfold SpinelFrame.hasFlag at hf
    simpa using hf
  have hr := readUintPacked_writeUintPacked [frame.header] frame.payload frame.commandId h.command
  simp only [cons_append, nil_append, length_singleton] at hr
  unfold SpinelFrame.decode
  simp only [isEmpty_cons, Bool.false_eq_true, if_false, PackReader.new, PackReader.readUint8,
    List.getElem?_cons_zero, hflag, Nat.zero_add, hr]
  -- the reader stands right behind the command id: what is left is the payload
  have hrest : ∀ d : List UInt8, (PackReader.mk
      (frame.header :: (PackWriter.uintPackedBytes frame.commandId ++ d))
      (1 + (PackWriter.uintPackedBytes frame.commandId).length)).rest = d := by
    intro d
    unfold PackReader.rest
    rw [Nat.add_comm, drop_succ_cons, drop_left]
  split
  · rw [readBytes_remaining _ (by simp; omega), hrest]
  · rename_i hn
    have hlen : frame.payload.length = 0 := by
      simp [PackReader.remaining] at hn
      omega
    rw [← length_eq_zero_iff.mp hlen]

end DcuDaemon.Spinel
