/-
  HDLC escaping of an outbound frame (`driver_to_ncp_pump` in
  `src/ncp-spinel/SpinelNCPInstance-DataPump.cpp`).

  `mOutboundBufferEscaped` has twice the size of `mOutboundBuffer`. Flags and checksum come on top of
  the frame, so a full frame in which nearly every byte is escaped does not fit.

  Main result: `escapeOutbound_isSome_iff`.
-/
import DcuDaemon.Lib.Block
import DcuDaemon.Wfantund.DataPump

namespace DcuDaemon.Wfantund

open Lib Spinel List Option

/-- `sizeof(mOutboundBufferEscaped)`. -/
def outboundBufferEscapedSize : Nat := spinelFrameBufferSize * 2

/-- `mOutboundBufferEscaped` and `mOutboundBufferEscapedLen`. -/
abbrev OutboundBufferEscaped := Cursor UInt8 outboundBufferEscapedSize

def hdlcByteNeedsEscape (byte : UInt8) : Bool :=
  byte == specialByte || byte == escapeByte || byte == flagByte || byte == xoff || byte == xon

/-- The stores for one byte of the frame or of its checksum. -/
def putEscaped (out : OutboundBufferEscaped) (byte : UInt8) : Option OutboundBufferEscaped :=
  if hdlcByteNeedsEscape byte then do
    let out ← out.put escapeByte
    out.put (byte ^^^ escapeXform)
  else out.put byte

/-- The loop over `mOutboundBuffer`. -/
def escapeLoop (out : OutboundBufferEscaped) (crc : UInt16) :
    List UInt8 → Option (OutboundBufferEscaped × UInt16)
  | [] => some (out, crc)
  | byte :: rest => do
    let crc := hdlcCrc16 crc byte
    let out ← putEscaped out byte
    escapeLoop out crc rest

/-- What `driver_to_ncp_pump` stores for a frame; `buffer` is what the array held before. -/
def escapeOutbound (buffer : Block UInt8 outboundBufferEscapedSize) (frame : List UInt8) :
    Option OutboundBufferEscaped := do
  let out ← (Cursor.mk buffer 0).put flagByte
  let (out, crc) ← escapeLoop out 0xFFFF frame
  let crc := crc ^^^ 0xFFFF
  let out ← putEscaped out (crc &&& 0xFF).toUInt8
  let out ← putEscaped out ((crc >>> 8) &&& 0xFF).toUInt8
  out.put flagByte

/-! ## 1. One copy -/

theorem hdlcByteNeedsEscape_eq (byte : UInt8) : hdlcByteNeedsEscape byte = needsEscape byte := by
  unfold hdlcByteNeedsEscape needsEscape
  ac_rfl

theorem putEscaped_eq (out : OutboundBufferEscaped) (byte : UInt8) :
    putEscaped out byte = out.putAll (escapeOne byte) := by
  unfold putEscaped escapeOne
  rw [hdlcByteNeedsEscape_eq]
  cases needsEscape byte with
  | true =>
    simp only [if_true, bind_eq_bind, Cursor.putAll_cons _ escapeByte, Cursor.putAll_singleton]
  | false => simp only [Bool.false_eq_true, if_false, Cursor.putAll_singleton]

theorem escapeLoop_eq (out : OutboundBufferEscaped) (crc : UInt16) (frame : List UInt8) :
    escapeLoop out crc frame =
      (out.putAll (escapeBytes frame)).map fun out => (out, frame.foldl crc16Update crc) := by
  induction frame generalizing out crc with
  | nil => rfl
  | cons byte rest ih =>
    have hsplit : escapeBytes (byte :: rest) = escapeOne byte ++ escapeBytes rest := rfl
    rw [hsplit, Cursor.putAll_append, map_bind, escapeLoop, putEscaped_eq]
    refine bind_congr fun out' _ => ?_
    exact ih out' (hdlcCrc16 crc byte)

theorem low_byte (x : UInt16) : (x &&& 0xFF).toUInt8 = x.toUInt8 := by
  have hmask : (0xFF : UInt16).toNat = 2 ^ 8 - 1 := rfl
  apply UInt8.toNat_inj.mp
  rw [UInt16.toNat_toUInt8, UInt16.toNat_toUInt8, UInt16.toNat_and, hmask,
    Nat.and_two_pow_sub_one_eq_mod, Nat.mod_mod]

def wireBytes (frame : List UInt8) : List UInt8 := (HdlcEncoder.new.encodeBytes frame).1

/-- **The escaping code copies the wire bytes of the port's encoder.** -/
theorem escapeOutbound_eq (buffer : Block UInt8 outboundBufferEscapedSize) (frame : List UInt8) :
    escapeOutbound buffer frame = (Cursor.mk buffer 0).putAll (wireBytes frame) := by
  have hwire : wireBytes frame = [flagByte] ++ (escapeBytes frame ++
      (escapeOne (crc16 frame).toUInt8 ++ (escapeOne (crc16 frame >>> 8).toUInt8 ++ [flagByte]))) := by
    simp [wireBytes, HdlcEncoder.encodeBytes, escapeBytes, toLeBytes, crc16, HdlcEncoder.new]
  unfold escapeOutbound
  rw [hwire]
  simp only [Cursor.putAll_append, Cursor.putAll_singleton, escapeLoop_eq, putEscaped_eq, low_byte,
    bind_eq_bind, bind_map]
  rfl

/-! ## 2. Room -/

/-- The bytes of a frame and of its checksum that take two places. -/
def escapedCount (frame : List UInt8) : Nat := (frame ++ toLeBytes (crc16 frame)).countP needsEscape

theorem length_escapeBytes (data : List UInt8) :
    (escapeBytes data).length = data.length + data.countP needsEscape := by
  induction data with
  | nil => rfl
  | cons byte data ih =>
    have hsplit : escapeBytes (byte :: data) = escapeOne byte ++ escapeBytes data := rfl
    rw [hsplit, length_append, ih, length_cons, countP_cons, escapeOne]
    cases needsEscape byte
    · simp
      omega
    · simp
      omega

theorem length_wireBytes (frame : List UInt8) :
    (wireBytes frame).length = frame.length + 4 + escapedCount frame := by
  have hwire : wireBytes frame =
      flagByte :: (escapeBytes (frame ++ toLeBytes (crc16 frame)) ++ [flagByte]) := by
    rw [escapeBytes_append]
    rfl
  rw [hwire, length_cons, length_append, length_escapeBytes, length_append]
  simp only [toLeBytes, length_cons, length_nil, escapedCount]
  omega

/-- **Every store is inside the buffer** exactly when frame, flags, checksum and escapes have room
    in it. -/
theorem escapeOutbound_isSome_iff (buffer : Block UInt8 outboundBufferEscapedSize)
    (frame : List UInt8) : (escapeOutbound buffer frame).isSome = true ↔
      frame.length + 4 + escapedCount frame ≤ outboundBufferEscapedSize := by
  rw [escapeOutbound_eq, Cursor.putAll_eq, isSome_map, Block.write_isSome, length_wireBytes]
  simp only [Block.Fits]
  omega

theorem le_escapedCount_flags (n : Nat) : n ≤ escapedCount (replicate n flagByte) := by
  have hflag : needsEscape flagByte := by decide
  rw [escapedCount, countP_append, countP_replicate, if_pos hflag]
  exact Nat.le_add_right _ _

theorem escapeOutbound_overflows (buffer : Block UInt8 outboundBufferEscapedSize)
    {frame : List UInt8} (hlen : spinelFrameBufferSize ≤ frame.length)
    (hcount : spinelFrameBufferSize ≤ escapedCount frame) :
    (escapeOutbound buffer frame).isSome = false := by
  rw [escapeOutbound_eq, Cursor.putAll_eq, isSome_map, ← Bool.not_eq_true,
    Block.write_isSome, length_wireBytes]
  simp only [Block.Fits, outboundBufferEscapedSize]
  omega

/-- A full frame of flag bytes, into a buffer that was not used before. -/
theorem flag_frame_overflows : (escapeOutbound (Block.fill outboundBufferEscapedSize 0)
      (List.replicate spinelFrameBufferSize flagByte)).isSome = false := by
  refine escapeOutbound_overflows _ ?_ (le_escapedCount_flags _)
  rw [length_replicate]

end DcuDaemon.Wfantund
