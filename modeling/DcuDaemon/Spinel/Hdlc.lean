/-
  HDLC framing of byte payloads (`crates/spinel/src/hdlc.rs`): the CRC-16/X.25 table, the encoder and
  the byte-at-a-time decoder.

  On the wire a payload is `FLAG ++ escaped (payload ++ CRC) ++ FLAG`. The decoder is a machine of three
  states over one input byte (`feedByte`); it yields a payload, a CRC error or nothing.

  Main result: `hdlc_round_trip`.
-/
import DcuDaemon.Lib.Feed
import DcuDaemon.Spinel.Frame

namespace DcuDaemon.Spinel

open Lib List

/-- HDLC flag byte: marks frame boundaries. -/
def flagByte : UInt8 := 0x7E
def escapeByte : UInt8 := 0x7D
def xon : UInt8 := 0x11
def xoff : UInt8 := 0x13
def specialByte : UInt8 := 0xF8
def escapeXform : UInt8 := 0x20
def crcInit : UInt16 := 0xFFFF

/-! ## 1. The checksum -/

/-- `CRC_TABLE` (reflected polynomial 0x1021). -/
def crcTable : Array UInt16 :=
  #[
    0x0000, 0x1189, 0x2312, 0x329b, 0x4624, 0x57ad, 0x6536, 0x74bf, 0x8c48, 0x9dc1, 0xaf5a, 0xbed3,
    0xca6c, 0xdbe5, 0xe97e, 0xf8f7, 0x1081, 0x0108, 0x3393, 0x221a, 0x56a5, 0x472c, 0x75b7, 0x643e,
    0x9cc9, 0x8d40, 0xbfdb, 0xae52, 0xdaed, 0xcb64, 0xf9ff, 0xe876, 0x2102, 0x308b, 0x0210, 0x1399,
    0x6726, 0x76af, 0x4434, 0x55bd, 0xad4a, 0xbcc3, 0x8e58, 0x9fd1, 0xeb6e, 0xfae7, 0xc87c, 0xd9f5,
    0x3183, 0x200a, 0x1291, 0x0318, 0x77a7, 0x662e, 0x54b5, 0x453c, 0xbdcb, 0xac42, 0x9ed9, 0x8f50,
    0xfbef, 0xea66, 0xd8fd, 0xc974, 0x4204, 0x538d, 0x6116, 0x709f, 0x0420, 0x15a9, 0x2732, 0x36bb,
    0xce4c, 0xdfc5, 0xed5e, 0xfcd7, 0x8868, 0x99e1, 0xab7a, 0xbaf3, 0x5285, 0x430c, 0x7197, 0x601e,
    0x14a1, 0x0528, 0x37b3, 0x263a, 0xdecd, 0xcf44, 0xfddf, 0xec56, 0x98e9, 0x8960, 0xbbfb, 0xaa72,
    0x6306, 0x728f, 0x4014, 0x519d, 0x2522, 0x34ab, 0x0630, 0x17b9, 0xef4e, 0xfec7, 0xcc5c, 0xddd5,
    0xa96a, 0xb8e3, 0x8a78, 0x9bf1, 0x7387, 0x620e, 0x5095, 0x411c, 0x35a3, 0x242a, 0x16b1, 0x0738,
    0xffcf, 0xee46, 0xdcdd, 0xcd54, 0xb9eb, 0xa862, 0x9af9, 0x8b70, 0x8408, 0x9581, 0xa71a, 0xb693,
    0xc22c, 0xd3a5, 0xe13e, 0xf0b7, 0x0840, 0x19c9, 0x2b52, 0x3adb, 0x4e64, 0x5fed, 0x6d76, 0x7cff,
    0x9489, 0x8500, 0xb79b, 0xa612, 0xd2ad, 0xc324, 0xf1bf, 0xe036, 0x18c1, 0x0948, 0x3bd3, 0x2a5a,
    0x5ee5, 0x4f6c, 0x7df7, 0x6c7e, 0xa50a, 0xb483, 0x8618, 0x9791, 0xe32e, 0xf2a7, 0xc03c, 0xd1b5,
    0x2942, 0x38cb, 0x0a50, 0x1bd9, 0x6f66, 0x7eef, 0x4c74, 0x5dfd, 0xb58b, 0xa402, 0x9699, 0x8710,
    0xf3af, 0xe226, 0xd0bd, 0xc134, 0x39c3, 0x284a, 0x1ad1, 0x0b58, 0x7fe7, 0x6e6e, 0x5cf5, 0x4d7c,
    0xc60c, 0xd785, 0xe51e, 0xf497, 0x8028, 0x91a1, 0xa33a, 0xb2b3, 0x4a44, 0x5bcd, 0x6956, 0x78df,
    0x0c60, 0x1de9, 0x2f72, 0x3efb, 0xd68d, 0xc704, 0xf59f, 0xe416, 0x90a9, 0x8120, 0xb3bb, 0xa232,
    0x5ac5, 0x4b4c, 0x79d7, 0x685e, 0x1ce1, 0x0d68, 0x3ff3, 0x2e7a, 0xe70e, 0xf687, 0xc41c, 0xd595,
    0xa12a, 0xb0a3, 0x8238, 0x93b1, 0x6b46, 0x7acf, 0x4854, 0x59dd, 0x2d62, 0x3ceb, 0x0e70, 0x1ff9,
    0xf78f, 0xe606, 0xd49d, 0xc514, 0xb1ab, 0xa022, 0x92b9, 0x8330, 0x7bc7, 0x6a4e, 0x58d5, 0x495c,
    0x3de3, 0x2c6a, 0x1ef1, 0x0f78]

/-- `crc16_update`; the index is below 256, the size of the table. -/
def crc16Update (crc : UInt16) (byte : UInt8) : UInt16 :=
  (crc >>> 8) ^^^ crcTable.getD ((crc ^^^ byte.toUInt16) &&& 0xFF).toNat 0

/-- The checksum of a byte string: the loop over its bytes, then the final XOR. -/
def crc16 (data : List UInt8) : UInt16 := data.foldl crc16Update crcInit ^^^ 0xFFFF

def toLeBytes (x : UInt16) : List UInt8 := [x.toUInt8, (x >>> 8).toUInt8]

def fromLeBytes (lo hi : UInt8) : UInt16 := lo.toUInt16 ||| (hi.toUInt16 <<< 8)

/-! ## 2. The encoder -/

def needsEscape (byte : UInt8) : Bool :=
  byte == flagByte || byte == escapeByte || byte == xon || byte == xoff || byte == specialByte

/-- What both loops of `encode_bytes` push for one byte. -/
def escapeOne (byte : UInt8) : List UInt8 :=
  if needsEscape byte then [escapeByte, byte ^^^ escapeXform] else [byte]

/-- The bytes pushed for a list. -/
def escapeBytes (data : List UInt8) : List UInt8 := data.flatMap escapeOne

/-- `HdlcEncoder`: the running checksum. -/
structure HdlcEncoder where
  crc : UInt16
  deriving DecidableEq, Repr

def HdlcEncoder.new : HdlcEncoder := ⟨crcInit⟩

/-- `encode_bytes`: the output, and the encoder with its checksum reset. -/
def HdlcEncoder.encodeBytes (enc : HdlcEncoder) (data : List UInt8) : List UInt8 × HdlcEncoder :=
  let crc := data.foldl crc16Update enc.crc ^^^ 0xFFFF
  (flagByte :: (escapeBytes data ++ escapeBytes (toLeBytes crc) ++ [flagByte]), ⟨crcInit⟩)

/-- `encode_frame`; `none` where `SpinelFrame::encode` panics. -/
def HdlcEncoder.encodeFrame (enc : HdlcEncoder) (frame : SpinelFrame) : Option (List UInt8 × HdlcEncoder) :=
  frame.encode.map enc.encodeBytes

/-- The outputs of successive `encode_bytes` calls on one encoder. -/
def HdlcEncoder.encodeAll (enc : HdlcEncoder) : List (List UInt8) → List (List UInt8)
  | [] => []
  | data :: rest => (enc.encodeBytes data).1 :: (enc.encodeBytes data).2.encodeAll rest

/-- The outputs of successive `encode_frame` calls on one encoder. -/
def HdlcEncoder.encodeFrames (enc : HdlcEncoder) : List SpinelFrame → Option (List (List UInt8))
  | [] => some []
  | frame :: rest =>
    match enc.encodeFrame frame with
    | none => none
    | some (wire, enc') => (enc'.encodeFrames rest).map (wire :: ·)

/-! ## 3. The decoder -/

inductive HdlcState where
  /-- Looking for an opening flag. -/
  | seekingFlag
  /-- Inside a frame, collecting data bytes. -/
  | receiving
  /-- After an escape byte: the next byte is XORed. -/
  | escaped
  deriving DecidableEq, Repr

structure HdlcDecoder where
  state : HdlcState
  buffer : List UInt8
  deriving DecidableEq, Repr

def HdlcDecoder.new : HdlcDecoder := ⟨.seekingFlag, []⟩

/-- The closing flag: `frame_data` is the buffer without its last two bytes, the received checksum. -/
def HdlcDecoder.endOfFrame (dec : HdlcDecoder) : HdlcDecoder × Option (Except SpinelError (List UInt8)) :=
  if dec.buffer.length ≤ 2 then (⟨.receiving, []⟩, none)
  else
    let frameData := dec.buffer.take (dec.buffer.length - 2)
    let receivedCrc := fromLeBytes (dec.buffer.getD (dec.buffer.length - 2) 0)
      (dec.buffer.getD (dec.buffer.length - 1) 0)
    (⟨.seekingFlag, []⟩,
      some (if receivedCrc = crc16 frameData then .ok frameData else .error .crcMismatch))

def HdlcDecoder.feedByte (dec : HdlcDecoder) (byte : UInt8) :
    HdlcDecoder × Option (Except SpinelError (List UInt8)) :=
  match dec.state with
  | .seekingFlag => (if byte = flagByte then ⟨.receiving, dec.buffer⟩ else dec, none)
  | .receiving =>
    if byte = flagByte then dec.endOfFrame
    else if byte = escapeByte then (⟨.escaped, dec.buffer⟩, none)
    else (⟨.receiving, dec.buffer ++ [byte]⟩, none)
  | .escaped =>
    -- ESC FLAG aborts the frame
    if byte = flagByte then (⟨.receiving, []⟩, none)
    else (⟨.receiving, dec.buffer ++ [byte ^^^ escapeXform]⟩, none)

/-! ## 4. The round trip -/

variable {byte : UInt8} {data : List UInt8}

theorem needsEscape_cases (h : needsEscape byte) :
    byte = flagByte ∨ byte = escapeByte ∨ byte = xon ∨ byte = xoff ∨ byte = specialByte := by
  unfold needsEscape at h
  simp only [Bool.or_eq_true, beq_iff_eq] at h
  rcases h with (((h | h) | h) | h) | h
  · exact .inl h
  · exact .inr (.inl h)
  · exact .inr (.inr (.inl h))
  · exact .inr (.inr (.inr (.inl h)))
  · exact .inr (.inr (.inr (.inr h)))

theorem not_needsEscape (h : needsEscape byte = false) : byte ≠ flagByte ∧ byte ≠ escapeByte := by
  refine ⟨fun e => ?_, fun e => ?_⟩ <;> subst e <;> exact absurd h (by decide)

/-- The second byte of an escape sequence is not a flag, and XORing it again gives the byte. -/
theorem escape_xform (h : needsEscape byte) :
    byte ^^^ escapeXform ≠ flagByte ∧ (byte ^^^ escapeXform) ^^^ escapeXform = byte := by
  rcases needsEscape_cases h with rfl | rfl | rfl | rfl | rfl <;> decide

theorem flag_not_mem_escapeOne (byte : UInt8) : flagByte ∉ escapeOne byte := by
  unfold escapeOne
  cases h : needsEscape byte with
  | true =>
    rw [if_pos rfl, mem_cons, mem_singleton]
    rintro (e | e)
    · exact absurd e (by decide)
    · exact (escape_xform h).1 e.symm
  | false =>
    rw [if_neg Bool.false_ne_true, mem_singleton]
    exact fun e => (not_needsEscape h).1 e.symm

/-- **No byte between the two flags of an encoding is a raw flag.** -/
theorem flag_not_mem_escapeBytes (data : List UInt8) : flagByte ∉ escapeBytes data := by
  intro h
  obtain ⟨b, _, hb⟩ := mem_flatMap.mp h
  exact flag_not_mem_escapeOne b hb

theorem escapeBytes_append (a b : List UInt8) :
    escapeBytes (a ++ b) = escapeBytes a ++ escapeBytes b := flatMap_append

theorem quiet_escapeOne (buf : List UInt8) (byte : UInt8) :
    Quiet HdlcDecoder.feedByte ⟨.receiving, buf⟩ (escapeOne byte) ⟨.receiving, buf ++ [byte]⟩ := by
  unfold escapeOne
  cases h : needsEscape byte with
  | true =>
    obtain ⟨hne, hx⟩ := escape_xform h
    have hesc : HdlcDecoder.feedByte ⟨.receiving, buf⟩ escapeByte = (⟨.escaped, buf⟩, none) := rfl
    refine quiet_cons hesc (quiet_cons ?_ (quiet_nil _))
    simp only [HdlcDecoder.feedByte, if_neg hne, hx]
  | false =>
    obtain ⟨h1, h2⟩ := not_needsEscape h
    refine quiet_cons ?_ (quiet_nil _)
    simp only [HdlcDecoder.feedByte, if_neg h1, if_neg h2]

/-- **Inside a frame the decoder collects exactly the bytes that were escaped.** -/
theorem quiet_escapeBytes (buf data : List UInt8) :
    Quiet HdlcDecoder.feedByte ⟨.receiving, buf⟩ (escapeBytes data) ⟨.receiving, buf ++ data⟩ := by
  induction data generalizing buf with
  | nil =>
    rw [append_nil]
    exact quiet_nil _
  | cons b data ih =>
    have h := quiet_append (quiet_escapeOne buf b) (ih (buf ++ [b]))
    rw [append_assoc] at h
    exact h

theorem fromLeBytes_toLeBytes (x : UInt16) : fromLeBytes x.toUInt8 (x >>> 8).toUInt8 = x := by
  unfold fromLeBytes
  apply UInt16.toNat_inj.mp
  have hx := x.toNat_lt
  rw [UInt16.toNat_or, UInt16.toNat_shiftLeft, UInt8.toNat_toUInt16, UInt8.toNat_toUInt16,
    UInt16.toNat_toUInt8, UInt16.toNat_toUInt8, UInt16.toNat_shiftRight]
  have e8 : (8 : UInt16).toNat % 16 = 8 := rfl
  rw [e8, Nat.shiftRight_eq_div_pow, Nat.shiftLeft_eq, Nat.or_comm]
  have hhi : x.toNat / 2 ^ 8 % 2 ^ 8 = x.toNat / 2 ^ 8 := Nat.mod_eq_of_lt (by omega)
  rw [hhi, Nat.mod_eq_of_lt (a := x.toNat / 2 ^ 8 * 2 ^ 8) (by omega), Nat.mul_comm,
    ← Nat.two_pow_add_eq_or_of_lt (Nat.mod_lt _ (by decide))]
  exact Nat.div_add_mod x.toNat (2 ^ 8)

theorem endOfFrame_payload (h : data ≠ []) :
    HdlcDecoder.endOfFrame ⟨.receiving, data ++ toLeBytes (crc16 data)⟩ =
      (HdlcDecoder.new, some (.ok data)) := by
  have hlen : (data ++ toLeBytes (crc16 data)).length = data.length + 2 := by
    rw [length_append]
    rfl
  have hpos : 0 < data.length := length_pos_iff.mpr h
  have htake : (data ++ toLeBytes (crc16 data)).take data.length = data := take_left
  have hlo : (data ++ toLeBytes (crc16 data)).getD data.length 0 = (crc16 data).toUInt8 := by
    simp [toLeBytes]
  have hhi : (data ++ toLeBytes (crc16 data)).getD (data.length + 1) 0 = (crc16 data >>> 8).toUInt8 := by
    simp [toLeBytes]
  unfold HdlcDecoder.endOfFrame
  simp only [hlen, Nat.add_sub_cancel]
  rw [if_neg (by omega), show data.length + 2 - 1 = data.length + 1 from rfl, htake, hlo, hhi,
    fromLeBytes_toLeBytes, if_pos rfl]
  rfl

/-- The bytes between the two flags of a fresh encoder's output. -/
def body (data : List UInt8) : List UInt8 := escapeBytes (data ++ toLeBytes (crc16 data))

open HdlcEncoder

theorem encodeBytes_new (data : List UInt8) : new.encodeBytes data =
      (flagByte :: (body data ++ [flagByte]), new) := by
  unfold body
  rw [escapeBytes_append]
  rfl

theorem flag_not_mem_body (data : List UInt8) : flagByte ∉ body data := flag_not_mem_escapeBytes _

theorem feedAll_body (h : data ≠ []) :
    feedAll HdlcDecoder.feedByte ⟨.receiving, []⟩ (body data ++ [flagByte]) =
      (HdlcDecoder.new, [.ok data]) := by
  have hq := quiet_escapeBytes [] (data ++ toLeBytes (crc16 data))
  unfold body
  rw [feedAll_append_of hq, nil_append, feedAll_cons]
  have hs : HdlcDecoder.feedByte ⟨.receiving, data ++ toLeBytes (crc16 data)⟩ flagByte =
      (HdlcDecoder.new, some (.ok data)) := endOfFrame_payload h
  rw [hs]
  rfl

/-- **One encoding**: from the initial state it yields its payload and leads back there. -/
theorem feedAll_encodeBytes (h : data ≠ []) :
    feedAll HdlcDecoder.feedByte HdlcDecoder.new (new.encodeBytes data).1 =
      (HdlcDecoder.new, [.ok data]) := by
  rw [encodeBytes_new, feedAll_cons]
  have hs : HdlcDecoder.feedByte HdlcDecoder.new flagByte = (⟨.receiving, []⟩, none) := rfl
  rw [hs]
  simp only [feedAll_body h, Option.toList_none, nil_append]

theorem encodeAll_cons (data : List UInt8) (rest : List (List UInt8)) : new.encodeAll (data :: rest) =
      (new.encodeBytes data).1 :: new.encodeAll rest := by
  rw [encodeAll, encodeBytes_new]

/-- **A list of encodings**: the payloads come out in order, and the decoder is where it began. -/
theorem feedAll_encodeAll (payloads : List (List UInt8)) (h : ∀ p ∈ payloads, p ≠ []) :
    feedAll HdlcDecoder.feedByte HdlcDecoder.new (new.encodeAll payloads).flatten =
      (HdlcDecoder.new, payloads.map .ok) := by
  induction payloads with
  | nil => rfl
  | cons p ps ih =>
    rw [encodeAll_cons, flatten_cons, feedAll_append_of (feedAll_encodeBytes (h p mem_cons_self)),
      ih fun q hq => h q (mem_cons_of_mem _ hq)]
    rfl

theorem encodeFrames_eq (frames : List SpinelFrame) (h : ∀ f ∈ frames, Wireable f) :
    ∃ datas, frames.mapM SpinelFrame.encode = some datas ∧
      new.encodeFrames frames = some (new.encodeAll datas) ∧
      (∀ d ∈ datas, d ≠ []) ∧ datas.map SpinelFrame.decode = frames.map .ok := by
  induction frames with
  | nil => exact ⟨[], rfl, rfl, fun _ hd => absurd hd not_mem_nil, rfl⟩
  | cons f fs ih =>
    obtain ⟨ds, hm, he, hne, hdec⟩ := ih fun g hg => h g (mem_cons_of_mem _ hg)
    obtain ⟨d, hd, hdne, hdd⟩ := decode_encode (h f mem_cons_self)
    refine ⟨d :: ds, ?_, ?_, ?_, ?_⟩
    · rw [mapM_cons, hd, hm]
      rfl
    · rw [encodeFrames, encodeFrame, hd, Option.map_some, encodeBytes_new]
      show (new.encodeFrames fs).map _ = _
      rw [he, encodeAll_cons, encodeBytes_new]
      rfl
    · intro x hx
      rcases mem_cons.mp hx with rfl | hx
      · exact hdne
      · exact hne x hx
    · rw [map_cons, map_cons, hdd, hdec]

/-- **The HDLC round trip.** Non-empty payloads, fed byte by byte into a fresh decoder, come out once each and
    in order, and the decoder is back in its initial state; Spinel frames come back through `decode`. -/
theorem hdlc_round_trip (payloads : List (List UInt8)) (hp : ∀ p ∈ payloads, p ≠ [])
    (frames : List SpinelFrame) (hf : ∀ f ∈ frames, Wireable f) :
    feedAll HdlcDecoder.feedByte HdlcDecoder.new (HdlcEncoder.new.encodeAll payloads).flatten =
        (⟨.seekingFlag, []⟩, payloads.map .ok) ∧
      ∃ wires, HdlcEncoder.new.encodeFrames frames = some wires ∧
        (feedAll HdlcDecoder.feedByte HdlcDecoder.new wires.flatten).1 = ⟨.seekingFlag, []⟩ ∧
        (feedAll HdlcDecoder.feedByte HdlcDecoder.new wires.flatten).2.map
          (·.bind SpinelFrame.decode) = frames.map .ok := by
  refine ⟨feedAll_encodeAll payloads hp, ?_⟩
  obtain ⟨datas, _, henc, hne, hdec⟩ := encodeFrames_eq frames hf
  refine ⟨_, henc, ?_, ?_⟩
  · rw [feedAll_encodeAll datas hne]
    rfl
  · rw [feedAll_encodeAll datas hne, map_map, ← hdec]
    rfl

/-- Two payloads made of bytes that are escaped, and two frames at the ends of the command range. -/
theorem hdlc_round_trip_escaped : feedAll HdlcDecoder.feedByte HdlcDecoder.new
        (HdlcEncoder.new.encodeAll [[0x7E, 0x7D], [0x42]]).flatten =
        (⟨.seekingFlag, []⟩, [.ok [0x7E, 0x7D], .ok [0x42]]) ∧
      ∃ wires, HdlcEncoder.new.encodeFrames [⟨0x81, 6, [0x00]⟩, ⟨0x80, 0x1FFFFF, []⟩] = some wires ∧
        (feedAll HdlcDecoder.feedByte HdlcDecoder.new wires.flatten).1 = ⟨.seekingFlag, []⟩ ∧
        (feedAll HdlcDecoder.feedByte HdlcDecoder.new wires.flatten).2.map
          (·.bind SpinelFrame.decode) = [.ok ⟨0x81, 6, [0x00]⟩, .ok ⟨0x80, 0x1FFFFF, []⟩] :=
  hdlc_round_trip [[0x7E, 0x7D], [0x42]] (by decide) [⟨0x81, 6, [0x00]⟩, ⟨0x80, 0x1FFFFF, []⟩] (by decide)

end DcuDaemon.Spinel
