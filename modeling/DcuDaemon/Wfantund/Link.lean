/-
  Frames and packets from one end of the serial line to the other (`SpinelNCPInstance-DataPump.cpp`:
  `driver_to_ncp_pump`, `ncp_to_driver_pump`; `instance/tun_bridge.rs`: `tun_to_ncp`, `extract_ipv6`).

  Main results: `pump_round_trip`, `tun_packets_cross`.
-/
import DcuDaemon.Wfantund.TunBridge

namespace DcuDaemon.Wfantund

open Lib Spinel List

/-- The frames one after another through `mOutboundBufferEscaped`, and the bytes that are written from it. -/
def pumpOut (buffer : Block UInt8 outboundBufferEscapedSize) : List (List UInt8) → Option (List UInt8)
  | [] => some []
  | frame :: frames => do
    let out ← escapeOutbound buffer frame
    let rest ← pumpOut out.block frames
    some (out.block.slice 0 out.len ++ rest)

/-- A frame that has room in the buffers of both ends. -/
structure PumpFrame where
  bytes : List UInt8
  ne_nil : bytes ≠ []
  received : bytes.length + 2 ≤ spinelFrameBufferSize
  escaped : bytes.length + 4 + escapedCount bytes ≤ outboundBufferEscapedSize

variable (buffer : Block UInt8 outboundBufferEscapedSize) (frames : List PumpFrame)

theorem escapeOutbound_wire (f : PumpFrame) :
    ∃ out, escapeOutbound buffer f.bytes = some out ∧ out.block.slice 0 out.len = wireBytes f.bytes := by
  have hfit : Block.Fits outboundBufferEscapedSize 0 (wireBytes f.bytes).length := by
    rw [length_wireBytes]
    exact .inr (by simpa using f.escaped)
  obtain ⟨block, hblock⟩ := Option.isSome_iff_exists.mp (Block.write_isSome.mpr hfit)
  refine ⟨⟨block, 0 + (wireBytes f.bytes).length⟩, ?_, ?_⟩
  · rw [escapeOutbound_eq, Cursor.putAll_eq, hblock]
    rfl
  · rw [Nat.zero_add]
    exact (Block.holds_write hblock).slice_eq

theorem payload_body {data : List UInt8} (h : data ≠ []) :
    Spinel.content (body data) = data ++ toLeBytes (crc16 data) ∧
      payloadOf (Spinel.content (body data)) = some data := by
  have hrun : inRun (body data) = ⟨.receiving, data ++ toLeBytes (crc16 data)⟩ :=
    quiet_unique (quiet_run (flag_not_mem_body data) false []) (quiet_escapeBytes [] _)
  have hfeed : (inRun (body data)).feedByte flagByte = (HdlcDecoder.new, some (.ok data)) := by
    rw [hrun]
    exact endOfFrame_payload h
  have hclosed : Closes (body data) := by
    by_contra hopen
    rw [feedByte_open hopen] at hfeed
    cases hfeed
  obtain ⟨result, hresult, hpayload⟩ := feedByte_close hclosed
  rw [hfeed] at hresult
  cases hresult
  exact ⟨congrArg HdlcDecoder.buffer hrun, hpayload.symm⟩

theorem runsOf_wireBytes (frame rest : List UInt8) :
    runsOf (wireBytes frame ++ rest) = [] :: body frame :: runsOf rest := by
  have hwire : wireBytes frame ++ rest = [] ++ flagByte :: (body frame ++ flagByte :: rest) := by
    rw [wireBytes, encodeBytes_new]
    simp
  rw [hwire, runsOf_append not_mem_nil, runsOf_append (flag_not_mem_body frame)]

theorem pumpOut_eq : pumpOut buffer (frames.map PumpFrame.bytes) =
    some (frames.map fun f => wireBytes f.bytes).flatten := by
  induction frames generalizing buffer with
  | nil => rfl
  | cons f frames ih =>
    obtain ⟨out, hout, hbytes⟩ := escapeOutbound_wire buffer f
    rw [map_cons, pumpOut, hout]
    show ((pumpOut out.block (frames.map PumpFrame.bytes)).bind fun rest => _) = _
    rw [ih, hbytes]
    rfl

/-- **What the C++ daemon writes, it reads back, and so does the port**: any number of frames, each once and in
    order, whatever the buffer held before. -/
theorem pump_round_trip : ∃ wire, pumpOut buffer (frames.map PumpFrame.bytes) = some wire ∧
      (feedAll DataPump.readCharacter DataPump.start wire).2 = frames.map PumpFrame.bytes ∧
      (feedAll HdlcDecoder.feedByte HdlcDecoder.new wire).2 = frames.map fun f => .ok f.bytes := by
  refine ⟨_, pumpOut_eq buffer frames, ?_⟩
  induction frames with
  | nil => exact ⟨rfl, rfl⟩
  | cons f frames ih =>
    obtain ⟨hcontent, hpayload⟩ := payload_body f.ne_nil
    have hstored : stored (body f.bytes) = Spinel.content (body f.bytes) := by
      refine stored_eq_content ?_
      rw [hcontent, length_append]
      exact f.received
    have hwire : feedAll HdlcDecoder.feedByte HdlcDecoder.new (wireBytes f.bytes) =
        (HdlcDecoder.new, [.ok f.bytes]) := feedAll_encodeBytes f.ne_nil
    -- the run between two frames is empty and yields nothing
    rw [feedAll_readCharacter] at ih ⊢
    rw [map_cons, flatten_cons, runsOf_wireBytes, filterMap_cons, filterMap_cons, hstored, hpayload, ih.1,
      feedAll_append_of hwire, ih.2]
    exact ⟨rfl, rfl⟩

/-- Two frames, the second with a flag byte and an escape byte in it. -/
theorem pump_round_trip_two : ∃ wire,
    pumpOut (.fill _ 0) [[0x81, 0x02, 0x00], [0x80, 0x7E, 0x7D]] = some wire ∧
      (feedAll DataPump.readCharacter DataPump.start wire).2 = [[0x81, 0x02, 0x00], [0x80, 0x7E, 0x7D]] ∧
      (feedAll HdlcDecoder.feedByte HdlcDecoder.new wire).2 =
        [.ok [0x81, 0x02, 0x00], .ok [0x80, 0x7E, 0x7D]] :=
  pump_round_trip (.fill _ 0)
    [⟨[0x81, 0x02, 0x00], by decide, by decide, by decide +kernel⟩,
      ⟨[0x80, 0x7E, 0x7D], by decide, by decide, by decide +kernel⟩]

theorem tunToNcp_cases (state : Dbus.NcpState) (read : List UInt8) :
    read.take 2000 = [] ∧ tunToNcp state read = none ∨
      read.take 2000 ≠ [] ∧ ∃ frame, tunToNcp state read = some frame ∧ Wireable frame ∧
        extractIpv6 frame.payload = some (read.take 2000) := by
  unfold tunToNcp
  dsimp only
  by_cases hempty : read.take 2000 = []
  · exact .inl ⟨hempty, by rw [hempty]; rfl⟩
  · have hlen : (read.take 2000).length ≤ 65535 := (length_take_le 2000 read).trans (by decide)
    have hprop : (if state.isAssociated then propStreamNet else propStreamNetInsecure) ≤
        spinelMaxUintPacked := by
      split <;> decide
    obtain ⟨frame, hbuild, -, hextract⟩ := encode_buildStreamNetFrame hprop hlen
    rw [if_neg fun e => hempty (isEmpty_iff.mp e)]
    refine .inr ⟨hempty, frame, hbuild, ?_, hextract⟩
    rw [buildStreamNetFrame, PackWriter.writeUintPacked, if_pos hprop] at hbuild
    cases hbuild
    exact ⟨show (makeHeader 0 0 &&& spinelHeaderFlag != 0) = true by decide,
      show cmdPropValueSet ≤ spinelMaxUintPacked by decide⟩

variable (reads : List (Dbus.NcpState × List UInt8))

/-- `tun_to_ncp` over the packets that are read, with the NCP state at each. -/
def tunFrames : List SpinelFrame := reads.filterMap fun x => tunToNcp x.1 x.2

theorem tunFrames_spec : (∀ f ∈ tunFrames reads, Wireable f) ∧
      (tunFrames reads).map (fun f => extractIpv6 f.payload) =
        ((reads.map fun x => x.2.take 2000).filter (· ≠ [])).map some := by
  induction reads with
  | nil => exact ⟨fun _ hf => absurd hf not_mem_nil, rfl⟩
  | cons x reads ih =>
    rw [tunFrames, filterMap_cons]
    rcases tunToNcp_cases x.1 x.2 with ⟨hempty, hnone⟩ | ⟨hne, frame, hsome, hwire, hextract⟩
    · rw [hnone, map_cons, filter_cons_of_neg (by simp [hempty])]
      exact ih
    · rw [hsome]
      refine ⟨forall_mem_cons.mpr ⟨hwire, ih.1⟩, ?_⟩
      rw [map_cons, map_cons, filter_cons_of_pos (by simp [hne]), map_cons, ← hextract, ← ih.2]
      rfl

/-- **Packets of the host arrive**: those that are read from the interface, cut to 2000 bytes, whatever the
    NCP state is at each. -/
theorem tun_packets_cross :
    ∃ wires, HdlcEncoder.new.encodeFrames (tunFrames reads) = some wires ∧
      ((feedAll HdlcDecoder.feedByte HdlcDecoder.new wires.flatten).2.map (·.bind SpinelFrame.decode)).map
          (fun r => r.toOption.bind fun f => extractIpv6 f.payload) =
        ((reads.map fun x => x.2.take 2000).filter (· ≠ [])).map some := by
  obtain ⟨hwireable, hpackets⟩ := tunFrames_spec reads
  obtain ⟨datas, -, hencode, hne, hdecode⟩ := encodeFrames_eq (tunFrames reads) hwireable
  have hframes : (datas.map Except.ok).map (·.bind SpinelFrame.decode) = (tunFrames reads).map .ok := by
    rw [map_map, ← hdecode]
    rfl
  refine ⟨_, hencode, ?_⟩
  rw [feedAll_encodeAll datas hne, hframes, map_map, ← hpackets]
  rfl

end DcuDaemon.Wfantund
