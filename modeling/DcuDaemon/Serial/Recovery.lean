/-
  Which frames `recv_frame` returns when frames with a wrong checksum stand between the valid ones
  (`crates/dcu-serial/src/framing.rs`).

  An error leaves `recv_frame` by `?` while the rest of the read is in the local `pending`: it is
  dropped, whatever stands in it. And a frame that began there is not recognised by what is left of it.

  Main result: `recovers_of_apart`.
-/
import DcuDaemon.Serial.Delivery

namespace DcuDaemon.Serial

open Lib Spinel List Option

/-- What a sender puts on the line: a frame as the encoder writes it, or data behind which a checksum
    stands. -/
inductive Sent where
  | valid (frame : SpinelFrame)
  | corrupted (data : List UInt8) (checksum : UInt16)

/-- The frame can be encoded; the checksum is the only thing that is wrong. -/
def Sent.Sound : Sent → Prop
  | .valid frame => Wireable frame
  | .corrupted data checksum => data ≠ [] ∧ checksum ≠ crc16 data

instance (s : Sent) : Decidable s.Sound :=
  match s with
  | .valid frame => inferInstanceAs (Decidable (Wireable frame))
  | .corrupted data checksum => inferInstanceAs (Decidable (data ≠ [] ∧ checksum ≠ crc16 data))

def Sent.wire : Sent → Option (List UInt8)
  | .valid frame => (HdlcEncoder.new.encodeFrame frame).map (·.1)
  | .corrupted data checksum =>
    some (flagByte :: (escapeBytes (data ++ toLeBytes checksum) ++ [flagByte]))

def Sent.result : Sent → Except SerialError SpinelFrame
  | .valid frame => .ok frame
  | .corrupted _ _ => .error (.spinel .crcMismatch)

def Sent.marks (s : Sent) (wire : List UInt8) : List (Option Bool) := frameMarks wire.length s.result.isOk

/-- **What was sent, as a frame with its content.** -/
theorem Sent.exists_content {s : Sent} (h : s.Sound) :
    ∃ content, s.wire = some (frameWire content) ∧ 2 < content.length ∧
      (piece content).marks = s.marks (frameWire content) ∧ toResult (answer content) = s.result := by
  cases s with
  | valid frame =>
    obtain ⟨d, hd, hne, hdec⟩ := decode_encode h
    refine ⟨sealed d, ?_, long_sealed hne, ?_, ?_⟩
    · rw [Sent.wire, HdlcEncoder.encodeFrame, hd, map_some, map_some, encodeBytes_new]
      rfl
    · rw [piece, answer_sealed]
      rfl
    · rw [answer_sealed, toResult, hdec]
      rfl
  | corrupted data checksum =>
    have hans := answer_append data checksum
    rw [if_neg h.2] at hans
    refine ⟨data ++ toLeBytes checksum, rfl, ?_, ?_, ?_⟩
    · have hpos := length_pos_iff.mpr h.1
      have hlen : (data ++ toLeBytes checksum).length = data.length + 2 := length_append
      omega
    · rw [piece, hans]
      rfl
    · rw [hans]
      rfl

theorem exists_contents {items : List Sent} (h : ∀ s ∈ items, s.Sound) {wires : List (List UInt8)}
    (hw : items.mapM Sent.wire = some wires) :
    ∃ contents, wires.flatten = frameStream contents ∧ (∀ c ∈ contents, 2 < c.length) ∧
      (contents.map piece).flatMap Piece.marks = (zipWith Sent.marks items wires).flatten ∧
      (contents.map answer).map toResult = items.map Sent.result := by
  induction items generalizing wires with
  | nil =>
    cases hw
    exact ⟨[], rfl, fun _ hc => absurd hc not_mem_nil, rfl, rfl⟩
  | cons s items ih =>
    obtain ⟨content, hwire, hlong, hmarks, hresult⟩ := Sent.exists_content (h s mem_cons_self)
    rw [mapM_cons, hwire, bind_eq_bind, bind_some] at hw
    obtain ⟨wires', hrest, hwires⟩ := bind_eq_some_iff.mp hw
    obtain rfl : frameWire content :: wires' = wires := some.inj hwires
    obtain ⟨contents, hstream, hall, hmarks', hresults⟩ := ih (fun x hx => h x (mem_cons_of_mem _ hx)) hrest
    refine ⟨content :: contents, ?_, forall_mem_cons.mpr ⟨hlong, hall⟩, ?_, ?_⟩
    · rw [flatten_cons, hstream, frameStream_cons]
    · rw [map_cons, flatMap_cons, hmarks, hmarks', zipWith_cons_cons, flatten_cons]
    · rw [map_cons, map_cons, map_cons, hresult, hresults]

/-- **When `recv_frame` recovers from wrong checksums**, with each valid frame once and in order and one error
    for each corrupted one: if behind the first byte of a read at most one valid frame closes, and a corrupted
    frame closes with the last byte of a read. -/
theorem recovers_of_apart (items : List Sent) (hs : ∀ s ∈ items, s.Sound)
    (wires : List (List UInt8)) (hw : items.mapM Sent.wire = some wires)
    (reads : List Chunk) (hne : ∀ c ∈ reads, c.val ≠ [])
    (hcut : (reads.map (·.val)).flatten = wires.flatten)
    (hapart : ∀ m ∈ (reads.map (·.val.length)).splitLengths
      (List.zipWith Sent.marks items wires).flatten, Apart m) (k : Nat) :
    (FramedTransport.new (reads.map .bytes)).recvCalls k = thenClosed (items.map Sent.result) k := by
  obtain ⟨contents, hstream, hlong, hmarks, hresults⟩ := exists_contents hs hw
  rw [← hmarks] at hapart
  rw [← hresults, ← (session_frames reads ready_new (partIn_nil _) hlong (hcut.trans hstream)
    (.inl hapart)).1 hapart]
  exact recvCalls_session k reads hne .new []

/-- The next read begins with the last byte of a valid frame and holds another one. -/
theorem recovers_two_reads :
    (FramedTransport.new ([⟨[126, 128, 6, 0, 0, 126], by decide⟩, ⟨[126, 129, 2, 65, 185], by decide⟩,
        ⟨[126, 126, 128, 6, 189, 230, 126], by decide⟩].map .bytes)).recvCalls 4 =
      [.error (.spinel .crcMismatch), .ok ⟨0x81, 2, []⟩, .ok ⟨0x80, 6, []⟩, .error connectionClosed] :=
  recovers_of_apart [.corrupted [128, 6] 0, .valid ⟨0x81, 2, []⟩, .valid ⟨0x80, 6, []⟩] (by decide +kernel)
    [[126, 128, 6, 0, 0, 126], [126, 129, 2, 65, 185, 126], [126, 128, 6, 189, 230, 126]] (by decide +kernel)
    [⟨[126, 128, 6, 0, 0, 126], by decide⟩, ⟨[126, 129, 2, 65, 185], by decide⟩,
      ⟨[126, 126, 128, 6, 189, 230, 126], by decide⟩] (by decide) rfl (by decide +kernel) 4

/-- **A corrupted frame and a valid one in one read**: the second call reports the end of the stream. -/
theorem recovers_loses :
    (∀ s ∈ [Sent.corrupted [128, 6] 0, .valid ⟨0x81, 2, []⟩], s.Sound) ∧
      [Sent.corrupted [128, 6] 0, .valid ⟨0x81, 2, []⟩].mapM Sent.wire =
        some [[126, 128, 6, 0, 0, 126], [126, 129, 2, 65, 185, 126]] ∧
      (FramedTransport.new [.bytes ⟨[126, 128, 6, 0, 0, 126, 126, 129, 2, 65, 185, 126],
          by decide⟩]).recvCalls 2 =
        [.error (.spinel .crcMismatch), .error connectionClosed] ∧
      ¬ ∀ k, (FramedTransport.new [.bytes ⟨[126, 128, 6, 0, 0, 126, 126, 129, 2, 65, 185, 126],
          by decide⟩]).recvCalls k =
        thenClosed ([Sent.corrupted [128, 6] 0, .valid ⟨0x81, 2, []⟩].map Sent.result) k := by
  refine ⟨by decide +kernel, by decide +kernel, by decide +kernel, fun h => ?_⟩
  exact absurd (h 2) (by decide +kernel)

end DcuDaemon.Serial
