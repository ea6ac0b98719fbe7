/-
  The HDLC loop of the C++ daemon (`src/ncp-spinel/SpinelNCPInstance-DataPump.cpp`:
  `ncp_to_driver_pump`), and the frames of the two daemons on one byte stream.

  The pump knows no opening flag: whatever came since the last flag is a frame when the next flag comes,
  also when that flag follows an escape byte. A byte for which the buffer has no room makes it begin
  anew. The Rust decoder drops a run that an escape byte aborts, and the run behind every frame, because
  it takes the closing flag of a frame for no opening one.

  Main result: `streams_agree_iff`.
-/
import DcuDaemon.Spinel.HdlcRuns
import Mathlib.Algebra.Group.Nat.Even

namespace DcuDaemon.Wfantund

open Lib Spinel List

/-! ## 1. The pump -/

/-- `hdlc_crc16`; `sFcsTable` has the entries of `CRC_TABLE`. -/
def hdlcCrc16 (aFcs : UInt16) (aByte : UInt8) : UInt16 :=
  (aFcs >>> 8) ^^^ crcTable.getD ((aFcs ^^^ aByte.toUInt16) &&& 0xFF).toNat 0

/-- `sizeof(mInboundFrame)`, `SPINEL_FRAME_BUFFER_SIZE`. -/
def spinelFrameBufferSize : Nat := 1300

/-- What the pump holds between two bytes: `mInboundFrame`, the checksum of all but the last two, and whether
    it waits behind `HDLC_BYTE_ESC`. -/
structure DataPump where
  mInboundFrame : List UInt8
  mInboundFrameHDLCCRC : UInt16
  escaped : Bool
  deriving DecidableEq

namespace DataPump

/-- The top of the outer loop, and of the protothread after `on_error`. -/
def start : DataPump := ⟨[], 0xFFFF, false⟩

/-- The end of the inner loop: the checksum, then the byte, if there is room. -/
def store (p : DataPump) (byte : UInt8) : DataPump :=
  let size := p.mInboundFrame.length
  let crc := if size ≥ 2 then hdlcCrc16 p.mInboundFrameHDLCCRC (p.mInboundFrame.getD (size - 2) 0)
    else p.mInboundFrameHDLCCRC
  if size < spinelFrameBufferSize then ⟨p.mInboundFrame ++ [byte], crc, false⟩ else start

/-- Behind the inner loop: the frame, if its checksum is right. -/
def checkFrame (p : DataPump) : Option (List UInt8) :=
  if p.mInboundFrame.length ≤ 2 then none
  else
    let size := p.mInboundFrame.length - 2
    let crc := p.mInboundFrameHDLCCRC ^^^ 0xFFFF
    let frameCrc := fromLeBytes (p.mInboundFrame.getD size 0) (p.mInboundFrame.getD (size + 1) 0)
    if crc ≠ frameCrc then none else some (p.mInboundFrame.take size)

def readCharacter (p : DataPump) (byte : UInt8) : DataPump × Option (List UInt8) :=
  if byte = flagByte then (start, p.checkFrame)
  else if p.escaped then (p.store (byte ^^^ escapeXform), none)
  else if byte = escapeByte then ({ p with escaped := true }, none)
  else (p.store byte, none)

end DataPump

/-! ## 2. The frames of the pump -/

/-- A byte more in the buffer, or none at all. -/
def push (frame : List UInt8) (byte : UInt8) : List UInt8 :=
  if frame.length < spinelFrameBufferSize then frame ++ [byte] else []

/-- What is in the buffer behind a run. -/
def stored (run : List UInt8) : List UInt8 := (content run).foldl push []

theorem foldl_push {bytes frame : List UInt8}
    (h : frame.length + bytes.length ≤ spinelFrameBufferSize) :
    bytes.foldl push frame = frame ++ bytes := by
  induction bytes generalizing frame with
  | nil => rw [foldl_nil, append_nil]
  | cons b bytes ih =>
    rw [length_cons] at h
    have hpush : push frame b = frame ++ [b] := by
      rw [push, if_pos (by omega)]
    rw [foldl_cons, hpush, ih (by rw [length_append, length_singleton]; omega), append_assoc]
    rfl

theorem stored_eq_content {run : List UInt8} (h : (content run).length ≤ spinelFrameBufferSize) :
    stored run = content run := by
  rw [stored, foldl_push (by rw [length_nil]; omega), nil_append]

/-- The pump with these bytes in its buffer. -/
def holding (frame : List UInt8) (escaped : Bool) : DataPump :=
  ⟨frame, (frame.take (frame.length - 2)).foldl crc16Update crcInit, escaped⟩

open DataPump

/-- **The checksum runs two bytes behind the buffer.** -/
theorem store_holding (frame : List UInt8) (escaped : Bool) (byte : UInt8) :
    (holding frame escaped).store byte = holding (push frame byte) false := by
  unfold store push
  dsimp only [holding]
  by_cases hroom : frame.length < spinelFrameBufferSize
  · rw [if_pos hroom, if_pos hroom, length_append, length_singleton]
    rcases lt_or_ge frame.length 2 with hlt | hge
    · rw [if_neg (not_le.mpr hlt), show frame.length - 2 = 0 by omega,
        show frame.length + 1 - 2 = 0 by omega, take_zero, take_zero]
    · obtain ⟨n, hn⟩ : ∃ n, frame.length = n + 2 := ⟨frame.length - 2, by omega⟩
      have hget : frame.getD n 0 = frame.get ⟨n, by omega⟩ := by
        simp [getD_eq_getElem?_getD, getElem?_eq_getElem (show n < frame.length by omega)]
      rw [if_pos hge, hn, show n + 2 - 2 = n by omega, show n + 2 + 1 - 2 = n + 1 by omega,
        take_append_of_le_length (by omega), take_succ_eq_append_getElem (by omega),
        foldl_append, hget]
      rfl
  · rw [if_neg hroom, if_neg hroom]
    rfl

theorem checkFrame_holding (frame : List UInt8) (escaped : Bool) :
    (holding frame escaped).checkFrame = payloadOf frame := by
  rw [holding, checkFrame, payloadOf]
  by_cases hlen : frame.length ≤ 2
  · rw [if_pos hlen, if_neg fun h => not_lt.mpr hlen h.1]
  · have hlt : 2 < frame.length := Nat.lt_of_not_le hlen
    have hlast : frame.length - 2 + 1 = frame.length - 1 := by omega
    have hcrc16 : (frame.take (frame.length - 2)).foldl crc16Update crcInit ^^^ 0xFFFF =
        crc16 (frame.take (frame.length - 2)) := rfl
    rw [if_neg hlen]
    dsimp only
    rw [hlast, hcrc16]
    by_cases hcrc : fromLeBytes (frame.getD (frame.length - 2) 0) (frame.getD (frame.length - 1) 0) =
        crc16 (frame.take (frame.length - 2))
    · rw [if_neg (not_not.mpr hcrc.symm), if_pos ⟨hlt, hcrc⟩]
    · rw [if_pos fun h => hcrc h.symm, if_neg fun h => hcrc h.2]

theorem quiet_readCharacter {run : List UInt8} (h : flagByte ∉ run) (escaped : Bool)
    (frame : List UInt8) : Quiet readCharacter (holding frame escaped) run
      (holding ((unescapeFrom escaped run).1.foldl push frame) (unescapeFrom escaped run).2) := by
  induction run generalizing escaped frame with
  | nil => exact quiet_nil _
  | cons b run ih =>
    obtain ⟨hb, hrun⟩ := ne_and_not_mem_of_not_mem_cons h
    cases escaped with
    | true =>
      refine quiet_cons ?_ (ih hrun false (push frame (b ^^^ escapeXform)))
      rw [readCharacter, if_neg (Ne.symm hb), ← store_holding frame true]
      rfl
    | false =>
      rw [unescapeFrom]
      split
      · rename_i hesc
        refine quiet_cons ?_ (ih hrun true frame)
        rw [readCharacter, if_neg (Ne.symm hb), if_pos hesc]
        rfl
      · rename_i hesc
        refine quiet_cons ?_ (ih hrun false (push frame b))
        rw [readCharacter, if_neg (Ne.symm hb), if_neg hesc, ← store_holding frame false]
        rfl

/-- **The frames of the pump, run by run.** -/
theorem feedAll_readCharacter (stream : List UInt8) :
    (feedAll readCharacter start stream).2 =
      (runsOf stream).filterMap fun run => payloadOf (stored run) := by
  have hstart : start = holding [] false := rfl
  induction stream using runs_induction with
  | last run hrun =>
    rw [runsOf_of_not_mem hrun, hstart]
    exact congrArg Prod.snd (quiet_readCharacter hrun false [])
  | step run rest hrun ih =>
    have hquiet : Quiet readCharacter start run
        (holding (stored run) (unescapeFrom false run).2) := quiet_readCharacter hrun false []
    have hflag : ∀ p : DataPump, p.readCharacter flagByte = (start, p.checkFrame) := fun _ => rfl
    rw [runsOf_append hrun, feedAll_append_of hquiet, feedAll_cons, hflag, checkFrame_holding,
      nil_append, filterMap_cons, ih]
    cases payloadOf (stored run) <;> rfl

/-! ## 3. The two daemons on one stream -/

/-- How many frames have been closed without a gap, after a run. -/
def closedAfter (n : Nat) (run : List UInt8) : Nat := if Closes run then n + 1 else 0

/-- How many frames have been closed without a gap, behind these runs. -/
def closedBehind (runs : List (List UInt8)) : Nat := runs.foldl closedAfter 0

theorem length_yielded_le (inFrame : Bool) (runs : List (List UInt8)) :
    (yielded inFrame runs).length ≤ (runs.filterMap fun run => payloadOf (content run)).length := by
  induction runs generalizing inFrame with
  | nil => cases inFrame <;> exact Nat.le_refl _
  | cons run runs ih =>
    have hcons : ((run :: runs).filterMap fun run => payloadOf (content run)).length =
        (payloadOf (content run)).toList.length +
          (runs.filterMap fun run => payloadOf (content run)).length := by
      rw [filterMap_cons]
      cases payloadOf (content run) <;> simp [add_comm]
    rw [hcons]
    cases inFrame with
    | false => exact le_trans (ih true) (Nat.le_add_left _ _)
    | true =>
      rw [yielded]
      split
      · rw [length_append]
        exact Nat.add_le_add_left (ih false) _
      · exact le_trans (ih true) (Nat.le_add_left _ _)

theorem cons_ne_yielded (payload : List UInt8) (inFrame : Bool) (runs : List (List UInt8)) :
    payload :: (runs.filterMap fun run => payloadOf (content run)) ≠ yielded inFrame runs := by
  intro e
  have hle := length_yielded_le inFrame runs
  rw [← e, length_cons] at hle
  omega

theorem closes_iff_of_payload {run payload : List UInt8} (h : payloadOf (content run) = some payload) :
    Closes run ↔ ¬ Aborted run := by
  rw [payloadOf] at h
  split at h
  · rename_i hlen
    exact ⟨fun hc => hc.1, fun ha => ⟨ha, hlen.1⟩⟩
  · cases h

theorem forall_split_cons {α : Type} {P : List α → α → Prop} {x : α} {xs : List α} :
    (∀ pre y post, x :: xs = pre ++ y :: post → P pre y) ↔
      P [] x ∧ ∀ pre y post, xs = pre ++ y :: post → P (x :: pre) y := by
  constructor
  · intro h
    exact ⟨h [] x xs rfl, fun pre y post e => h (x :: pre) y post (by rw [e]; rfl)⟩
  · intro ⟨hfirst, hrest⟩ pre y post e
    cases pre with
    | nil =>
      cases e
      exact hfirst
    | cons z pre =>
      cases e
      exact hrest pre y post rfl

theorem decide_even_closedAfter (n : Nat) (run : List UInt8) :
    decide (Even (closedAfter n run)) = if Closes run then !decide (Even n) else true := by
  rw [closedAfter]
  split
  · exact (decide_eq_decide.mpr Nat.even_add_one).trans (decide_not ..)
  · exact decide_eq_true Even.zero

/-- **Runs behind a flag.** After `n` frames without a gap the Rust decoder is inside a frame iff `n` is even,
    and the payloads are the same iff it takes every run with one. -/
theorem filterMap_eq_yielded_iff (runs : List (List UInt8)) (n : Nat) :
    (runs.filterMap fun run => payloadOf (content run)) = yielded (decide (Even n)) runs ↔
      ∀ pre run post, runs = pre ++ run :: post → payloadOf (content run) ≠ none →
        ¬ Aborted run ∧ Even (pre.foldl closedAfter n) := by
  induction runs generalizing n with
  | nil =>
    refine iff_of_true (by cases decide (Even n) <;> rfl) fun pre run post e => ?_
    cases pre <;> cases e
  | cons run runs ih =>
    rw [forall_split_cons (P := fun pre run => payloadOf (content run) ≠ none →
      ¬ Aborted run ∧ Even (pre.foldl closedAfter n))]
    simp only [foldl_nil, foldl_cons]
    rw [← ih (closedAfter n run), decide_even_closedAfter, filterMap_cons]
    by_cases heven : Even n
    · rw [decide_eq_true heven, yielded]
      by_cases hcloses : Closes run
      · rw [if_pos hcloses, if_pos hcloses]
        cases payloadOf (content run) <;> simp [hcloses.1, heven]
      · rw [if_neg hcloses, if_neg hcloses]
        cases hpayload : payloadOf (content run) with
        | none => simp
        | some payload =>
          refine iff_of_false (cons_ne_yielded payload true runs) fun h => ?_
          exact hcloses ((closes_iff_of_payload hpayload).mpr (h.1 (by simp)).1)
    · rw [decide_eq_false heven, yielded, Bool.not_false, ite_self]
      cases payloadOf (content run) with
      | none => simp
      | some payload =>
        exact iff_of_false (cons_ne_yielded payload true runs) fun h => heven (h.1 (by simp)).2

/-- **The two daemons on one stream** get the same frames iff what stands before the first flag is no frame,
    and every frame is not ended by an escape and a flag and has an even number of frames without a gap before
    it. -/
theorem streams_agree_iff (stream : List UInt8)
    (hfit : ∀ run ∈ (runsOf stream).tail, (content run).length ≤ spinelFrameBufferSize) :
    (feedAll DataPump.readCharacter DataPump.start stream).2 =
        (feedAll HdlcDecoder.feedByte HdlcDecoder.new stream).2.filterMap Except.toOption ↔
      (∀ run ∈ (runsOf stream).head?, payloadOf (stored run) = none) ∧
        ∀ pre run post, (runsOf stream).tail = pre ++ run :: post →
          payloadOf (content run) ≠ none → ¬ Aborted run ∧ Even (closedBehind pre) := by
  have hrust : (feedAll HdlcDecoder.feedByte HdlcDecoder.new stream).2.filterMap Except.toOption =
      yielded false (runsOf stream) := filterMap_feedAll stream false
  rw [feedAll_readCharacter, hrust]
  cases hruns : runsOf stream with
  | nil =>
    refine iff_of_true rfl ⟨fun run h => ?_, fun pre run post e => ?_⟩
    · cases h
    · cases pre <;> cases e
  | cons lead runs =>
    rw [hruns, tail_cons] at hfit
    have hcontent : (runs.filterMap fun run => payloadOf (stored run)) =
        runs.filterMap fun run => payloadOf (content run) :=
      filterMap_congr fun run hrun => by rw [stored_eq_content (hfit run hrun)]
    rw [filterMap_cons, hcontent, yielded, tail_cons, head?_cons,
      ← decide_eq_true (show Even 0 from Even.zero)]
    cases hlead : payloadOf (stored lead) with
    | none =>
      rw [filterMap_eq_yielded_iff]
      simp [hlead, closedBehind]
    | some payload =>
      refine iff_of_false (cons_ne_yielded payload _ runs) fun h => ?_
      have := h.1 lead rfl
      rw [hlead] at this
      cases this

/-- A frame between two flags of its own, and one more. -/
theorem streams_agree_on_two_frames :
    let stream : List UInt8 := [0x7E, 0x80, 0x06, 0xBD, 0xE6, 0x7E, 0x7E, 0x80, 0x06, 0xBD, 0xE6, 0x7E]
    (∀ run ∈ (runsOf stream).tail, (content run).length ≤ spinelFrameBufferSize) ∧
      (feedAll readCharacter start stream).2 = [[0x80, 0x06], [0x80, 0x06]] ∧
      (∀ run ∈ (runsOf stream).head?, payloadOf (stored run) = none) ∧
        ∀ pre run post, (runsOf stream).tail = pre ++ run :: post →
          payloadOf (content run) ≠ none → ¬ Aborted run ∧ Even (closedBehind pre) := by
  refine ⟨by decide +kernel, by decide +kernel, (streams_agree_iff _ ?_).mp ?_⟩
  · decide +kernel
  · decide +kernel

/-- Two frames that share the flag between them: the Rust decoder loses the second one. -/
theorem shared_flag_loses_frame :
    let stream : List UInt8 := [0x7E, 0x80, 0x06, 0xBD, 0xE6, 0x7E, 0x80, 0x06, 0xBD, 0xE6, 0x7E]
    (∀ run ∈ (runsOf stream).tail, (content run).length ≤ spinelFrameBufferSize) ∧
      (feedAll readCharacter start stream).2 = [[0x80, 0x06], [0x80, 0x06]] ∧
      (feedAll HdlcDecoder.feedByte HdlcDecoder.new stream).2.filterMap Except.toOption =
        [[0x80, 0x06]] := by
  decide +kernel

end DcuDaemon.Wfantund
