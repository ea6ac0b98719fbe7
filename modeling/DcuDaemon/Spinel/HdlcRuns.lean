/-
  What the HDLC decoder makes of ANY byte stream (`crates/spinel/src/hdlc.rs`), not only of what the
  encoder writes.

  A stream is a sequence of runs without a flag, each ended by a flag, and a last run that is not ended
  yet. A decoder is back in a state without data at every flag, so what it yields is decided run by run.

  Main result: `decoder_behind`.
-/
import DcuDaemon.Spinel.Hdlc

namespace DcuDaemon.Spinel

open Lib List HdlcDecoder

/-! ## 1. Runs -/

/-- The runs that a flag ends. -/
def runsOf : List UInt8 → List (List UInt8)
  | [] => []
  | b :: stream =>
    if b = flagByte then [] :: runsOf stream
    else
      match runsOf stream with
      | [] => []
      | run :: runs => (b :: run) :: runs

theorem runsOf_of_not_mem {stream : List UInt8} (h : flagByte ∉ stream) : runsOf stream = [] := by
  induction stream with
  | nil => rfl
  | cons b stream ih =>
    obtain ⟨hb, hstream⟩ := ne_and_not_mem_of_not_mem_cons h
    rw [runsOf, if_neg (Ne.symm hb), ih hstream]

variable {run : List UInt8}

theorem runsOf_append (h : flagByte ∉ run) (rest : List UInt8) :
    runsOf (run ++ flagByte :: rest) = run :: runsOf rest := by
  induction run with
  | nil => rw [nil_append, runsOf, if_pos rfl]
  | cons b run ih =>
    obtain ⟨hb, hrun⟩ := ne_and_not_mem_of_not_mem_cons h
    rw [cons_append, runsOf, if_neg (Ne.symm hb), ih hrun]

/-- **A property of streams, run by run.** -/
theorem runs_induction {P : List UInt8 → Prop} (last : ∀ run, flagByte ∉ run → P run)
    (step : ∀ run rest, flagByte ∉ run → P rest → P (run ++ flagByte :: rest))
    (stream : List UInt8) : P stream := by
  induction hn : stream.length using Nat.strongRecOn generalizing stream with
  | _ n ih =>
    by_cases hflag : flagByte ∈ stream
    · -- cut at the first flag
      obtain ⟨run, rest, rfl, hrun⟩ := eq_append_cons_of_mem hflag
      refine step run rest hrun (ih rest.length ?_ rest rfl)
      rw [← hn, length_append, length_cons]
      omega
    · exact last stream hflag

/-! ## 2. Escapes -/

/-- The bytes that a run stands for, and whether an escape byte is open behind it; `esc`: one is open
    before it. -/
def unescapeFrom : Bool → List UInt8 → List UInt8 × Bool
  | esc, [] => ([], esc)
  | true, b :: run =>
    ((b ^^^ escapeXform) :: (unescapeFrom false run).1, (unescapeFrom false run).2)
  | false, b :: run =>
    if b = escapeByte then unescapeFrom true run
    else (b :: (unescapeFrom false run).1, (unescapeFrom false run).2)

/-- The bytes that a run stands for. -/
def content (run : List UInt8) : List UInt8 := (unescapeFrom false run).1

theorem content_of_not_mem (h : escapeByte ∉ run) : content run = run := by
  unfold content
  induction run with
  | nil => rfl
  | cons b run ih =>
    obtain ⟨hb, hrun⟩ := ne_and_not_mem_of_not_mem_cons h
    rw [unescapeFrom, if_neg (Ne.symm hb), ih hrun]

/-- The flag behind the run follows an escape byte. -/
def Aborted (run : List UInt8) : Prop := (unescapeFrom false run).2 = true

instance (run : List UInt8) : Decidable (Aborted run) :=
  inferInstanceAs (Decidable ((unescapeFrom false run).2 = true))

/-- The run is taken for a frame: it has more than a checksum. -/
def Closes (run : List UInt8) : Prop := ¬ Aborted run ∧ 2 < (content run).length

instance (run : List UInt8) : Decidable (Closes run) :=
  inferInstanceAs (Decidable (¬ Aborted run ∧ 2 < (content run).length))

/-- The payload of what was collected, if the checksum behind it is right. -/
def payloadOf (buffer : List UInt8) : Option (List UInt8) :=
  if 2 < buffer.length ∧
      fromLeBytes (buffer.getD (buffer.length - 2) 0) (buffer.getD (buffer.length - 1) 0) =
        crc16 (buffer.take (buffer.length - 2)) then
    some (buffer.take (buffer.length - 2))
  else none

/-! ## 3. The decoder -/

def frameState (esc : Bool) : HdlcState := if esc then .escaped else .receiving

/-- **Inside a frame the decoder collects what a run stands for.** -/
theorem quiet_run (h : flagByte ∉ run) (esc : Bool) (buf : List UInt8) :
    Quiet feedByte ⟨frameState esc, buf⟩ run
      ⟨frameState (unescapeFrom esc run).2, buf ++ (unescapeFrom esc run).1⟩ := by
  induction run generalizing esc buf with
  | nil =>
    rw [unescapeFrom, append_nil]
    exact quiet_nil _
  | cons b run ih =>
    obtain ⟨hb, hrun⟩ := ne_and_not_mem_of_not_mem_cons h
    cases esc with
    | true =>
      have hstep : feedByte ⟨frameState true, buf⟩ b =
          (⟨frameState false, buf ++ [b ^^^ escapeXform]⟩, none) := by
        simp [feedByte, frameState, Ne.symm hb]
      have hrest := ih hrun false (buf ++ [b ^^^ escapeXform])
      rw [append_assoc] at hrest
      exact quiet_cons hstep hrest
    | false =>
      rw [unescapeFrom]
      split
      · rename_i hesc
        have hstep : feedByte ⟨frameState false, buf⟩ b = (⟨frameState true, buf⟩, none) := by
          rw [hesc]
          rfl
        exact quiet_cons hstep (ih hrun true buf)
      · rename_i hesc
        have hstep : feedByte ⟨frameState false, buf⟩ b = (⟨frameState false, buf ++ [b]⟩, none) := by
          simp [feedByte, frameState, Ne.symm hb, hesc]
        have hrest := ih hrun false (buf ++ [b])
        rw [append_assoc] at hrest
        exact quiet_cons hstep hrest

theorem quiet_seeking (h : flagByte ∉ run) : Quiet feedByte ⟨.seekingFlag, []⟩ run ⟨.seekingFlag, []⟩ := by
  induction run with
  | nil => exact quiet_nil _
  | cons b run ih =>
    obtain ⟨hb, hrun⟩ := ne_and_not_mem_of_not_mem_cons h
    refine quiet_cons ?_ (ih hrun)
    simp [feedByte, Ne.symm hb]

/-- The decoder behind a flag: inside a frame or not, without data. -/
def behindFlag : Bool → HdlcDecoder
  | true => ⟨frameState false, []⟩
  | false => HdlcDecoder.new

/-- The decoder inside a frame, behind a run. -/
def inRun (run : List UInt8) : HdlcDecoder := ⟨frameState (unescapeFrom false run).2, content run⟩

theorem quiet_inRun {more : List UInt8} (hrun : flagByte ∉ run) (hmore : flagByte ∉ more) :
    Quiet feedByte (inRun run) more (inRun (run ++ more)) := by
  have hall : flagByte ∉ run ++ more := fun h => (mem_append.mp h).elim hrun hmore
  have hfull : Quiet feedByte (behindFlag true) (run ++ more) (inRun (run ++ more)) :=
    quiet_run hall false []
  have hpart : Quiet feedByte (behindFlag true) run (inRun run) := quiet_run hrun false []
  obtain ⟨dec, hfirst, hsecond⟩ := quiet_split hfull
  rw [quiet_unique hpart hfirst]
  exact hsecond

/-- The flag behind an aborted run or one that is too short: it is dropped, and the decoder stays
    inside a frame. -/
theorem feedByte_open (h : ¬ Closes run) : (inRun run).feedByte flagByte = (behindFlag true, none) := by
  unfold inRun
  by_cases hesc : Aborted run
  · have hstate : (unescapeFrom false run).2 := hesc
    rw [hstate]
    rfl
  · have hstate : (unescapeFrom false run).2 = false := Bool.eq_false_iff.mpr hesc
    have hlen : (content run).length ≤ 2 := Nat.le_of_not_lt fun hlt => h ⟨hesc, hlt⟩
    rw [hstate]
    show endOfFrame ⟨.receiving, content run⟩ = _
    rw [endOfFrame, if_pos hlen]
    rfl

theorem feedByte_close (h : Closes run) :
    ∃ result, (inRun run).feedByte flagByte = (behindFlag false, some result) ∧
      result.toOption = payloadOf (content run) := by
  have hstate : (unescapeFrom false run).2 = false := Bool.eq_false_iff.mpr h.1
  unfold inRun
  rw [hstate]
  show ∃ result, endOfFrame ⟨.receiving, content run⟩ = _ ∧ _
  rw [endOfFrame, if_neg (Nat.not_le.mpr h.2)]
  refine ⟨_, rfl, ?_⟩
  simp only [payloadOf, h.2, true_and]
  split <;> rfl

/-- The payloads of some runs; `inFrame`: the decoder is inside a frame when they begin. -/
def yielded : Bool → List (List UInt8) → List (List UInt8)
  | _, [] => []
  | false, _ :: runs => yielded true runs
  | true, run :: runs =>
    if Closes run then (payloadOf (content run)).toList ++ yielded false runs
    else yielded true runs

/-- **The payloads of a stream, run by run.** -/
theorem filterMap_feedAll (stream : List UInt8) (inFrame : Bool) :
    (feedAll feedByte (behindFlag inFrame) stream).2.filterMap Except.toOption =
      yielded inFrame (runsOf stream) := by
  induction stream using runs_induction generalizing inFrame with
  | last run hrun =>
    have hquiet : (feedAll feedByte (behindFlag inFrame) run).2 = [] := by
      cases inFrame with
      | true => exact congrArg Prod.snd (quiet_run hrun false [])
      | false => exact congrArg Prod.snd (quiet_seeking hrun)
    rw [runsOf_of_not_mem hrun, hquiet]
    rfl
  | step run rest hrun ih =>
    rw [runsOf_append hrun]
    cases inFrame with
    | false =>
      have hquiet : Quiet feedByte (behindFlag false) run new := quiet_seeking hrun
      rw [feedAll_append_of hquiet, feedAll_cons]
      exact ih true
    | true =>
      have hquiet : Quiet feedByte (behindFlag true) run (inRun run) := quiet_run hrun false []
      rw [feedAll_append_of hquiet, feedAll_cons, nil_append, yielded]
      by_cases hcloses : Closes run
      · obtain ⟨result, hflag, hresult⟩ := feedByte_close hcloses
        rw [hflag, if_pos hcloses, filterMap_append, ← hresult, ih false]
        cases result <;> rfl
      · rw [feedByte_open hcloses, if_neg hcloses]
        exact ih true

/-! ## 4. Behind any stream -/

def lastRun : List UInt8 → List UInt8
  | [] => []
  | b :: stream =>
    if flagByte ∈ stream then lastRun stream else if b = flagByte then stream else b :: stream

theorem lastRun_of_not_mem (h : flagByte ∉ run) : lastRun run = run := by
  cases run with
  | nil => rfl
  | cons b run =>
    obtain ⟨hb, hrun⟩ := ne_and_not_mem_of_not_mem_cons h
    rw [lastRun, if_neg hrun, if_neg (Ne.symm hb)]

theorem lastRun_flag (stream rest : List UInt8) : lastRun (stream ++ flagByte :: rest) = lastRun rest := by
  induction stream with
  | nil =>
    rw [nil_append, lastRun]
    split
    · rfl
    · rename_i hrest
      exact (lastRun_of_not_mem hrest).symm
  | cons b stream ih =>
    have hmem : flagByte ∈ stream ++ flagByte :: rest := mem_append_right _ mem_cons_self
    rw [cons_append, lastRun, if_pos hmem, ih]

theorem lastRun_of_mem {rest : List UInt8} (h : flagByte ∈ rest) (stream : List UInt8) :
    lastRun (stream ++ rest) = lastRun rest := by
  obtain ⟨a, b, rfl⟩ := append_of_mem h
  rw [← append_assoc, lastRun_flag, lastRun_flag]

theorem lastRun_append (stream rest : List UInt8) :
    lastRun (lastRun stream ++ rest) = lastRun (stream ++ rest) := by
  induction stream using runs_induction with
  | last run hrun => rw [lastRun_of_not_mem hrun]
  | step run stream hrun ih => rw [lastRun_flag, ih, append_assoc, cons_append, lastRun_flag]

theorem flag_not_mem_lastRun (stream : List UInt8) : flagByte ∉ lastRun stream := by
  induction stream using runs_induction with
  | last run hrun =>
    rw [lastRun_of_not_mem hrun]
    exact hrun
  | step run stream hrun ih =>
    rw [lastRun_flag]
    exact ih

/-- **The decoder behind any stream** is a fresh one or inside a frame, with the content of the last
    run. -/
theorem decoder_behind (stream : List UInt8) (inFrame : Bool) :
    (feedAll feedByte (behindFlag inFrame) stream).1 = new ∨
      (feedAll feedByte (behindFlag inFrame) stream).1 = inRun (lastRun stream) := by
  induction stream using runs_induction generalizing inFrame with
  | last run hrun =>
    cases inFrame with
    | true =>
      right
      rw [lastRun_of_not_mem hrun]
      exact congrArg Prod.fst (quiet_run hrun false [])
    | false => exact .inl (congrArg Prod.fst (quiet_seeking hrun))
  | step run rest hrun ih =>
    rw [lastRun_flag]
    cases inFrame with
    | true =>
      have hquiet : Quiet feedByte (behindFlag true) run (inRun run) := quiet_run hrun false []
      rw [feedAll_append_of hquiet, feedAll_cons]
      by_cases hcloses : Closes run
      · obtain ⟨result, hflag, _⟩ := feedByte_close hcloses
        rw [hflag]
        exact ih false
      · rw [feedByte_open hcloses]
        exact ih true
    | false =>
      have hquiet : Quiet feedByte (behindFlag false) run (behindFlag false) := quiet_seeking hrun
      rw [feedAll_append_of hquiet]
      exact ih true

/-- An encoding from behind a flag up to its closing flag, inside a frame or not. -/
theorem quiet_opened (inFrame : Bool) (data : List UInt8) :
    Quiet feedByte (behindFlag inFrame) (flagByte :: body data)
      ⟨.receiving, data ++ toLeBytes (crc16 data)⟩ := by
  have hopen : (behindFlag inFrame).feedByte flagByte = (⟨.receiving, []⟩, none) := by
    cases inFrame <;> rfl
  exact quiet_cons hopen (quiet_escapeBytes [] _)

theorem feedAll_opened (inFrame : Bool) {p1 : List UInt8} (h1 : p1 ≠ []) (p2 : List UInt8) :
    feedAll feedByte (behindFlag inFrame) (flagByte :: (body p1 ++ [flagByte]) ++ flagByte :: body p2) =
      (⟨.receiving, p2 ++ toLeBytes (crc16 p2)⟩, [.ok p1]) := by
  have hclose : feedByte ⟨.receiving, p1 ++ toLeBytes (crc16 p1)⟩ flagByte =
      (behindFlag false, some (.ok p1)) := endOfFrame_payload h1
  rw [← cons_append, append_assoc, feedAll_append_of (quiet_opened inFrame p1),
    singleton_append, feedAll_cons, hclose, quiet_opened false p2]
  rfl

/-- From outside a frame and without its opening flag, the first payload is skipped. -/
theorem feedAll_missed (p1 p2 : List UInt8) :
    feedAll feedByte (behindFlag false) (body p1 ++ [flagByte] ++ flagByte :: body p2) =
      (⟨.receiving, p2 ++ toLeBytes (crc16 p2)⟩, []) := by
  have hskip : Quiet feedByte (behindFlag false) (body p1) (behindFlag false) :=
    quiet_seeking (flag_not_mem_body p1)
  have hopen : Quiet feedByte (behindFlag false) [flagByte] (behindFlag true) := rfl
  exact quiet_append (quiet_append hskip hopen) (quiet_opened true p2)

/-- **Resynchronisation.** Behind any stream the encodings of two payloads yield the second one. Before that
    there is the first alone, or alone what the very first flag yields as the end of a frame of the stream. -/
theorem hdlc_resync (noise p1 p2 : List UInt8) (h1 : p1 ≠ []) (h2 : p2 ≠ []) : ∃ front last dec outs,
      (HdlcEncoder.new.encodeBytes p1).1 ++ (HdlcEncoder.new.encodeBytes p2).1 = front ++ [last] ∧
      feedAll HdlcDecoder.feedByte (feedAll HdlcDecoder.feedByte HdlcDecoder.new noise).1 front =
        (dec, outs) ∧ dec.feedByte last = (HdlcDecoder.new, some (.ok p2)) ∧ (outs = [.ok p1] ∨ ∃ begun,
        ((feedAll HdlcDecoder.feedByte HdlcDecoder.new noise).1.feedByte flagByte).2 = some begun ∧
        outs = [begun]) := by
  have hwire : (HdlcEncoder.new.encodeBytes p1).1 ++ (HdlcEncoder.new.encodeBytes p2).1 =
      (flagByte :: (body p1 ++ [flagByte]) ++ flagByte :: body p2) ++ [flagByte] := by
    rw [encodeBytes_new, encodeBytes_new, append_assoc]
    rfl
  have hlast : feedByte ⟨.receiving, p2 ++ toLeBytes (crc16 p2)⟩ flagByte =
      (new, some (.ok p2)) := endOfFrame_payload h2
  have hfresh : behindFlag false = new := rfl
  rcases decoder_behind noise false with hdec | hdec <;> rw [hfresh] at hdec <;> rw [hdec]
  · exact ⟨_, _, _, _, hwire, feedAll_opened false h1 p2, hlast, .inl rfl⟩
  · by_cases hcloses : Closes (lastRun noise)
    · -- the opening flag of the first encoding ends the frame of the stream
      obtain ⟨begun, hflag, _⟩ := feedByte_close hcloses
      have hfront : feedAll feedByte (inRun (lastRun noise))
          (flagByte :: (body p1 ++ [flagByte]) ++ flagByte :: body p2) =
            (⟨.receiving, p2 ++ toLeBytes (crc16 p2)⟩, [begun]) := by
        rw [cons_append, feedAll_cons, hflag, feedAll_missed]
        rfl
      exact ⟨_, _, _, _, hwire, hfront, hlast, .inr ⟨begun, congrArg Prod.snd hflag, rfl⟩⟩
    · -- it drops what the stream began
      have hfront : feedAll feedByte (inRun (lastRun noise))
          (flagByte :: (body p1 ++ [flagByte]) ++ flagByte :: body p2) =
            (⟨.receiving, p2 ++ toLeBytes (crc16 p2)⟩, [.ok p1]) := by
        rw [← feedAll_opened false h1 p2, cons_append, feedAll_cons, feedByte_open hcloses]
        rfl
      exact ⟨_, _, _, _, hwire, hfront, hlast, .inl rfl⟩

/-- A stream that breaks off inside a frame: its garbage is ended by the first flag. -/
theorem hdlc_resync_garbage : ∃ front last dec outs,
      (HdlcEncoder.new.encodeBytes [0x7E]).1 ++ (HdlcEncoder.new.encodeBytes [0x42]).1 =
        front ++ [last] ∧ feedAll HdlcDecoder.feedByte
          (feedAll HdlcDecoder.feedByte HdlcDecoder.new [0x00, 0x7E, 0x01, 0x02, 0x03]).1 front =
        (dec, outs) ∧ dec.feedByte last = (HdlcDecoder.new, some (.ok [0x42])) ∧
      (outs = [.ok [0x7E]] ∨ ∃ begun,
        ((feedAll HdlcDecoder.feedByte HdlcDecoder.new [0x00, 0x7E, 0x01, 0x02, 0x03]).1.feedByte
          flagByte).2 = some begun ∧ outs = [begun]) :=
  hdlc_resync [0x00, 0x7E, 0x01, 0x02, 0x03] [0x7E] [0x42] (by decide) (by decide)

end DcuDaemon.Spinel
