/-
  How much a `FramedTransport` retains between its reads (`crates/dcu-serial/src/framing.rs`,
  `MAX_FRAME_SIZE`).

  The growth guard of `recv_frame` looks at the read buffer, which is used up before every read; the
  bytes of an unfinished frame are in the decoder's own buffer, which nothing bounds.

  Main result: `retained_le_iff`.
-/
import DcuDaemon.Serial.Framing
import DcuDaemon.Spinel.HdlcRuns

namespace DcuDaemon.Serial

open Lib Spinel List HdlcDecoder

/-! ## 1. What is held between reads -/

/-- The transport at each `read` that one call makes; the loop is that of `recvLoop`. -/
def recvHeld (decoder : HdlcDecoder) (pending : List UInt8) (inner : List ReadResult) :
    List FramedTransport :=
  match feedUntil HdlcDecoder.feedByte decoder pending with
  | (_, some _) => []
  | (decoder, none) =>
    let readBuf : List UInt8 := []
    ⟨inner, decoder, readBuf⟩ ::
      match inner with
      | [] => []
      | .ioError :: _ => []
      | .bytes chunk :: inner =>
        if chunk.val.length = 0 then []
        else if readBuf.length + chunk.val.length > maxFrameSize then recvHeld .new chunk.val inner
        else recvHeld decoder (readBuf ++ chunk.val) inner

/-- The transports at the reads of `k` successive calls, and between the calls. -/
def FramedTransport.held : Nat → FramedTransport → List FramedTransport
  | 0, t => [t]
  | k + 1, t => t :: recvHeld t.decoder t.readBuf t.inner ++ t.recvFrame.2.held k

/-- The read buffer and the decoder's frame buffer. -/
def FramedTransport.retained (t : FramedTransport) : Nat := t.readBuf.length + t.decoder.buffer.length

def bytesOf : List ReadResult → List UInt8
  | [] => []
  | .ioError :: inner => bytesOf inner
  | .bytes chunk :: inner => chunk.val ++ bytesOf inner

/-- The bytes that were read, of those that `inner` gives, when `t` has the rest still to come. -/
def readSoFar (inner : List ReadResult) (t : FramedTransport) : List UInt8 :=
  bytesOf (inner.take (inner.length - t.inner.length))

theorem bytesOf_append (a b : List ReadResult) : bytesOf (a ++ b) = bytesOf a ++ bytesOf b := by
  induction a with
  | nil => rfl
  | cons r a ih =>
    cases r with
    | ioError => exact ih
    | bytes chunk => rw [cons_append, bytesOf, bytesOf, ih, append_assoc]

variable {inner before : List ReadResult} {t : FramedTransport} {seen readBuf pending : List UInt8}
  {decoder decoder' : HdlcDecoder} {b : UInt8} {r : Except SpinelError (List UInt8)}

theorem readSoFar_eq (h : inner = before ++ t.inner) : readSoFar inner t = bytesOf before := by
  rw [readSoFar, h, length_append, Nat.add_sub_cancel, take_left]

/-! ## 2. The unfinished frame -/

/-- A decoder and the bytes that it is to be fed next: it is fresh, or holds the content of the run they
    continue. -/
def Unfinished (seen : List UInt8) (decoder : HdlcDecoder) (pending : List UInt8) : Prop :=
  pending.length ≤ readSize ∧
    (decoder = .new ∧ pending <:+ seen ∨
      ∃ before, seen = before ++ pending ∧ decoder = inRun (lastRun before))

/-- The same between reads: what is put back is put back behind a frame only. -/
def Idle (seen : List UInt8) (decoder : HdlcDecoder) (readBuf : List UInt8) : Prop :=
  decoder = .new ∧ readBuf <:+ seen ∧ readBuf.length ≤ readSize ∨
    decoder = inRun (lastRun seen) ∧ readBuf = []

theorem Idle.unfinished (h : Idle seen decoder readBuf) : Unfinished seen decoder readBuf := by
  rcases h with ⟨hnew, hsuffix, hlen⟩ | ⟨hrun, rfl⟩
  · exact ⟨hlen, .inl ⟨hnew, hsuffix⟩⟩
  · exact ⟨Nat.zero_le _, .inr ⟨seen, (append_nil seen).symm, hrun⟩⟩

theorem idle_nil (h : decoder = .new ∨ decoder = inRun (lastRun seen)) : Idle seen decoder [] := by
  rcases h with h | h
  · exact .inl ⟨h, nil_suffix, Nat.zero_le _⟩
  · exact .inr ⟨h, rfl⟩

theorem feedByte_yield (h : decoder.feedByte b = (decoder', some r)) : decoder' = .new := by
  unfold feedByte at h
  split at h
  · cases h
  · split at h
    · unfold endOfFrame at h
      split at h
      · cases h
      · exact (congrArg Prod.fst h).symm
    · split at h <;> cases h
  · split at h <;> cases h

theorem feedUntil_yield
    (h : feedUntil feedByte decoder pending = (decoder', some r)) : decoder' = .new := by
  induction pending generalizing decoder with
  | nil => cases h
  | cons b pending ih =>
    rw [feedUntil] at h
    split at h
    · rename_i hb
      obtain ⟨rfl, _⟩ := Prod.mk.inj h
      exact feedByte_yield hb
    · exact ih h

/-- **A scan that finds nothing** leaves a fresh decoder, or the content of the run that is open at
    the end. -/
theorem Unfinished.quiet (h : Unfinished seen decoder pending)
    (hq : Quiet feedByte decoder pending decoder') :
    decoder' = .new ∨ decoder' = inRun (lastRun seen) := by
  rcases h.2 with ⟨rfl, front, rfl⟩ | ⟨before, rfl, rfl⟩
  · by_cases hflag : flagByte ∈ pending
    · rw [lastRun_of_mem hflag]
      have hbehind := decoder_behind pending false
      rw [show behindFlag false = .new from rfl, hq] at hbehind
      exact hbehind
    · exact .inl (quiet_unique hq (quiet_seeking hflag))
  · -- the decoder got here from behind a flag, by the run
    have hrun : Quiet feedByte (behindFlag true) (lastRun before)
        (inRun (lastRun before)) := quiet_run (flag_not_mem_lastRun before) false []
    have hall : feedAll feedByte (behindFlag true) (lastRun before ++ pending) =
        (decoder', []) := quiet_append hrun hq
    have hbehind := decoder_behind (lastRun before ++ pending) true
    rw [hall, lastRun_append] at hbehind
    exact hbehind

theorem Unfinished.yield (h : Unfinished seen decoder pending)
    (hr : feedUntil feedByte decoder pending = (decoder', some r)) :
    Idle seen decoder' (leftover pending r) := by
  have hsuffix : pending <:+ seen := by
    rcases h.2 with ⟨_, hs⟩ | ⟨before, hs, _⟩
    · exact hs
    · exact ⟨before, hs.symm⟩
  have hleft : leftover pending r <:+ pending := by
    cases r with
    | error e => exact nil_suffix
    | ok d => exact tail_suffix pending
  exact .inl ⟨feedUntil_yield hr, hleft.trans hsuffix, Nat.le_trans hleft.length_le h.1⟩

theorem unfinished_read (h : decoder = .new ∨ decoder = inRun (lastRun seen)) (c : Chunk) :
    Unfinished (seen ++ c.val) decoder c.val := by
  refine ⟨c.property, ?_⟩
  rcases h with h | h
  · exact .inl ⟨h, suffix_append _ _⟩
  · exact .inr ⟨seen, rfl, h⟩

/-! ## 3. All calls -/

/-- The transport `t` is held when `seen` and then some of the reads `inner` came. -/
def HeldAt (seen : List UInt8) (inner : List ReadResult) (t : FramedTransport) : Prop :=
  ∃ before, inner = before ++ t.inner ∧ Idle (seen ++ bytesOf before) t.decoder t.readBuf

theorem heldAt_here (h : Idle seen decoder readBuf) : HeldAt seen inner ⟨inner, decoder, readBuf⟩ := by
  refine ⟨[], rfl, ?_⟩
  rw [bytesOf, append_nil]
  exact h

theorem HeldAt.behind (h : HeldAt (seen ++ bytesOf before) inner t) : HeldAt seen (before ++ inner) t := by
  obtain ⟨more, rfl, hu⟩ := h
  refine ⟨before ++ more, (append_assoc _ _ _).symm, ?_⟩
  rw [bytesOf_append, ← append_assoc]
  exact hu

theorem recvHeld_yield (inner : List ReadResult)
    (h : feedUntil feedByte decoder pending = (decoder', some r)) :
    recvHeld decoder pending inner = [] := by
  unfold recvHeld
  rw [h]

theorem recvHeld_read (h : Quiet feedByte decoder pending decoder') (c : Chunk) (hc : c.val ≠ [])
    (inner : List ReadResult) : recvHeld decoder pending (.bytes c :: inner) =
      ⟨.bytes c :: inner, decoder', []⟩ :: recvHeld decoder' c.val inner := by
  have hlen : ¬ c.val.length = 0 := fun e => hc (length_eq_zero_iff.mp e)
  have hmax : ¬ ([] : List UInt8).length + c.val.length > maxFrameSize := by
    have h256 : c.val.length ≤ 256 := c.property
    show ¬ 0 + c.val.length > 4096
    omega
  rw [recvHeld, feedUntil_quiet h]
  simp only [if_neg hlen, if_neg hmax, nil_append]

/-- **One call**: all that it holds at its reads, and what it leaves behind. -/
theorem call_heldAt (inner : List ReadResult) (h : Unfinished seen decoder pending) :
    (∀ t ∈ recvHeld decoder pending inner, HeldAt seen inner t) ∧
      HeldAt seen inner (recvLoop decoder pending inner).2 := by
  induction inner generalizing seen pending decoder with
  | nil =>
    rcases hf : feedUntil feedByte decoder pending with ⟨decoder', _ | r⟩
    · have hopen := idle_nil (h.quiet (quiet_of_feedUntil hf))
      rw [recvHeld, recvLoop, hf]
      exact ⟨forall_mem_singleton.mpr (heldAt_here hopen), heldAt_here hopen⟩
    · rw [recvHeld_yield _ hf, recvLoop_yield _ hf]
      exact ⟨fun _ ht => absurd ht not_mem_nil, heldAt_here (h.yield hf)⟩
  | cons read inner ih =>
    rcases hf : feedUntil feedByte decoder pending with ⟨decoder', _ | r⟩
    · have hq := quiet_of_feedUntil hf
      have hopen := h.quiet hq
      cases read with
      | ioError =>
        have hlater : HeldAt seen (.ioError :: inner) ⟨inner, decoder', []⟩ :=
          ⟨[.ioError], rfl, by rw [bytesOf, bytesOf, append_nil]; exact idle_nil hopen⟩
        rw [recvHeld, recvLoop, hf]
        exact ⟨forall_mem_singleton.mpr (heldAt_here (idle_nil hopen)), hlater⟩
      | bytes c =>
        by_cases hc : c.val = []
        · have hlater : HeldAt seen (.bytes c :: inner) ⟨inner, decoder', []⟩ := ⟨[.bytes c], rfl, by
              rw [bytesOf, bytesOf, hc, append_nil, append_nil]
              exact idle_nil hopen⟩
          have hlen : c.val.length = 0 := length_eq_zero_iff.mpr hc
          rw [recvHeld, recvLoop, hf]
          simp only [if_pos hlen]
          exact ⟨forall_mem_singleton.mpr (heldAt_here (idle_nil hopen)), hlater⟩
        · obtain ⟨hheld, hleft⟩ := ih (unfinished_read hopen c)
          have hseen : seen ++ c.val = seen ++ bytesOf [.bytes c] := by
            rw [bytesOf, bytesOf, append_nil]
          rw [hseen] at hheld hleft
          rw [recvHeld_read hq c hc, recvLoop_read hq c hc]
          refine ⟨forall_mem_cons.mpr ⟨heldAt_here (idle_nil hopen), ?_⟩, hleft.behind⟩
          exact fun t ht => (hheld t ht).behind
    · rw [recvHeld_yield _ hf, recvLoop_yield _ hf]
      exact ⟨fun _ ht => absurd ht not_mem_nil, heldAt_here (h.yield hf)⟩

/-- **All calls.** -/
theorem held_heldAt (k : Nat)
    (h : Idle seen t.decoder t.readBuf) : ∀ u ∈ t.held k, HeldAt seen t.inner u := by
  induction k generalizing seen t with
  | zero => exact forall_mem_singleton.mpr (heldAt_here h)
  | succ k ih =>
    obtain ⟨hheld, before, hinner, hleft⟩ := call_heldAt t.inner h.unfinished
    intro u hu
    rcases mem_append.mp hu with hu | hu
    · rcases mem_cons.mp hu with rfl | hu
      · exact heldAt_here h
      · exact hheld u hu
    · rw [hinner]
      exact (ih hleft u hu).behind

/-! ## 4. The bound -/

theorem state_inRun (run : List UInt8) : (inRun run).state ≠ .seekingFlag := by
  unfold inRun frameState
  split <;> simp

theorem retained_inRun (inner : List ReadResult) (run : List UInt8) :
    FramedTransport.retained ⟨inner, inRun run, []⟩ = (content run).length := Nat.zero_add _

theorem Idle.bounded_iff (h : Idle seen t.decoder t.readBuf) : t.retained ≤ maxFrameSize ↔
      (t.decoder.state ≠ .seekingFlag → (content (lastRun seen)).length ≤ maxFrameSize) := by
  unfold FramedTransport.retained
  rcases h with ⟨hnew, _, hlen⟩ | ⟨hrun, hbuf⟩
  · have hle : t.readBuf.length ≤ 256 := hlen
    rw [hnew]
    refine ⟨fun _ hne => absurd rfl hne, fun _ => ?_⟩
    show t.readBuf.length + 0 ≤ 4096
    omega
  · have hsize := retained_inRun t.inner (lastRun seen)
    rw [FramedTransport.retained] at hsize
    rw [hrun, hbuf, hsize]
    exact ⟨fun hle _ => hle, fun hle => hle (state_inRun _)⟩

/-- **When the retained bytes stay within `MAX_FRAME_SIZE`**: if and only if, inside a frame, the bytes read
    since the last flag stand for at most `MAX_FRAME_SIZE` bytes. -/
theorem retained_le_iff (inner : List ReadResult) :
    (∀ k, ∀ t ∈ (FramedTransport.new inner).held k, t.retained ≤ maxFrameSize) ↔
      ∀ k, ∀ t ∈ (FramedTransport.new inner).held k, t.decoder.state ≠ .seekingFlag →
        (content (lastRun (readSoFar inner t))).length ≤ maxFrameSize := by
  have hstart : Idle [] (FramedTransport.new inner).decoder (FramedTransport.new inner).readBuf :=
    idle_nil (.inl rfl)
  refine forall_congr' fun k => forall₂_congr fun t ht => ?_
  obtain ⟨before, hinner, hidle⟩ := held_heldAt k hstart t ht
  have hseen : readSoFar inner t = bytesOf before := readSoFar_eq hinner
  rw [nil_append, ← hseen] at hidle
  exact hidle.bounded_iff

/-! ## 5. A stream without a closing flag -/

theorem mem_recvHeld_of_noFlag (reads : List Chunk)
    (hreads : ∀ c ∈ reads, c.val ≠ [] ∧ flagByte ∉ c.val) {run : List UInt8}
    (hrun : flagByte ∉ run) (hpending : flagByte ∉ pending) :
    ⟨[], inRun (run ++ pending ++ (reads.map (·.val)).flatten), []⟩ ∈
      recvHeld (inRun run) pending (reads.map .bytes) := by
  have hquiet := quiet_inRun hrun hpending
  induction reads generalizing run pending with
  | nil =>
    rw [map_nil, map_nil, flatten_nil, append_nil, recvHeld, feedUntil_quiet hquiet]
    exact mem_cons_self
  | cons c reads ih =>
    obtain ⟨hne, hflag⟩ := hreads c mem_cons_self
    have hall : flagByte ∉ run ++ pending := fun h => (mem_append.mp h).elim hrun hpending
    rw [map_cons, map_cons, flatten_cons, recvHeld_read hquiet c hne, ← append_assoc]
    exact mem_cons_of_mem _
      (ih (fun x hx => hreads x (mem_cons_of_mem _ hx)) hall hflag (quiet_inRun hall hflag))

def zeros : Chunk := ⟨List.replicate 256 0, Nat.le_of_eq List.length_replicate⟩

/-- An opening flag, and then only zeros. -/
def openFrame : List ReadResult :=
  .bytes ⟨[flagByte], by decide⟩ :: .bytes zeros :: (List.replicate 16 zeros).map .bytes

theorem not_mem_zeros (h : b ≠ 0) : b ∉ zeros.val := fun hb => h (eq_of_mem_replicate hb)

theorem zeros_flatten :
    [] ++ zeros.val ++ ((replicate 16 zeros).map (·.val)).flatten = replicate 4352 0 := by
  have hval : zeros.val = replicate 256 0 := rfl
  rw [map_replicate, hval, flatten_replicate_replicate, nil_append, replicate_append_replicate]

/-- **A frame that is not closed**: during the first call the decoder alone has collected 4352
    bytes. -/
theorem retained_exceeds : ∃ t ∈ (FramedTransport.new openFrame).held 1, maxFrameSize < t.retained := by
  have hreads : ∀ c ∈ replicate 16 zeros, c.val ≠ [] ∧ flagByte ∉ c.val := by
    intro c hc
    rw [eq_of_mem_replicate hc]
    exact ⟨cons_ne_nil _ _, not_mem_zeros (by decide)⟩
  have hopen : Quiet feedByte .new [flagByte] (inRun []) := rfl
  have hmem : ⟨[], inRun (replicate 4352 0), []⟩ ∈ recvHeld .new [] openFrame := by
    rw [openFrame, recvHeld_read (quiet_nil _) _ (cons_ne_nil _ _),
      recvHeld_read hopen zeros (cons_ne_nil _ _), ← zeros_flatten]
    exact mem_cons_of_mem _ (mem_cons_of_mem _ (mem_recvHeld_of_noFlag _ hreads
      not_mem_nil (not_mem_zeros (by decide))))
  have hcontent : (content (replicate 4352 0)).length = 4352 := by
    rw [content_of_not_mem fun h => absurd (eq_of_mem_replicate h) (by decide), length_replicate]
  refine ⟨_, mem_append_left _ (mem_cons_of_mem _ hmem), ?_⟩
  rw [retained_inRun, hcontent]
  decide

end DcuDaemon.Serial
