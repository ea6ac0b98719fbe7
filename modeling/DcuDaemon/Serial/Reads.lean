/-
  What `recv_frame` takes out of one read, for a stream of HDLC frames whose checksums may be right or
  wrong.

  A frame is given by its content, data and checksum; the decoder answers it with the data or with an
  error (`answer`). After an answer `recv_frame` puts back the buffer without its first byte, and after
  an error it drops the buffer.

  Main results: `drain_putBack`, `drain_read`.
-/
import DcuDaemon.Serial.Framing
import DcuDaemon.Spinel.HdlcRuns

namespace DcuDaemon.Serial

open Lib Spinel List HdlcDecoder

/-! ## 1. One frame, entered at any place -/

def frameWire (content : List UInt8) : List UInt8 := flagByte :: (escapeBytes content ++ [flagByte])

/-- What the decoder answers at the closing flag. -/
def answer (content : List UInt8) : Except SpinelError (List UInt8) :=
  if fromLeBytes (content.getD (content.length - 2) 0) (content.getD (content.length - 1) 0) =
      crc16 (content.take (content.length - 2)) then
    .ok (content.take (content.length - 2))
  else .error .crcMismatch

variable {content u pre suf h : List UInt8} {decoder : HdlcDecoder}

theorem endOfFrame_answer (h : 2 < content.length) :
    endOfFrame ⟨.receiving, content⟩ = (.new, some (answer content)) := by
  rw [endOfFrame, if_neg (Nat.not_le.mpr h)]
  rfl

theorem answer_append (data : List UInt8) (checksum : UInt16) :
    answer (data ++ toLeBytes checksum) =
      if checksum = crc16 data then .ok data else .error .crcMismatch := by
  have hlen : (data ++ toLeBytes checksum).length = data.length + 2 := length_append
  have hlo : (data ++ toLeBytes checksum).getD data.length 0 = checksum.toUInt8 := by
    simp [toLeBytes]
  have hhi : (data ++ toLeBytes checksum).getD (data.length + 1) 0 = (checksum >>> 8).toUInt8 := by
    simp [toLeBytes]
  unfold answer
  rw [hlen, Nat.add_sub_cancel, show data.length + 2 - 1 = data.length + 1 from rfl, take_left,
    hlo, hhi, fromLeBytes_toLeBytes]

/-- The decoder after the part `pre` of an encoding; one flag too many does no harm. -/
def Ready (decoder : HdlcDecoder) (pre : List UInt8) : Prop :=
  Quiet HdlcDecoder.feedByte .new pre decoder ∨ (pre = [] ∧ decoder = ⟨.receiving, []⟩)

section Ready

variable {decoder : HdlcDecoder} {pre content : List UInt8}

theorem ready_new : Ready .new [] := .inl (quiet_nil _)

theorem quiet_opening {dec : HdlcDecoder} (h : dec = .new ∨ dec = ⟨.receiving, []⟩)
    {bs : List UInt8} {dec' : HdlcDecoder} (hq : Quiet feedByte ⟨.receiving, []⟩ bs dec') :
    Quiet feedByte dec (flagByte :: bs) dec' := by
  rcases h with rfl | rfl
  · exact quiet_cons rfl hq
  · exact quiet_cons rfl hq

variable {suf : List UInt8}

theorem ready_rest (h : Ready decoder pre) (hd : flagByte :: escapeBytes content = pre ++ suf) :
    Quiet feedByte decoder suf ⟨.receiving, content⟩ := by
  have hbody : Quiet feedByte ⟨.receiving, []⟩ (escapeBytes content)
      ⟨.receiving, content⟩ := quiet_escapeBytes [] _
  rcases h with h | ⟨rfl, rfl⟩
  · have hall := quiet_opening (.inl rfl) hbody
    rw [hd] at hall
    obtain ⟨s, hpre, hsuf⟩ := quiet_split hall
    rw [quiet_unique h hpre]
    exact hsuf
  · rw [nil_append] at hd
    rw [← hd]
    exact quiet_opening (.inr rfl) hbody

theorem frameWire_split (hd : frameWire content = pre ++ suf) (hsuf : suf ≠ []) :
    ∃ suf', suf = suf' ++ [flagByte] ∧ flagByte :: escapeBytes content = pre ++ suf' := by
  obtain ⟨suf', b, rfl⟩ := (eq_nil_or_concat suf).resolve_left hsuf
  rw [concat_eq_append, ← append_assoc] at hd
  have hd' : (flagByte :: escapeBytes content) ++ [flagByte] = (pre ++ suf') ++ [b] := hd
  obtain ⟨hbody, hb⟩ := append_inj' hd' rfl
  obtain rfl := singleton_inj.mp hb
  exact ⟨suf', concat_eq_append, hbody⟩

/-- **The rest of a frame yields its answer**, and leaves a fresh decoder. -/
theorem ready_close (h : Ready decoder pre)
    (hd : frameWire content = pre ++ suf) (hsuf : suf ≠ []) (hlong : 2 < content.length) (y : List UInt8) :
    feedUntil feedByte decoder (suf ++ y) = (.new, some (answer content)) := by
  obtain ⟨suf', rfl, hbody⟩ := frameWire_split hd hsuf
  rw [append_assoc, feedUntil_append_quiet (ready_rest h hbody), singleton_append, feedUntil]
  have hs : feedByte ⟨.receiving, content⟩ flagByte =
      (new, some (answer content)) := endOfFrame_answer hlong
  rw [hs]

/-- **A further part of a frame yields nothing** and keeps the decoder in step with it. -/
theorem ready_extend {a b : List UInt8} (h : Ready decoder pre)
    (hd : frameWire content = pre ++ (a ++ b)) (hb : b ≠ []) :
    ∃ decoder', Quiet feedByte decoder a decoder' ∧ Ready decoder' (pre ++ a) := by
  rw [← append_assoc] at hd
  obtain ⟨b', rfl, hbody⟩ := frameWire_split hd hb
  rw [append_assoc] at hbody
  obtain ⟨decoder', hq, _⟩ := quiet_split (ready_rest h hbody)
  refine ⟨decoder', hq, ?_⟩
  rcases h with h | ⟨rfl, rfl⟩
  · exact .inl (quiet_append h hq)
  · cases a with
    | nil => exact .inr ⟨rfl, (quiet_unique (quiet_nil _) hq).symm⟩
    | cons x a =>
      obtain ⟨rfl, _⟩ := cons.inj hbody
      exact .inl hq

end Ready

/-- The end of an encoding whose opening flag is gone. -/
def ClosingPart (u : List UInt8) : Prop := u = [] ∨ ∃ x, u = x ++ [flagByte] ∧ flagByte ∉ x

theorem closingPart_tail (h : ClosingPart u) : ClosingPart u.tail := by
  rcases h with rfl | ⟨x, rfl, hx⟩
  · exact .inl rfl
  · cases x with
    | nil => exact .inl rfl
    | cons b x => exact .inr ⟨x, rfl, fun h => hx (mem_cons_of_mem _ h)⟩

theorem closingPart_entered (hd : frameWire content = pre ++ suf) (hpre : pre ≠ []) : ClosingPart suf := by
  by_cases hsuf : suf = []
  · exact .inl hsuf
  · obtain ⟨suf', rfl, hbody⟩ := frameWire_split hd hsuf
    obtain ⟨b, pre, rfl⟩ := exists_cons_of_ne_nil hpre
    obtain ⟨_, hb⟩ := cons.inj hbody
    refine .inr ⟨suf', rfl, fun h => flag_not_mem_escapeBytes content ?_⟩
    rw [hb]
    exact mem_append_right _ h

/-- Behind its first byte a frame has one flag, the closing one, wherever it is entered. -/
theorem closingPart_frame (hd : frameWire content = pre ++ suf) : ClosingPart suf.tail := by
  cases pre with
  | nil =>
    rw [nil_append] at hd
    rw [← hd]
    exact .inr ⟨escapeBytes content, rfl, flag_not_mem_escapeBytes content⟩
  | cons b pre => exact closingPart_tail (closingPart_entered hd (cons_ne_nil _ _))

theorem quiet_closingPart (h : ClosingPart u) :
    ∃ decoder, Quiet feedByte .new u decoder ∧ Ready decoder [] := by
  rcases h with rfl | ⟨x, rfl, hx⟩
  · exact ⟨.new, quiet_nil _, ready_new⟩
  · exact ⟨⟨.receiving, []⟩, quiet_append (quiet_seeking hx) rfl, .inr ⟨rfl, rfl⟩⟩

/-! ## 2. Several frames -/

def frameStream (contents : List (List UInt8)) : List UInt8 := contents.flatMap frameWire

theorem frameStream_cons (c : List UInt8) (cs : List (List UInt8)) :
    frameStream (c :: cs) = frameWire c ++ frameStream cs := flatMap_cons

/-- The part `h` of the first of some frames; nothing when there is none. -/
def PartIn (h : List UInt8) : List (List UInt8) → Prop
  | [] => h = []
  | c :: _ => ∃ suf, suf ≠ [] ∧ frameWire c = h ++ suf

theorem quiet_partIn {cs : List (List UInt8)} (hr : Ready decoder []) (hp : PartIn h cs) :
    ∃ decoder', Quiet feedByte decoder h decoder' ∧ Ready decoder' h := by
  cases cs with
  | nil =>
    cases hp
    exact ⟨decoder, quiet_nil _, hr⟩
  | cons c cs =>
    obtain ⟨suf, hsuf, hd⟩ := hp
    exact ready_extend hr hd hsuf

theorem frameStream_cut (cs : List (List UInt8)) {c r : List UInt8} (h : c ++ r = frameStream cs) :
    ∃ full rest p, cs = full ++ rest ∧ c = frameStream full ++ p ∧ p ++ r = frameStream rest ∧
      PartIn p rest := by
  induction cs generalizing c with
  | nil =>
    obtain ⟨rfl, rfl⟩ := append_eq_nil_iff.mp h
    exact ⟨[], [], [], rfl, rfl, rfl, rfl⟩
  | cons d cs ih =>
    rw [frameStream_cons] at h
    by_cases hlt : c.length < (frameWire d).length
    · refine ⟨[], d :: cs, c, rfl, rfl, h, ?_⟩
      obtain ⟨suf, hd, _⟩ | ⟨cs, hcs, _⟩ := append_eq_append_iff.mp h
      · refine ⟨suf, fun e => ?_, hd⟩
        rw [hd, e, append_nil] at hlt
        exact Nat.lt_irrefl _ hlt
      · rw [hcs, length_append] at hlt
        omega
    · have hc : c = frameWire d ++ c.drop (frameWire d).length := by
        have htake := congrArg (List.take (frameWire d).length) h
        rw [take_append_of_le_length (Nat.le_of_not_lt hlt), take_left] at htake
        calc c = c.take (frameWire d).length ++ c.drop (frameWire d).length :=
              (take_append_drop _ _).symm
          _ = frameWire d ++ c.drop (frameWire d).length := by rw [htake]
      rw [hc, append_assoc, append_cancel_left_eq] at h
      obtain ⟨full, rest, p, rfl, hcut, hr, hp⟩ := ih h
      refine ⟨d :: full, rest, p, rfl, ?_, hr, hp⟩
      rw [frameStream_cons, append_assoc, ← hcut]
      exact hc

/-! ## 3. One read -/

/-- What counts of a frame: its bytes on the wire, whether it is answered with data, the answer. -/
structure Piece (ρ : Type) where
  len : Nat
  valid : Bool
  result : ρ

section Yield

variable {ρ : Type}

/-- What the put-back makes of frames behind `n` bytes: a scan starts at each of these and at the frame. An
    error ends it, and the rest of the read is lost. -/
def putBack : Nat → List (Piece ρ) → List ρ × Bool
  | _, [] => ([], false)
  | n, p :: ps =>
    if p.valid then
      (List.replicate (n + 1) p.result ++ (putBack (p.len - 1) ps).1, (putBack (p.len - 1) ps).2)
    else ([p.result], true)

/-- The answers of a read that completes some frames, `off` bytes of which came before it; and whether the rest
    of it is lost. -/
def readYield (off : Nat) : List (Piece ρ) → List ρ × Bool
  | [] => ([], false)
  | p :: ps =>
    if p.valid then
      (p.result :: (putBack (p.len - off - 1) ps).1, (putBack (p.len - off - 1) ps).2)
    else ([p.result], true)

end Yield

def piece (content : List UInt8) : Piece (Except SpinelError (List UInt8)) :=
  ⟨(frameWire content).length, (answer content).isOk, answer content⟩

section Answered

variable {content : List UInt8} (ps : List (Piece (Except SpinelError (List UInt8))))
variable {data : List UInt8} {e : SpinelError}

theorem putBack_ok (h : answer content = .ok data) (n : Nat) : putBack n (piece content :: ps) =
      (replicate (n + 1) (.ok data) ++ (putBack ((frameWire content).length - 1) ps).1,
        (putBack ((frameWire content).length - 1) ps).2) := by
  rw [piece, h]
  rfl

theorem putBack_error (h : answer content = .error e) (n : Nat) :
    putBack n (piece content :: ps) = ([.error e], true) := by
  rw [piece, h]
  rfl

theorem readYield_ok (h : answer content = .ok data) (off : Nat) :
    readYield off (piece content :: ps) =
      (.ok data :: (putBack ((frameWire content).length - off - 1) ps).1,
        (putBack ((frameWire content).length - off - 1) ps).2) := by
  rw [piece, h]
  rfl

theorem readYield_error (h : answer content = .error e) (off : Nat) :
    readYield off (piece content :: ps) = ([.error e], true) := by
  rw [piece, h]
  rfl

end Answered

/-- The decoder in front of what follows the part `h` of a frame; `lost`: that part was lost. -/
def Follows (lost : Bool) (decoder : HdlcDecoder) (h : List UInt8) : Prop :=
  if lost then decoder = .new else Ready decoder h

theorem drain_error {pending : List UInt8} {e : SpinelError}
    (h : feedUntil feedByte decoder pending = (.new, some (.error e))) :
    drain decoder pending = (.new, [.error e]) := by
  rw [drain_yield h]
  rfl

/-- **The put-back.** Behind a closing part the frames of a read come out as `putBack` says. -/
theorem drain_putBack (cs : List (List UInt8)) (hlong : ∀ c ∈ cs, 2 < c.length)
    {rest : List (List UInt8)} (hp : PartIn h rest) (u : List UInt8) (hu : ClosingPart u) :
    ∃ decoder, drain .new (u ++ (frameStream cs ++ h)) =
        (decoder, (putBack u.length (cs.map piece)).1) ∧
      Follows (putBack u.length (cs.map piece)).2 decoder h := by
  induction cs generalizing u with
  | nil =>
    obtain ⟨dec, hq, hr⟩ := quiet_closingPart hu
    obtain ⟨dec', hq', hr'⟩ := quiet_partIn hr hp
    exact ⟨dec', drain_quiet (quiet_append hq hq'), hr'⟩
  | cons c cs ih =>
    have hscan (v : List UInt8) (hv : ClosingPart v) :
        feedUntil feedByte .new (v ++ (frameWire c ++ (frameStream cs ++ h))) =
          (.new, some (answer c)) := by
      obtain ⟨dec, hq, hr⟩ := quiet_closingPart hv
      rw [feedUntil_append_quiet hq]
      exact ready_close hr rfl (cons_ne_nil _ _) (hlong c mem_cons_self) _
    rw [frameStream_cons, append_assoc, map_cons]
    cases hans : answer c with
    | error e =>
      rw [putBack_error _ hans]
      rw [hans] at hscan
      exact ⟨.new, drain_error (hscan u hu), rfl⟩
    | ok d =>
      rw [hans] at hscan
      obtain ⟨dec, hd, hr⟩ := ih (fun x hx => hlong x (mem_cons_of_mem _ hx))
        (frameWire c).tail (closingPart_frame (nil_append (frameWire c)).symm)
      rw [putBack_ok _ hans]
      refine ⟨dec, ?_, hr⟩
      -- one byte of the closing part goes with each copy of the frame
      induction u with
      | nil =>
        have hleft : leftover ([] ++ (frameWire c ++ (frameStream cs ++ h))) (.ok d) =
            (frameWire c).tail ++ (frameStream cs ++ h) := rfl
        rw [drain_yield (hscan [] hu), hleft, hd]
        rfl
      | cons b u ihu =>
        have hleft : leftover (b :: u ++ (frameWire c ++ (frameStream cs ++ h))) (.ok d) =
            u ++ (frameWire c ++ (frameStream cs ++ h)) := rfl
        rw [drain_yield (hscan _ hu), hleft, ihu (closingPart_tail hu), length_cons]
        rfl

section Read

variable {decoder : HdlcDecoder} {pre c h : List UInt8}

theorem drain_within {rest : List (List UInt8)} (hr : Ready decoder pre) (hp : PartIn (pre ++ c) rest) :
    ∃ decoder', drain decoder c = (decoder', []) ∧ Ready decoder' (pre ++ c) := by
  cases rest with
  | nil =>
    obtain ⟨rfl, rfl⟩ := append_eq_nil_iff.mp (show pre ++ c = [] from hp)
    exact ⟨decoder, rfl, hr⟩
  | cons d rest =>
    obtain ⟨suf, hsuf, hd⟩ := hp
    rw [append_assoc] at hd
    obtain ⟨decoder', hq, hr'⟩ := ready_extend hr hd hsuf
    exact ⟨decoder', drain_quiet hq, hr'⟩

/-- **One read** that completes the frames `full` yields what `readYield` says. -/
theorem drain_read {full rest : List (List UInt8)} (hr : Ready decoder pre)
    (hpre : PartIn pre (full ++ rest)) (hlong : ∀ c ∈ full, 2 < c.length)
    (hc : pre ++ c = frameStream full ++ h) (hp : PartIn h rest) :
    ∃ decoder', drain decoder c = (decoder', (readYield pre.length (full.map piece)).1) ∧
      Follows (readYield pre.length (full.map piece)).2 decoder' h := by
  cases full with
  | nil =>
    obtain rfl : pre ++ c = h := hc
    exact drain_within hr hp
  | cons d es =>
    obtain ⟨suf, hsuf, hd⟩ := hpre
    rw [frameStream_cons, hd, append_assoc, append_assoc, append_cancel_left_eq] at hc
    subst hc
    have hlen : (frameWire d).length - pre.length = suf.length := by
      rw [hd, length_append, Nat.add_sub_cancel_left]
    have hclose := ready_close hr hd hsuf (hlong d mem_cons_self) (frameStream es ++ h)
    rw [map_cons]
    cases hans : answer d with
    | error e =>
      rw [readYield_error _ hans]
      rw [hans] at hclose
      exact ⟨.new, drain_error hclose, rfl⟩
    | ok data =>
      obtain ⟨b, suf, rfl⟩ := exists_cons_of_ne_nil hsuf
      obtain ⟨decoder', hdr, hf⟩ := drain_putBack es (fun e he => hlong e (mem_cons_of_mem _ he)) hp suf
        (closingPart_frame hd)
      have hleft : leftover (b :: suf ++ (frameStream es ++ h)) (.ok data) =
          suf ++ (frameStream es ++ h) := rfl
      rw [readYield_ok _ hans, hlen, length_cons]
      rw [hans] at hclose
      rw [drain_yield hclose, hleft, hdr]
      exact ⟨decoder', rfl, hf⟩

end Read

end DcuDaemon.Serial
