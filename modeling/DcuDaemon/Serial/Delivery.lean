/-
  Which frames `recv_frame` returns for a stream of encoded frames, for every way of cutting the stream
  into reads.

  Main result: `recv_frame_once_iff`.
-/
import DcuDaemon.Serial.Reads
import Mathlib.Data.List.SplitLengths

namespace DcuDaemon.Serial

open Lib Spinel List

/-! ## 1. Reads that lose and repeat nothing -/

section Apart

variable {ρ : Type}

/-- For each byte of a frame whether it closes it, and then whether the frame is valid. -/
def frameMarks (len : Nat) (valid : Bool) : List (Option Bool) := List.replicate (len - 1) none ++ [some valid]

def Piece.marks (p : Piece ρ) : List (Option Bool) := frameMarks p.len p.valid

/-- The bytes of a read: behind the first one at most one closes a valid frame, and only the last one closes a
    corrupted frame. -/
def Apart (m : List (Option Bool)) : Prop := m.tail.count (some true) ≤ 1 ∧ some false ∉ m.dropLast

instance (m : List (Option Bool)) : Decidable (Apart m) := inferInstanceAs (Decidable (_ ∧ _))

theorem flatMap_marks_cons (p : Piece ρ) (ps : List (Piece ρ)) : (p :: ps).flatMap Piece.marks =
    replicate (p.len - 1) none ++ some p.valid :: ps.flatMap Piece.marks := by
  rw [flatMap_cons, Piece.marks, frameMarks, append_assoc, singleton_append]

theorem eq_nil_of_notMem_dropLast {l l' : List (Option Bool)}
    (h : some false ∉ (l ++ some false :: l').dropLast) : l' = [] := by
  cases l' with
  | nil => rfl
  | cons x l' => exact absurd (by simp [dropLast_append_of_ne_nil]) h

theorem notMem_dropLast_right {l l' : List (Option Bool)} (h : some false ∉ (l ++ l').dropLast) :
    some false ∉ l'.dropLast := by
  intro hmem
  have hne : l' ≠ [] := ne_nil_of_mem ((dropLast_sublist l').subset hmem)
  rw [dropLast_append_of_ne_nil hne] at h
  exact h (mem_append_right _ hmem)

theorem marks_eq_nil {ps : List (Piece ρ)} {k : Nat}
    (h : ps.flatMap Piece.marks ++ replicate k none = []) : ps = [] ∧ k = 0 := by
  cases ps with
  | nil => simpa using h
  | cons p ps => simp [Piece.marks, frameMarks] at h

/-- **The put-back repeats nothing** if no valid frame follows, or one at once, and loses nothing if a corrupted
    one ends the read. -/
theorem putBack_of_apart {k : Nat} (ps : List (Piece ρ)) {n : Nat}
    (hone : (if n = 0 then 0 else 1) + (ps.flatMap Piece.marks).count (some true) ≤ 1)
    (hlast : some false ∉ (ps.flatMap Piece.marks ++ replicate k none).dropLast) :
    (putBack n ps).1 = ps.map Piece.result ∧ ((putBack n ps).2 = true → k = 0) := by
  induction ps generalizing n with
  | nil => exact ⟨rfl, fun h => nomatch h⟩
  | cons p ps ih =>
    rw [flatMap_marks_cons, append_assoc, cons_append] at hlast
    rw [putBack]
    cases hv : p.valid with
    | false =>
      rw [hv] at hlast
      obtain ⟨rfl, rfl⟩ := marks_eq_nil (eq_nil_of_notMem_dropLast hlast)
      rw [if_neg Bool.false_ne_true]
      exact ⟨rfl, fun _ => rfl⟩
    | true =>
      rw [flatMap_marks_cons, hv, count_append, count_cons_self] at hone
      obtain rfl : n = 0 := by
        by_contra hn
        rw [if_neg hn] at hone
        omega
      have hrest := notMem_dropLast_right (l := replicate (p.len - 1) none ++ [some p.valid]) (by simpa using hlast)
      obtain ⟨hresult, hlost⟩ := ih (n := p.len - 1) (by split <;> omega) hrest
      rw [if_pos rfl, hresult]
      exact ⟨rfl, hlost⟩

/-- **One read.** -/
theorem readYield_of_apart {off k : Nat} {ps : List (Piece ρ)} (hoff : ∀ p ∈ ps.head?, off < p.len)
    (h : Apart ((ps.flatMap Piece.marks ++ replicate k none).drop off)) :
    (readYield off ps).1 = ps.map Piece.result ∧ ((readYield off ps).2 = true → k = 0) := by
  cases ps with
  | nil => exact ⟨rfl, fun h => nomatch h⟩
  | cons p ps =>
    have hlt : off < p.len := hoff p rfl
    have hle : off ≤ (replicate (p.len - 1) (none : Option Bool)).length := by
      rw [length_replicate]
      omega
    rw [flatMap_marks_cons, append_assoc, cons_append, drop_append_of_le_length hle, drop_replicate] at h
    obtain ⟨hone, hlast⟩ := h
    rw [readYield]
    cases hv : p.valid with
    | false =>
      rw [hv] at hlast
      obtain ⟨rfl, rfl⟩ := marks_eq_nil (eq_nil_of_notMem_dropLast hlast)
      rw [if_neg Bool.false_ne_true]
      exact ⟨rfl, fun _ => rfl⟩
    | true =>
      have hrest := notMem_dropLast_right (l := replicate (p.len - 1 - off) none ++ [some p.valid])
        (by simpa using hlast)
      have hput : (if p.len - off - 1 = 0 then 0 else 1) + (ps.flatMap Piece.marks).count (some true) ≤ 1 := by
        rw [hv, show p.len - 1 - off = p.len - off - 1 by omega] at hone
        cases hn : p.len - off - 1 with
        | zero => simpa [hn, count_replicate] using hone
        | succ j =>
          rw [hn, replicate_succ, cons_append, tail_cons, count_append, count_cons_self, count_append] at hone
          rw [if_neg (Nat.succ_ne_zero j)]
          omega
      obtain ⟨hresult, hlost⟩ := putBack_of_apart ps hput hrest
      rw [if_pos rfl, hresult]
      exact ⟨rfl, hlost⟩

end Apart

theorem length_marks_pieces (cs : List (List UInt8)) :
    ((cs.map piece).flatMap Piece.marks).length = (frameStream cs).length := by
  induction cs with
  | nil => rfl
  | cons c cs ih =>
    rw [map_cons, flatMap_marks_cons, length_append, length_replicate, length_cons, ih, frameStream_cons,
      length_append]
    change (frameWire c).length - 1 + _ = _
    have hpos : 0 < (frameWire c).length := Nat.succ_pos _
    omega

theorem partIn_nil (cs : List (List UInt8)) : PartIn [] cs := by
  cases cs with
  | nil => rfl
  | cons c cs => exact ⟨frameWire c, cons_ne_nil _ _, rfl⟩

theorem PartIn.lt_len {h : List UInt8} {cs : List (List UInt8)} (hp : PartIn h cs) :
    ∀ p ∈ (cs.map piece).head?, h.length < p.len := by
  cases cs with
  | nil => exact fun _ hp => nomatch hp
  | cons c cs =>
    obtain ⟨suf, hsuf, hd⟩ := hp
    have hpos := length_pos_iff.mpr hsuf
    intro p hmem
    obtain rfl : piece c = p := Option.some.inj hmem
    change h.length < (frameWire c).length
    rw [hd, length_append]
    omega

theorem PartIn.take_marks {h : List UInt8} {cs : List (List UInt8)} (hp : PartIn h cs) :
    ((cs.map piece).flatMap Piece.marks).take h.length = replicate h.length none := by
  cases cs with
  | nil =>
    cases hp
    rfl
  | cons c cs =>
    have hlt := hp.lt_len _ rfl
    rw [map_cons, flatMap_marks_cons, take_append_of_le_length (by rw [length_replicate]; omega), take_replicate,
      Nat.min_eq_left (by omega)]

/-! ## 2. Reads of valid frames -/

section Valid

variable {ρ : Type} {ps : List (Piece ρ)}

def Piece.Good (p : Piece ρ) : Prop := p.valid = true ∧ 2 ≤ p.len

variable (h : ∀ p ∈ ps, p.Good)

include h

theorem count_marks : (ps.flatMap Piece.marks).count (some true) = ps.length := by
  induction ps with
  | nil => rfl
  | cons p ps ih =>
    obtain ⟨hp, hps⟩ := forall_mem_cons.mp h
    rw [flatMap_marks_cons, hp.1, count_append, count_cons_self, ih hps, length_cons]
    simp [count_replicate]

theorem false_notMem_marks : some false ∉ ps.flatMap Piece.marks := by
  intro hmem
  obtain ⟨p, hp, hmem⟩ := mem_flatMap.mp hmem
  simp [Piece.marks, frameMarks, (h p hp).1] at hmem

/-- The put-back yields no fewer frames, and more unless one follows at once or none. -/
theorem length_putBack (n : Nat) :
    (putBack n ps).2 = false ∧ ps.length ≤ (putBack n ps).1.length ∧
      ((putBack n ps).1.length = ps.length → ps = [] ∨ n = 0 ∧ ps.length = 1) := by
  induction ps generalizing n with
  | nil => exact ⟨rfl, Nat.le_refl _, fun _ => .inl rfl⟩
  | cons p ps ih =>
    obtain ⟨⟨hvalid, hlen⟩, hps⟩ := forall_mem_cons.mp h
    obtain ⟨hkept, hle, heq⟩ := ih hps (p.len - 1)
    rw [putBack, if_pos hvalid]
    dsimp only
    rw [length_append, length_replicate, length_cons]
    refine ⟨hkept, by omega, fun hsame => .inr ?_⟩
    -- the next frame is repeated once for each byte of this one
    rcases heq (by omega) with rfl | ⟨hone, -⟩
    · exact ⟨by omega, rfl⟩
    · omega

theorem length_readYield {off k : Nat} (hoff : ∀ p ∈ ps.head?, off < p.len) :
    (readYield off ps).2 = false ∧ ps.length ≤ (readYield off ps).1.length ∧
      ((readYield off ps).1.length = ps.length →
        Apart ((ps.flatMap Piece.marks ++ replicate k none).drop off)) := by
  have hlast : some false ∉ ((ps.flatMap Piece.marks ++ replicate k none).drop off).dropLast := by
    intro hmem
    have hmem := mem_of_mem_drop ((dropLast_sublist _).subset hmem)
    rcases mem_append.mp hmem with hmem | hmem
    · exact false_notMem_marks h hmem
    · cases eq_of_mem_replicate hmem
  cases ps with
  | nil => exact ⟨rfl, Nat.le_refl _, fun _ => ⟨by simp [count_replicate], hlast⟩⟩
  | cons p ps =>
    obtain ⟨⟨hvalid, -⟩, hps⟩ := forall_mem_cons.mp h
    have hlt : off < p.len := hoff p rfl
    obtain ⟨hkept, hle, heq⟩ := length_putBack hps (p.len - off - 1)
    rw [readYield, if_pos hvalid]
    dsimp only
    rw [length_cons, length_cons]
    refine ⟨hkept, by omega, fun hsame => ⟨?_, hlast⟩⟩
    rw [flatMap_marks_cons, append_assoc, cons_append, hvalid, drop_append_of_le_length
      (by rw [length_replicate]; omega), drop_replicate, show p.len - 1 - off = p.len - off - 1 by omega]
    rcases heq (by omega) with rfl | ⟨hzero, hone⟩
    · cases p.len - off - 1 <;> simp [count_replicate, replicate_succ]
    · rw [hzero, replicate_zero, nil_append, tail_cons, count_append, count_marks hps, hone]
      simp [count_replicate]

end Valid

/-! ## 3. All reads -/

theorem session_drain (decoder : HdlcDecoder) (pending : List UInt8) (reads : List Chunk) :
    session decoder pending reads =
      (drain decoder pending).2 ++ session (drain decoder pending).1 [] reads := by
  cases reads with
  | nil => exact (append_nil _).symm
  | cons c reads => rfl

/-- For each read, which of its bytes close a frame, with `pre` of the first one read before. -/
def readMarks (reads : List Chunk) (pre : List UInt8) (cs : List (List UInt8)) : List (List (Option Bool)) :=
  (reads.map (·.val.length)).splitLengths (((cs.map piece).flatMap Piece.marks).drop pre.length)

/-- **The answers are those of the frames if nothing is lost or repeated**; and they are more of them if all are
    valid, but something is repeated. -/
theorem session_frames (reads : List Chunk) {decoder : HdlcDecoder} {pre : List UInt8} {cs : List (List UInt8)}
    (hr : Ready decoder pre) (hpre : PartIn pre cs) (hlong : ∀ c ∈ cs, 2 < c.length)
    (hcut : pre ++ (reads.map (·.val)).flatten = frameStream cs)
    (h : (∀ m ∈ readMarks reads pre cs, Apart m) ∨ ∀ c ∈ cs, (answer c).isOk = true) :
    ((∀ m ∈ readMarks reads pre cs, Apart m) → session decoder [] reads = cs.map answer) ∧
      ((∀ c ∈ cs, (answer c).isOk = true) → cs.length ≤ (session decoder [] reads).length ∧
        ((session decoder [] reads).length = cs.length → ∀ m ∈ readMarks reads pre cs, Apart m)) := by
  unfold readMarks at *
  induction reads generalizing decoder pre cs with
  | nil =>
    cases cs with
    | nil => exact ⟨fun _ => rfl, fun _ => ⟨Nat.le_refl _, fun _ _ hm => absurd hm not_mem_nil⟩⟩
    | cons c cs =>
      -- the stream would end inside its first frame
      have hlt : pre.length < (frameWire c).length := hpre.lt_len _ rfl
      have hlen := congrArg length hcut
      rw [map_nil, flatten_nil, append_nil, frameStream_cons, length_append] at hlen
      omega
  | cons c reads ih =>
    rw [map_cons, flatten_cons, ← append_assoc] at hcut
    obtain ⟨full, rest, part, rfl, hc, hrest, hp⟩ := frameStream_cut cs hcut
    obtain ⟨decoder', hdr, hfollows⟩ := drain_read hr hpre (fun d hd => hlong d (mem_append_left _ hd)) hc hp
    have hn : pre.length + c.val.length = ((full.map piece).flatMap Piece.marks).length + part.length := by
      rw [length_marks_pieces, ← length_append, hc, length_append]
    have hoff : ∀ p ∈ (full.map piece).head?, pre.length < p.len := by
      intro p hmem
      refine hpre.lt_len p ?_
      cases full with
      | nil => cases hmem
      | cons d full => exact hmem
    rw [map_cons, splitLengths_cons, take_drop, drop_drop, hn, map_append, flatMap_append, take_length_add_append,
      hp.take_marks, drop_length_add_append, forall_mem_cons, forall_mem_append] at h
    rw [map_cons, splitLengths_cons, take_drop, drop_drop, hn, map_append, flatMap_append, take_length_add_append,
      hp.take_marks, drop_length_add_append, forall_mem_cons, forall_mem_append]
    have hgood (hok : ∀ c ∈ full, (answer c).isOk = true) : ∀ p ∈ full.map piece, p.Good := by
      intro p hp
      obtain ⟨d, hd, rfl⟩ := mem_map.mp hp
      exact ⟨hok d hd, by simp [piece, frameWire]⟩
    have hkept : Ready decoder' part := by
      rcases h with ⟨hfirst, -⟩ | ⟨hok, -⟩
      · have hlost := (readYield_of_apart hoff hfirst).2
        cases hy : (readYield pre.length (full.map piece)).2 with
        | false =>
          rw [hy] at hfollows
          exact hfollows
        | true =>
          rw [hy] at hfollows
          obtain rfl : part = [] := length_eq_zero_iff.mp (hlost hy)
          obtain rfl : decoder' = .new := hfollows
          exact ready_new
      · rw [(length_readYield (k := 0) (hgood hok) hoff).1] at hfollows
        exact hfollows
    have hstart : session decoder [] (c :: reads) = session decoder c.val reads := rfl
    rw [hstart, session_drain, hdr]
    obtain ⟨hall, hmore⟩ := ih hkept hp (fun d hd => hlong d (mem_append_right _ hd)) hrest
      (h.imp And.right And.right)
    constructor
    · rintro ⟨hfirst, hothers⟩
      rw [hall hothers, (readYield_of_apart hoff hfirst).1, List.map_map, map_append]
      rfl
    · rintro ⟨hokf, hokr⟩
      obtain ⟨-, hle, heq⟩ := length_readYield (k := part.length) (hgood hokf) hoff
      obtain ⟨hle', heq'⟩ := hmore hokr
      rw [length_map] at hle heq
      rw [length_append, length_append]
      dsimp only
      exact ⟨by omega, fun hsame => ⟨heq (by omega), heq' (by omega)⟩⟩

/-! ## 4. Encodings -/

/-- What an encoder puts between the flags, before it escapes it. -/
def sealed (data : List UInt8) : List UInt8 := data ++ toLeBytes (crc16 data)

theorem long_sealed {d : List UInt8} (h : d ≠ []) : 2 < (sealed d).length := by
  have hpos := length_pos_iff.mpr h
  have hlen : (sealed d).length = d.length + 2 := length_append
  omega

theorem answer_sealed (d : List UInt8) : answer (sealed d) = .ok d := by
  rw [sealed, answer_append, if_pos rfl]

/-- For each byte of the encodings, whether it is the closing flag of one. -/
def closingMarks (wires : List (List UInt8)) : List Bool :=
  wires.flatMap fun w => List.replicate (w.length - 1) false ++ [true]

/-- A read holds at most one closing flag behind its first byte. -/
def OneClosing (m : List Bool) : Prop := m.tail.count true ≤ 1

instance (m : List Bool) : Decidable (OneClosing m) := inferInstanceAs (Decidable (_ ≤ _))

def markOf (b : Bool) : Option Bool := if b then some true else none

theorem apart_map_markOf {m : List Bool} : Apart (m.map markOf) ↔ OneClosing m := by
  have hfalse : some false ∉ (m.map markOf).dropLast := by
    intro h
    obtain ⟨b, -, hb⟩ := mem_map.mp ((dropLast_sublist _).subset h)
    cases b <;> cases hb
  rw [Apart, and_iff_left hfalse, OneClosing, ← map_tail, count, countP_map]
  exact iff_of_eq (congrArg (· ≤ 1) (countP_congr fun b _ => by cases b <;> simp [markOf]))

theorem splitLengths_map {α β : Type} (f : α → β) (sizes : List Nat) (l : List α) :
    sizes.splitLengths (l.map f) = (sizes.splitLengths l).map (map f) := by
  induction sizes generalizing l with
  | nil => rfl
  | cons n sizes ih => rw [splitLengths_cons, splitLengths_cons, map_cons, map_take, ← ih, map_drop]

theorem marks_sealed (datas : List (List UInt8)) :
    ((datas.map sealed).map piece).flatMap Piece.marks =
      (closingMarks ((datas.map sealed).map frameWire)).map markOf := by
  simp only [closingMarks, flatMap_map, map_flatMap, Piece.marks, frameMarks, piece, answer_sealed]
  simp [markOf, Except.isOk, Except.toBool]

theorem encodeAll_eq_wires (datas : List (List UInt8)) :
    HdlcEncoder.new.encodeAll datas = (datas.map sealed).map frameWire := by
  induction datas with
  | nil => rfl
  | cons d ds ih =>
    rw [encodeAll_cons, ih, encodeBytes_new]
    rfl

theorem toResult_ne_closed (r : Except SpinelError (List UInt8)) :
    toResult r ≠ .error connectionClosed := by
  intro h
  cases r with
  | error e => cases h
  | ok d =>
    rw [toResult] at h
    cases hd : SpinelFrame.decode d with
    | error e =>
      rw [hd] at h
      cases h
    | ok f =>
      rw [hd] at h
      cases h

/-- Results without "connection closed" that agree with fewer results and "connection closed"
    behind them are not more. -/
theorem length_le_of_thenClosed {rs rs' : List (Except SerialError SpinelFrame)}
    (hrs : .error connectionClosed ∉ rs) (h : ∀ k, thenClosed rs k = thenClosed rs' k) :
    rs.length ≤ rs'.length := by
  by_contra hlt
  have hk := h rs.length
  unfold thenClosed at hk
  rw [take_left] at hk
  refine hrs ?_
  rw [hk, take_append, take_replicate]
  refine mem_append_right _ (mem_replicate.mpr ⟨?_, rfl⟩)
  omega

/-- **Which streams `recv_frame` returns without a repetition**: exactly those of which no read holds behind
    its first byte the closing flags of two frames. -/
theorem recv_frame_once_iff (frames : List SpinelFrame) (hf : ∀ f ∈ frames, Wireable f)
    (wires : List (List UInt8)) (hw : HdlcEncoder.new.encodeFrames frames = some wires)
    (reads : List Chunk) (hne : ∀ c ∈ reads, c.val ≠ [])
    (hcut : (reads.map (·.val)).flatten = wires.flatten) :
    (∀ k, (FramedTransport.new (reads.map .bytes)).recvCalls k =
        thenClosed (frames.map .ok) k) ↔
      ∀ m ∈ (reads.map (·.val.length)).splitLengths (closingMarks wires), OneClosing m := by
  obtain ⟨datas, _, henc, hdne, hdec⟩ := encodeFrames_eq frames hf
  obtain rfl : wires = (datas.map sealed).map frameWire := by
    rw [hw, encodeAll_eq_wires] at henc
    exact Option.some.inj henc
  have hok : ∀ c ∈ datas.map sealed, (answer c).isOk = true := by
    intro c hc
    obtain ⟨d, -, rfl⟩ := mem_map.mp hc
    rw [answer_sealed]
    rfl
  have hlong : ∀ c ∈ datas.map sealed, 2 < c.length := by
    intro c hc
    obtain ⟨d, hd, rfl⟩ := mem_map.mp hc
    exact long_sealed (hdne d hd)
  have hstream : [] ++ (reads.map (·.val)).flatten = frameStream (datas.map sealed) := by
    rw [nil_append, hcut, frameStream, flatMap_def]
  obtain ⟨hall, hmore⟩ := session_frames reads ready_new (partIn_nil _) hlong hstream (.inr hok)
  have hmarks : (∀ m ∈ readMarks reads [] (datas.map sealed), Apart m) ↔
      ∀ m ∈ (reads.map (·.val.length)).splitLengths (closingMarks ((datas.map sealed).map frameWire)),
        OneClosing m := by
    rw [readMarks, marks_sealed, length_nil, drop_zero, splitLengths_map, forall_mem_map]
    simp only [apart_map_markOf]
  have hcalls (k : Nat) : (FramedTransport.new (reads.map .bytes)).recvCalls k =
      thenClosed ((session .new [] reads).map toResult) k := recvCalls_session k reads hne .new []
  have hframes : ((datas.map sealed).map answer).map toResult = frames.map .ok := by
    have hmap : ((datas.map sealed).map answer).map toResult =
        (datas.map SpinelFrame.decode).map (·.mapError .spinel) := by
      simp only [map_map, Function.comp_def, answer_sealed]
      rfl
    rw [hmap, hdec, map_map]
    rfl
  rw [← hmarks]
  refine ⟨fun h => ?_, fun h k => ?_⟩
  · have hclosed : .error connectionClosed ∉ (session .new [] reads).map toResult := by
      intro hmem
      obtain ⟨r, _, hr⟩ := mem_map.mp hmem
      exact toResult_ne_closed r hr
    have hle := length_le_of_thenClosed hclosed fun k => (hcalls k).symm.trans (h k)
    rw [← hframes, length_map, length_map, length_map] at hle
    obtain ⟨hge, hsame⟩ := hmore hok
    exact hsame (Nat.le_antisymm hle hge)
  · rw [hcalls, hall h, hframes]

/-- Two reads that each complete one frame, the first one ending inside the second frame. -/
theorem recv_frame_once_two_reads :
    (FramedTransport.new ([⟨[126, 128, 6, 189, 230, 126, 126, 129], by decide⟩,
        ⟨[2, 65, 185, 126], by decide⟩].map .bytes)).recvCalls 4 =
      [.ok ⟨0x80, 6, []⟩, .ok ⟨0x81, 2, []⟩, .error connectionClosed, .error connectionClosed] :=
  (recv_frame_once_iff [⟨0x80, 6, []⟩, ⟨0x81, 2, []⟩] (by decide)
    [[126, 128, 6, 189, 230, 126], [126, 129, 2, 65, 185, 126]] (by decide +kernel)
    [⟨[126, 128, 6, 189, 230, 126, 126, 129], by decide⟩, ⟨[2, 65, 185, 126], by decide⟩]
    (by decide) rfl).mpr (by decide) 4

/-- **One read with two whole frames**: the third call returns the second frame again instead of
    the end of the stream. -/
theorem recv_frame_repeats : (∀ f ∈ [(⟨0x80, 6, []⟩ : SpinelFrame), ⟨0x81, 2, []⟩], Wireable f) ∧
      HdlcEncoder.new.encodeFrames [⟨0x80, 6, []⟩, ⟨0x81, 2, []⟩] =
        some [[126, 128, 6, 189, 230, 126], [126, 129, 2, 65, 185, 126]] ∧
      (FramedTransport.new [.bytes ⟨[126, 128, 6, 189, 230, 126, 126, 129, 2, 65, 185, 126],
          by decide⟩]).recvCalls 3 = [.ok ⟨0x80, 6, []⟩, .ok ⟨0x81, 2, []⟩, .ok ⟨0x81, 2, []⟩] ∧
      ¬ ∀ k, (FramedTransport.new [.bytes ⟨[126, 128, 6, 189, 230, 126, 126, 129, 2, 65, 185, 126],
          by decide⟩]).recvCalls k =
        thenClosed ([⟨0x80, 6, []⟩, ⟨0x81, 2, []⟩].map .ok) k := by
  refine ⟨by decide, by decide +kernel, by decide +kernel, fun h => ?_⟩
  exact absurd (h 3) (by decide +kernel)

end DcuDaemon.Serial
