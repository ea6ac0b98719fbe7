/-
  Texts with quotes and backslashes.

  A backslash takes the character behind it along. Which backslashes do is the same for every reader of
  a text, whatever it makes of quotes, so a text is cut into pieces once.

  * `pieces` -- the characters of a text, alone or behind a backslash; `pieces_append` cuts a text
    whose last backslash has its character, `pieces_snoc_append` one whose last has not;
  * `scanPieces` -- a word of a shell: quotes are taken off, white space outside them ends it.
-/
import DcuDaemon.Lib.Radix

namespace DcuDaemon.Lib

open List

/-! ## 1. Pieces -/

def isQuote (c : Char) : Bool := c = '\x22' ∨ c = '\x27'

variable {c : Char} {cs text : List Char} {quote : Option Char} {ps : List Piece}

theorem white_ne (h : isWhitespace c) : isQuote c = false ∧ c ≠ '\\' ∧ c ≠ '#' := by
  have hno : ∀ d, isWhitespace d = false → c ≠ d := by
    intro d hd e
    rw [e, hd] at h
    cases h
  refine ⟨decide_eq_false ?_, hno _ (by decide), hno _ (by decide)⟩
  exact not_or.mpr ⟨hno _ (by decide), hno _ (by decide)⟩

theorem quote_ne (h : isQuote c) : isSpace c = false ∧ c ≠ '\\' ∧ c ≠ '#' := by
  rcases of_decide_eq_true h with rfl | rfl
  · decide
  · decide

/-- A character of a text, or one that stands behind a backslash. -/
inductive Piece where
  | plain (c : Char)
  | escaped (c : Char)
  deriving DecidableEq

def Piece.char : Piece → Char
  | plain c => c
  | escaped c => c

/-- A backslash at the end of the text is a character like others. -/
def pieces : List Char → List Piece
  | [] => []
  | [c] => [.plain c]
  | c :: d :: cs => if c = '\\' then .escaped d :: pieces cs else .plain c :: pieces (d :: cs)

/-- Every backslash has its character. -/
def Whole (cs : List Char) : Prop := Piece.plain '\\' ∉ pieces cs

instance (cs : List Char) : Decidable (Whole cs) := inferInstanceAs (Decidable (¬ _))

theorem pieces_cons (hc : c ≠ '\\') (cs : List Char) : pieces (c :: cs) = .plain c :: pieces cs := by
  cases cs with
  | nil => rfl
  | cons d cs => rw [pieces, if_neg hc]

theorem pieces_escape (d : Char) (cs : List Char) : pieces ('\\' :: d :: cs) = .escaped d :: pieces cs := by
  rw [pieces, if_pos rfl]

theorem pieces_of_no_backslash (h : '\\' ∉ cs) : pieces cs = cs.map .plain := by
  induction cs with
  | nil => rfl
  | cons c cs ih =>
    rw [mem_cons, not_or] at h
    rw [pieces_cons (Ne.symm h.1), ih h.2, map_cons]

theorem pieces_append (cs ds : List Char) (h : Whole cs) : pieces (cs ++ ds) = pieces cs ++ pieces ds := by
  unfold Whole at h
  fun_induction pieces cs with
  | case1 => rfl
  | case2 c =>
    have hc : c ≠ '\\' := fun e => h (by rw [e]; exact mem_singleton_self _)
    exact pieces_cons hc ds
  | case3 d cs ih =>
    rw [cons_append, cons_append, pieces_escape, cons_append, ih fun hmem => h (mem_cons_of_mem _ hmem)]
  | case4 c d cs hc ih =>
    rw [cons_append, pieces_cons hc, ih fun hmem => h (mem_cons_of_mem _ hmem), cons_append]

theorem exists_of_not_whole (cs : List Char) (h : ¬ Whole cs) : ∃ ds, cs = ds ++ ['\\'] ∧ Whole ds := by
  unfold Whole at *
  rw [not_not] at h
  fun_induction pieces cs with
  | case1 => exact absurd h not_mem_nil
  | case2 c =>
    have hc : c = '\\' := (Piece.plain.inj (mem_singleton.mp h)).symm
    exact ⟨[], by rw [hc]; rfl, not_mem_nil⟩
  | case3 d cs ih =>
    obtain ⟨ds, rfl, hds⟩ := ih (by simpa using h)
    exact ⟨'\\' :: d :: ds, rfl, by rw [pieces_escape]; simpa using hds⟩
  | case4 c d cs hc ih =>
    obtain ⟨ds, hcs, hds⟩ := ih (by simpa [hc, eq_comm] using h)
    refine ⟨c :: ds, by rw [hcs]; rfl, ?_⟩
    rw [pieces_cons hc]
    simpa [eq_comm, hc] using hds

theorem pieces_snoc_append {ds : List Char} (h : Whole ds) (c : Char) (cs : List Char) :
    pieces (ds ++ ['\\'] ++ c :: cs) = pieces ds ++ .escaped c :: pieces cs := by
  rw [append_assoc, pieces_append ds _ h, singleton_append, pieces_escape]

theorem length_pieces_le (cs : List Char) : (pieces cs).length ≤ cs.length := by
  fun_induction pieces cs with
  | case1 => exact le_rfl
  | case2 c => exact le_rfl
  | case3 d cs ih =>
    rw [length_cons, length_cons, length_cons]
    omega
  | case4 c d cs hc ih =>
    simp only [length_cons] at ih ⊢
    omega

theorem pieces_eq_map_iff (cs : List Char) : pieces cs = cs.map .plain ↔ '\\' ∉ cs.dropLast := by
  fun_induction pieces cs with
  | case1 => simp
  | case2 c => simp
  | case3 d cs ih =>
    refine iff_of_false (fun e => ?_) (fun h => h (by simp))
    cases (cons.inj e).1
  | case4 c d cs hc ih =>
    rw [map_cons, cons.injEq, and_iff_right rfl, ih, dropLast_cons_cons, mem_cons,
      not_or, and_iff_right (Ne.symm hc)]

theorem pieces_eq_map_of_length (h : cs.length ≤ (pieces cs).length) : pieces cs = cs.map .plain := by
  fun_induction pieces cs with
  | case1 => rfl
  | case2 c => rfl
  | case3 d cs ih =>
    have hle := length_pieces_le cs
    rw [length_cons, length_cons, length_cons] at h
    omega
  | case4 c d cs hc ih =>
    have hlen : (d :: cs).length ≤ (pieces (d :: cs)).length := by
      simp only [length_cons] at h ⊢
      omega
    rw [ih hlen]
    rfl

theorem mem_of_mem_pieces {x : Char} (h : x ∈ (pieces cs).map Piece.char) : x ∈ cs := by
  fun_induction pieces cs with
  | case1 => exact h
  | case2 c => exact h
  | case3 d cs ih =>
    rw [map_cons, mem_cons] at h
    rcases h with rfl | h
    · exact mem_cons_of_mem _ mem_cons_self
    · exact mem_cons_of_mem _ (mem_cons_of_mem _ (ih h))
  | case4 c d cs hc ih =>
    rw [map_cons, mem_cons] at h
    rcases h with rfl | h
    · exact mem_cons_self
    · exact mem_cons_of_mem _ (ih h)

/-! ## 2. Words -/

/-- The characters of a word, from the quote that is open on. -/
def scanPieces : Option Char → List Piece → List Char
  | _, [] => []
  | quote, .escaped c :: ps => c :: scanPieces quote ps
  | some q, .plain c :: ps => if c = q then scanPieces none ps else c :: scanPieces (some q) ps
  | none, .plain c :: ps =>
    if isQuote c then scanPieces (some c) ps
    else if isSpace c then [] else c :: scanPieces none ps

theorem no_quote_open : ∀ q ∈ (none : Option Char), isQuote q := fun _ hq => nomatch hq

theorem scanPieces_sublist (quote : Option Char) (ps : List Piece) :
    (scanPieces quote ps).Sublist (ps.map Piece.char) := by
  fun_induction scanPieces quote ps with
  | case1 => exact List.Sublist.refl _
  | case2 quote c ps ih => exact ih.cons_cons c
  | case3 q ps ih => exact ih.cons q
  | case4 q c ps hc ih => exact ih.cons_cons c
  | case5 c ps hc ih => exact ih.cons c
  | case6 c ps hc hspace => exact nil_sublist _
  | case7 c ps hc hspace ih => exact ih.cons_cons c

/-- What comes behind some pieces is read on, or the word has ended. -/
def Continues (quote : Option Char) (ps : List Piece) : Prop :=
  (∃ quote', (∀ q ∈ quote', isQuote q = true) ∧
      ∀ qs, scanPieces quote (ps ++ qs) = scanPieces quote ps ++ scanPieces quote' qs) ∨
    ∀ qs, scanPieces quote (ps ++ qs) = scanPieces quote ps

theorem Continues.cons {quote' : Option Char} {p : Piece} (out : List Char)
    (hstep : ∀ qs, scanPieces quote (p :: qs) = out ++ scanPieces quote' qs)
    (h : Continues quote' ps) : Continues quote (p :: ps) := by
  rcases h with ⟨quote'', hquote, hread⟩ | hend
  · refine .inl ⟨quote'', hquote, fun qs => ?_⟩
    rw [cons_append, hstep, hstep, hread, append_assoc]
  · refine .inr fun qs => ?_
    rw [cons_append, hstep, hstep, hend]

theorem continues (hq : ∀ q ∈ quote, isQuote q) (ps : List Piece) : Continues quote ps := by
  induction ps generalizing quote with
  | nil => exact .inl ⟨quote, hq, fun qs => by cases quote <;> rfl⟩
  | cons p ps ih =>
    cases p with
    | escaped c => exact (ih hq).cons [c] fun qs => by rw [scanPieces, singleton_append]
    | plain c =>
      cases quote with
      | some q =>
        by_cases hc : c = q
        · exact (ih no_quote_open).cons [] fun qs => by rw [scanPieces, if_pos hc, nil_append]
        · exact (ih hq).cons [c] fun qs => by rw [scanPieces, if_neg hc, singleton_append]
      | none =>
        by_cases hquote : isQuote c
        · have hopen : ∀ q ∈ some c, isQuote q := fun q hq => by
            cases hq
            exact hquote
          exact (ih hopen).cons [] fun qs => by rw [scanPieces, if_pos hquote, nil_append]
        · by_cases hspace : isSpace c
          · refine .inr fun qs => ?_
            rw [cons_append, scanPieces, scanPieces, if_neg hquote, if_pos hspace,
              if_neg hquote, if_pos hspace]
          · exact (ih no_quote_open).cons [c] fun qs => by
              rw [scanPieces, if_neg hquote, if_neg hspace, singleton_append]

theorem scanPieces_map_plain (h : ∀ c ∈ cs, isQuote c = false ∧ isSpace c = false) (qs : List Piece) :
    scanPieces none (cs.map .plain ++ qs) = cs ++ scanPieces none qs := by
  induction cs with
  | nil => rfl
  | cons c cs ih =>
    obtain ⟨hquote, hspace⟩ := h c mem_cons_self
    rw [map_cons, cons_append, scanPieces, if_neg (by simp [hquote]),
      if_neg (by simp [hspace]), ih fun d hd => h d (mem_cons_of_mem c hd), cons_append]

theorem of_scanPieces_map_plain (h : scanPieces none (cs.map .plain) = cs) :
    ∀ c ∈ cs, isQuote c = false ∧ isSpace c = false := by
  induction cs with
  | nil => exact fun c hc => absurd hc not_mem_nil
  | cons c cs ih =>
    rw [map_cons, scanPieces] at h
    by_cases hquote : isQuote c
    · rw [if_pos hquote] at h
      have hle := (scanPieces_sublist (some c) (cs.map .plain)).length_le
      rw [h, length_map, length_map, length_cons] at hle
      omega
    · rw [if_neg hquote] at h
      by_cases hspace : isSpace c
      · rw [if_pos hspace] at h
        cases h
      · rw [if_neg hspace] at h
        refine forall_mem_cons.mpr ⟨⟨?_, ?_⟩, ih (cons.inj h).2⟩
        · exact Bool.eq_false_of_not_eq_true hquote
        · exact Bool.eq_false_of_not_eq_true hspace

/-- **Behind an opening quote everything is kept** up to the next one of its kind. -/
theorem scanPieces_keep {q : Char} (h : Piece.plain q ∉ ps) (qs : List Piece) :
    scanPieces (some q) (ps ++ qs) = ps.map Piece.char ++ scanPieces (some q) qs := by
  induction ps with
  | nil => rfl
  | cons p ps ih =>
    rw [mem_cons, not_or] at h
    cases p with
    | plain c =>
      have hc : c ≠ q := fun e => h.1 (by rw [e])
      rw [cons_append, scanPieces, if_neg hc, ih h.2]
      rfl
    | escaped c =>
      rw [cons_append, scanPieces, ih h.2]
      rfl

theorem scanPieces_close (q : Char) (ps : List Piece) :
    scanPieces (some q) (.plain q :: ps) = scanPieces none ps := by
  rw [scanPieces, if_pos rfl]

section Lost

variable {q : Char} {tail : List Piece}

/-- Outside quotes, with a quote to come, and no other behind it, some quote is lost. -/
theorem scanPieces_none_loses (hq : isQuote q)
    (htail : ∀ c ∈ tail.map Piece.char, isQuote c = false) (ps : List Piece) : ∃ x, isQuote x ∧
      (scanPieces none (ps ++ .plain q :: tail)).count x < ((q :: ps.map Piece.char)).count x := by
  have hnone : ∀ x, isQuote x → (tail.map Piece.char).count x = 0 := by
    intro x hx
    refine count_eq_zero.mpr fun hmem => ?_
    rw [htail x hmem] at hx
    cases hx
  -- what is behind a further quote `c` has no more of them than its pieces
  have hopen : ∀ c, isQuote c → ∀ rest : List Piece,
      (scanPieces (some c) (rest ++ .plain q :: tail)).count c ≤ (q :: rest.map Piece.char).count c := by
    intro c hc rest
    refine ((scanPieces_sublist _ _).count_le c).trans ?_
    rw [map_append, map_cons, Piece.char, count_append, count_cons, count_cons, hnone c hc]
    omega
  induction ps with
  | nil =>
    refine ⟨q, hq, ?_⟩
    have hle := (scanPieces_sublist (some q) tail).count_le q
    rw [hnone q hq] at hle
    rw [nil_append, scanPieces, if_pos hq, map_nil, count_singleton_self]
    omega
  | cons p ps ih =>
    cases p with
    | escaped c =>
      obtain ⟨x, hx, hlt⟩ := ih
      refine ⟨x, hx, ?_⟩
      rw [cons_append, scanPieces, map_cons, Piece.char]
      simp only [count_cons] at hlt ⊢
      omega
    | plain c =>
      rw [cons_append, scanPieces, map_cons, Piece.char]
      by_cases hc : isQuote c
      · refine ⟨c, hc, ?_⟩
        have hle := hopen c hc ps
        rw [if_pos hc]
        simp only [count_cons, beq_self_eq_true, if_true] at hle ⊢
        omega
      · rw [if_neg hc]
        by_cases hspace : isSpace c
        · refine ⟨q, hq, ?_⟩
          rw [if_pos hspace, count_nil, count_cons_self]
          omega
        · obtain ⟨x, hx, hlt⟩ := ih
          refine ⟨x, hx, ?_⟩
          rw [if_neg hspace]
          simp only [count_cons] at hlt ⊢
          omega

/-- **A quote of the kind that is open, before the last one: some quote is lost.** -/
theorem scanPieces_loses_quote (hq : isQuote q)
    (htail : ∀ c ∈ tail.map Piece.char, isQuote c = false) {ps : List Piece} (h : Piece.plain q ∈ ps) :
    ∃ x, isQuote x ∧
      (scanPieces (some q) (ps ++ .plain q :: tail)).count x < (ps.map Piece.char).count x := by
  obtain ⟨before, after, rfl, hbefore⟩ := eq_append_cons_of_mem h
  obtain ⟨x, hx, hlt⟩ := scanPieces_none_loses hq htail after
  refine ⟨x, hx, ?_⟩
  rw [append_assoc, scanPieces_keep hbefore, cons_append, scanPieces_close,
    count_append, map_append, count_append, map_cons, Piece.char]
  omega

end Lost

/-! ## 3. Texts that are words as they stand -/

/-- A text without quotes and spaces, and without a backslash that takes a character along, before
    the end or a space. -/
structure Bare (text tail : List Char) : Prop where
  chars : ∀ c ∈ text, isQuote c = false ∧ isSpace c = false
  backslash : '\\' ∉ text ∨ tail = [] ∧ '\\' ∉ text.dropLast
  ended : ∀ c ∈ tail.head?, isSpace c = true

theorem whole_of_no_backslash (h : '\\' ∉ cs) : Whole cs := by
  rw [Whole, pieces_of_no_backslash h]
  simpa using h

theorem scanPieces_white (hq : ∀ q ∈ quote, isQuote q) {z : Char}
    (hz : isWhitespace z) (ps : List Piece) :
    scanPieces quote (.plain z :: ps) =
      if quote = none ∧ isSpace z then [] else z :: scanPieces quote ps := by
  cases quote with
  | none =>
    rw [scanPieces, if_neg (by simp [(white_ne hz).1])]
    exact if_congr (by simp) rfl rfl
  | some q =>
    have hne : z ≠ q := by
      intro e
      have hno := (white_ne hz).1
      rw [e, hq q rfl] at hno
      cases hno
    rw [scanPieces, if_neg hne, if_neg (by simp)]

theorem of_scanPieces_eq_self (h : scanPieces none (pieces text) = text) :
    (∀ c ∈ text, isQuote c = false ∧ isSpace c = false) ∧ pieces text = text.map .plain := by
  have hlen : text.length ≤ (pieces text).length := by
    have hle := (scanPieces_sublist none (pieces text)).length_le
    rwa [h, length_map] at hle
  have hplain := pieces_eq_map_of_length hlen
  rw [hplain] at h
  exact ⟨of_scanPieces_map_plain h, hplain⟩

/-- **The texts that are words as they stand**, before the end or white space that no end of the text
    is a part of. -/
theorem word_eq_self_iff {tail : List Char} (htail : ∀ c ∈ tail.head?, isWhitespace c)
    (hsolid : ∀ part, part ≠ [] → part <:+ text → part.head? = tail.head? → (∀ c ∈ part, c ∈ tail) → False) :
    scanPieces none (pieces (text ++ tail)) = text ↔ Bare text tail := by
  cases tail with
  | nil =>
    rw [append_nil]
    constructor
    · intro h
      obtain ⟨hchars, hplain⟩ := of_scanPieces_eq_self h
      exact ⟨hchars, .inr ⟨rfl, (pieces_eq_map_iff text).mp hplain⟩, fun c hc => nomatch hc⟩
    · intro h
      have hlast : '\\' ∉ text.dropLast := by
        rcases h.backslash with hno | ⟨-, hno⟩
        · exact fun hmem => hno (dropLast_subset text hmem)
        · exact hno
      have hword := scanPieces_map_plain h.chars []
      rwa [append_nil, scanPieces, append_nil, ← (pieces_eq_map_iff text).mpr hlast] at hword
  | cons z tail =>
    have hz : isWhitespace z := htail z rfl
    have hcut : pieces (z :: tail) = .plain z :: pieces tail := pieces_cons (white_ne hz).2.1 tail
    have hbehind : ∀ quote, ∀ c ∈ z :: scanPieces quote (pieces tail), c ∈ z :: tail :=
      fun quote => cons_subset_cons z fun c hc =>
        mem_of_mem_pieces ((scanPieces_sublist quote (pieces tail)).subset hc)
    constructor
    · intro h
      -- nothing of what stands behind the text is part of the word
      by_cases hwhole : Whole text
      · rw [pieces_append text _ hwhole, hcut] at h
        have hself : scanPieces none (pieces text) = text := by
          rcases continues no_quote_open (pieces text) with ⟨quote, hquote, hread⟩ | hend
          · rw [hread, scanPieces_white hquote hz] at h
            split at h
            · rwa [append_nil] at h
            · exact (hsolid _ (cons_ne_nil _ _) ⟨_, h⟩ rfl (hbehind quote)).elim
          · rwa [hend] at h
        obtain ⟨hchars, hplain⟩ := of_scanPieces_eq_self hself
        have hbackslash : '\\' ∉ text := by
          intro hmem
          rw [Whole, hplain] at hwhole
          exact hwhole (mem_map_of_mem hmem)
        refine ⟨hchars, .inl hbackslash, fun c hc => ?_⟩
        cases hc
        rw [hplain, scanPieces_map_plain hchars, scanPieces_white no_quote_open hz] at h
        split at h
        · exact (by assumption : none = none ∧ isSpace z).2
        · exact absurd h (by simp)
      · obtain ⟨front, rfl, hfront⟩ := exists_of_not_whole text hwhole
        rw [pieces_snoc_append hfront] at h
        rcases continues no_quote_open (pieces front) with ⟨quote, hquote, hread⟩ | hend
        · rw [hread, scanPieces] at h
          exact (hsolid _ (cons_ne_nil _ _) ⟨_, h⟩ rfl (hbehind quote)).elim
        · rw [hend] at h
          have hle := (scanPieces_sublist none (pieces front)).length_le
          have hle' := length_pieces_le front
          rw [h, length_map, length_append, length_singleton] at hle
          omega
    · intro h
      have hbackslash : '\\' ∉ text := h.backslash.resolve_right fun hno => nomatch hno.1
      rw [pieces_append text _ (whole_of_no_backslash hbackslash),
        pieces_of_no_backslash hbackslash, scanPieces_map_plain h.chars, hcut,
        scanPieces_white no_quote_open hz, if_pos ⟨rfl, h.ended z rfl⟩, append_nil]

end DcuDaemon.Lib
