/-
  The two parsers of the configuration file compared, line by line.

  Main result: `parseLine_agrees_iff`.
-/
import DcuDaemon.Config.Parse
import DcuDaemon.Wfantund.ConfigFile

namespace DcuDaemon.Wfantund

open Lib Config List Option

/-! ## 1. The lines that are read alike -/

/-- The inside of quotes that both read alike: every backslash has its character, not `n` or `t`, and every
    quote its backslash. -/
structure Clean (q : Char) (inner : List Char) : Prop where
  whole : Whole inner
  no_quote : Piece.plain q ∉ pieces inner
  no_newline : Piece.escaped 'n' ∉ pieces inner
  no_tab : Piece.escaped 't' ∉ pieces inner

/-- The values that both parsers read alike, behind the white space `mid` and before `tail`. -/
inductive SameValue (mid value tail : List Char) : Prop where
  /-- A value that is one word as it stands. -/
  | bare (hmid : ∀ c ∈ mid, isSpace c = true) (hcomment : value.head? ≠ some '#') (hbare : Bare value tail)
  /-- A value in quotes. -/
  | quoted (hmid : ∀ c ∈ mid, isSpace c = true) {q : Char} {inner : List Char}
      (hq : isQuote q = true) (hvalue : value = q :: (inner ++ [q])) (hclean : Clean q inner)
      (hended : ∀ c ∈ tail.head?, isSpace c = true)
  /-- White space that is none to C is its value, and the same stands in the quotes. -/
  | white {before word after : List Char} (hmid : mid = before ++ (word ++ after))
      (hbefore : ∀ c ∈ before, isSpace c = true) (hword : word ≠ [])
      (hsolid : ∀ c ∈ word, isSpace c = false) (hne : after ≠ [])
      (hafter : ∀ c ∈ after.head?, isSpace c = true) {q : Char} {inner : List Char}
      (hq : isQuote q = true) (hvalue : value = q :: (inner ++ [q])) (hsame : unescape inner = word)

/-- The lines with a key and a value that both parsers read alike. -/
structure SameEntry (e : Entry) (eol : List Char) : Prop where
  lead : ∀ c ∈ e.lead, isSpace c = true
  key : ∀ c ∈ e.key, isQuote c = false ∧ c ≠ '\\'
  separator : ∀ c ∈ e.mid.head?, isSpace c = true
  value : SameValue e.mid.tail e.value (e.trail ++ eol)

/-! ## 2. Arguments -/

variable {c : Char} {text content : List Char}

theorem isSpace_of_solid (h : isWhitespace c = false) : isSpace c = false := by
  by_contra hspace
  rw [isWhitespace_of_isSpace (Bool.eq_true_of_not_eq_false hspace)] at h
  cases h

theorem getNextArg_append {before : List Char} (hbefore : ∀ c ∈ before, isSpace c) :
    getNextArg (before ++ text) = getNextArg text := by
  rw [getNextArg, getNextArg, dropWhile_append_of_pos hbefore]

theorem getNextArg_cons (hspace : isSpace c = false) (hc : c ≠ '#') (text : List Char) :
    getNextArg (c :: text) = (some (scanArg none (c :: text)).1, (scanArg none (c :: text)).2) := by
  rw [getNextArg, dropWhile_cons_of_neg (by simp [hspace])]
  exact if_neg (by simp [hc])

theorem scanPieces_white_append {word : List Char} (hwhite : ∀ c ∈ word, isWhitespace c)
    (hsolid : ∀ c ∈ word, isSpace c = false) (text : List Char) :
    scanPieces none (pieces (word ++ text)) = word ++ scanPieces none (pieces text) := by
  have hbackslash : '\\' ∉ word := fun hmem => (white_ne (hwhite _ hmem)).2.1 rfl
  rw [pieces_append word _ (whole_of_no_backslash hbackslash), pieces_of_no_backslash hbackslash,
    scanPieces_map_plain fun c hc => ⟨(white_ne (hwhite c hc)).1, hsolid c hc⟩]

theorem scanPieces_space (hne : text ≠ []) (hspace : ∀ c ∈ text.head?, isSpace c) (rest : List Char) :
    scanPieces none (pieces (text ++ rest)) = [] := by
  obtain ⟨c, text, rfl⟩ := exists_cons_of_ne_nil hne
  have hwhite := isWhitespace_of_isSpace (hspace c rfl)
  rw [cons_append, pieces_cons (white_ne hwhite).2.1, scanPieces_white no_quote_open hwhite,
    if_pos ⟨rfl, hspace c rfl⟩]

/-! ## 3. Values in quotes -/

section Quoted

variable {q : Char} {before inner tail : List Char}

theorem count_white {text : List Char} (h : ∀ c ∈ text, isWhitespace c) {x : Char}
    (hx : isQuote x ∨ x = '\\') : text.count x = 0 := by
  refine count_eq_zero.mpr fun hmem => ?_
  obtain ⟨hquote, hslash, -⟩ := white_ne (h x hmem)
  rcases hx with hx | hx
  · rw [hquote] at hx
    cases hx
  · exact hslash hx

theorem scanPieces_open (hq : isQuote q) (text : List Char) :
    scanPieces none (pieces (q :: text)) = scanPieces (some q) (pieces text) := by
  rw [pieces_cons (quote_ne hq).2.1, scanPieces, if_pos hq]

/-- With a backslash before the last quote: one parser keeps it, the other takes it off. -/
theorem quoted_word_not_whole (hq : isQuote q)
    (hbefore : ∀ c ∈ before, isWhitespace c) (htail : ∀ c ∈ tail, isWhitespace c)
    (hwhole : ¬ Whole inner) :
    before ++ scanPieces none (pieces (q :: (inner ++ q :: tail))) ≠ unescape inner := by
  intro h
  obtain ⟨front, rfl, hfront⟩ := exists_of_not_whole inner hwhole
  have hcut : pieces (front ++ ['\\'] ++ q :: tail) =
      pieces front ++ .escaped q :: pieces tail := pieces_snoc_append hfront q tail
  have hnone : ((pieces tail).map Piece.char).count '\\' = 0 :=
    count_eq_zero.mpr fun hmem => (white_ne (htail _ (mem_of_mem_pieces hmem))).2.1 rfl
  have hle := (scanPieces_sublist (some q) (pieces front ++ .escaped q :: pieces tail)).count_le '\\'
  have heq := congrArg (count '\\') h
  rw [scanPieces_open hq, hcut, count_append, count_white hbefore (.inr rfl), unescape_eq,
    count_unescapePiece (.inr rfl), pieces_append front _ hfront, map_append, count_append] at heq
  rw [map_append, map_cons, Piece.char, count_append, count_cons_of_ne (quote_ne hq).2.1] at hle
  have hlast : ((pieces ['\\']).map Piece.char).count '\\' = 1 := by decide
  omega

theorem quoted_word_quote (hq : isQuote q)
    (hbefore : ∀ c ∈ before, isWhitespace c) (htail : ∀ c ∈ tail, isWhitespace c)
    (hwhole : Whole inner) (hquote : Piece.plain q ∈ pieces inner) :
    before ++ scanPieces none (pieces (q :: (inner ++ q :: tail))) ≠ unescape inner := by
  intro h
  have htailquote : ∀ c ∈ (pieces tail).map Piece.char, isQuote c = false := fun c hc =>
    (white_ne (htail c (mem_of_mem_pieces hc))).1
  obtain ⟨x, hx, hlt⟩ := scanPieces_loses_quote hq htailquote hquote
  have heq := congrArg (count x) h
  rw [scanPieces_open hq, pieces_append inner _ hwhole, pieces_cons (quote_ne hq).2.1,
    count_append, count_white hbefore (.inl hx), unescape_eq, count_unescapePiece (.inl hx)] at heq
  omega

theorem quoted_word_eq (hq : isQuote q) (hwhole : Whole inner)
    (hquote : Piece.plain q ∉ pieces inner) : scanPieces none (pieces (q :: (inner ++ q :: tail))) =
      (pieces inner).map Piece.char ++ scanPieces none (pieces tail) := by
  rw [scanPieces_open hq, pieces_append inner _ hwhole, pieces_cons (quote_ne hq).2.1,
    scanPieces_keep hquote, scanPieces_close]

theorem scanPieces_tail_iff (htail : ∀ c ∈ tail, isWhitespace c) :
    scanPieces none (pieces tail) = [] ↔ ∀ c ∈ tail.head?, isSpace c := by
  cases tail with
  | nil => exact iff_of_true rfl fun c hc => nomatch hc
  | cons z tail =>
    have hz := htail z mem_cons_self
    rw [pieces_cons (white_ne hz).2.1, scanPieces_white no_quote_open hz]
    by_cases hspace : isSpace z
    · rw [if_pos ⟨rfl, hspace⟩]
      refine iff_of_true rfl fun c hc => ?_
      cases hc
      exact hspace
    · rw [if_neg fun h => hspace h.2]
      exact iff_of_false (cons_ne_nil _ _) fun h => hspace (h z rfl)

theorem map_char_eq_iff (ps : List Piece) :
    ps.map Piece.char = ps.map unescapePiece ↔ Piece.escaped 'n' ∉ ps ∧ Piece.escaped 't' ∉ ps := by
  rw [map_inj_left]
  constructor
  · intro h
    exact ⟨fun hmem => absurd (h _ hmem) (by decide), fun hmem => absurd (h _ hmem) (by decide)⟩
  · intro h p hp
    cases p with
    | plain c => rfl
    | escaped c =>
      refine ((unescapeChar_eq_self_iff c).mpr ⟨fun e => h.1 (e ▸ hp), fun e => h.2 (e ▸ hp)⟩).symm

/-- **A value in quotes**, with white space before it that C has taken for a part of it. -/
theorem quoted_word_iff (hq : isQuote q) {before : List Char}
    (hbefore : ∀ c ∈ before, isWhitespace c) (inner : List Char) (htail : ∀ c ∈ tail, isWhitespace c) :
    before ++ scanPieces none (pieces (q :: (inner ++ q :: tail))) = unescape inner ↔
      before = [] ∧ Clean q inner ∧ ∀ c ∈ tail.head?, isSpace c := by
  by_cases hwhole : Whole inner
  · by_cases hquote : Piece.plain q ∈ pieces inner
    · exact iff_of_false (quoted_word_quote hq hbefore htail hwhole hquote) fun h => h.2.1.no_quote hquote
    · rw [quoted_word_eq hq hwhole hquote, unescape_eq, ← scanPieces_tail_iff htail]
      constructor
      · intro h
        have hlen := congrArg length h
        simp only [length_append, length_map] at hlen
        have hnil : before = [] := eq_nil_of_length_eq_zero (by omega)
        have hend : scanPieces none (pieces tail) = [] := eq_nil_of_length_eq_zero (by omega)
        rw [hnil, hend, nil_append, append_nil, map_char_eq_iff] at h
        exact ⟨hnil, ⟨hwhole, hquote, h.1, h.2⟩, hend⟩
      · intro ⟨hnil, hclean, hend⟩
        rw [hnil, hend, nil_append, append_nil, map_char_eq_iff]
        exact ⟨hclean.no_newline, hclean.no_tab⟩
  · exact iff_of_false (quoted_word_not_whole hq hbefore htail hwhole) fun h => hwhole h.2.1.whole

end Quoted

/-! ## 4. Values -/

section Value

variable {mid value tail : List Char}

theorem value_arg (hmid : ∀ c ∈ mid, isSpace c) (hne : value ≠ [])
    (hfirst : ∀ c ∈ value.head?, isSpace c = false) (v : List Char) :
    (getNextArg (mid ++ (value ++ tail))).1 = some v ↔
      value.head? ≠ some '#' ∧ scanPieces none (pieces (value ++ tail)) = v := by
  obtain ⟨c, text, rfl⟩ := exists_cons_of_ne_nil hne
  rw [getNextArg_append hmid, cons_append]
  by_cases hc : c = '#'
  · subst hc
    exact iff_of_false (fun h => nomatch h) fun h => h.1 rfl
  · rw [getNextArg_cons (hfirst c rfl) hc, scanArg_fst no_quote_open, some.injEq]
    exact (and_iff_right (by simpa using hc)).symm

theorem space_cases (mid : List Char) : (∀ c ∈ mid, isSpace c) ∨
      ∃ before word after, mid = before ++ (word ++ after) ∧ (∀ c ∈ before, isSpace c) ∧
        word ≠ [] ∧ (∀ c ∈ word, isSpace c = false) ∧ ∀ c ∈ after.head?, isSpace c := by
  obtain ⟨rest, hrest⟩ : ∃ rest, rest = mid.dropWhile isSpace := ⟨_, rfl⟩
  have hmid : mid = mid.takeWhile isSpace ++ rest := by
    rw [hrest, takeWhile_append_dropWhile]
  cases rest with
  | nil => exact .inl (dropWhile_eq_nil_iff.mp hrest.symm)
  | cons z rest =>
    have hz : isSpace z = false := head_dropWhile isSpace mid z (by rw [← hrest]; rfl)
    refine .inr ⟨mid.takeWhile isSpace, (z :: rest).takeWhile fun c => !isSpace c,
      (z :: rest).dropWhile fun c => !isSpace c, ?_, fun c hc => mem_takeWhile_imp hc, ?_, ?_, ?_⟩
    · rw [takeWhile_append_dropWhile, ← hmid]
    · rw [takeWhile_cons_of_pos (by simp [hz])]
      exact cons_ne_nil _ _
    · intro c hc
      simpa using mem_takeWhile_imp hc
    · intro c hc
      simpa using head_dropWhile (fun c => !isSpace c) (z :: rest) c hc

theorem value_solid (htrim : Trimmed value) (htail : ∀ c ∈ tail, isWhitespace c)
    (part : List Char) (hne : part ≠ []) (hpart : part <:+ value) (hmem : ∀ c ∈ part, c ∈ tail) :
    False := by
  obtain ⟨front, rfl⟩ := hpart
  have hlast := htrim.2 (part.getLast hne) (by
    rw [getLast?_append_of_ne_nil _ hne]
    exact getLast?_eq_some_getLast hne)
  rw [htail _ (hmem _ (getLast_mem hne))] at hlast
  cases hlast

theorem white_arg {before word : List Char} (hbefore : ∀ c ∈ before, isSpace c)
    (hwhite : ∀ c ∈ word, isWhitespace c) (hword : word ≠ [])
    (hsolid : ∀ c ∈ word, isSpace c = false) (rest : List Char) :
    (getNextArg (before ++ (word ++ rest))).1 = some (word ++ scanPieces none (pieces rest)) := by
  have hread := scanPieces_white_append hwhite hsolid rest
  obtain ⟨z, word, rfl⟩ := exists_cons_of_ne_nil hword
  have hz : isSpace z = false := hsolid z mem_cons_self
  rw [getNextArg_append hbefore, cons_append,
    getNextArg_cons hz (white_ne (hwhite z mem_cons_self)).2.2, scanArg_fst no_quote_open,
    ← cons_append, hread]

theorem quoted_value_iff {q : Char} (hq : isQuote q) (inner : List Char)
    (hmid : ∀ c ∈ mid, isSpace c) (htail : ∀ c ∈ tail, isWhitespace c) :
    (getNextArg (mid ++ (q :: (inner ++ [q]) ++ tail))).1 = some (unescape inner) ↔
      Clean q inner ∧ ∀ c ∈ tail.head?, isSpace c := by
  obtain ⟨hspace, -, hcomment⟩ := quote_ne hq
  have hiff := quoted_word_iff hq (forall_mem_nil _) inner htail
  rw [nil_append, and_iff_right rfl] at hiff
  rw [value_arg hmid (cons_ne_nil _ _) (by simpa using hspace),
    and_iff_right (by simpa using hcomment), ← hiff, cons_append, append_assoc, singleton_append]

/-- **The values that both parsers read alike.** -/
theorem value_iff (hwhite : ∀ c ∈ mid, isWhitespace c) (hne : value ≠ [])
    (htrim : Trimmed value) (htail : ∀ c ∈ tail, isWhitespace c) :
    (∃ v, unquote value = .ok v ∧ (getNextArg (mid ++ (value ++ tail))).1 = some v) ↔
      SameValue mid value tail := by
  have hfirst : ∀ c ∈ value.head?, isSpace c = false := fun c hc => isSpace_of_solid (htrim.1 c hc)
  have hbare : scanPieces none (pieces (value ++ tail)) = value ↔ Bare value tail :=
    word_eq_self_iff (fun c hc => htail c (mem_of_mem_head? hc))
      fun part hpne hpart _ hmem => value_solid htrim htail part hpne hpart hmem
  constructor
  · intro ⟨v, hv, harg⟩
    rcases space_cases mid with hmid | ⟨before, word, after, rfl, hbefore, hword, hsolid, hafter⟩
    · rcases unquote_cases value with hplain | ⟨q, inner, hq, rfl⟩ | ⟨err, herr⟩
      · rw [unquote_bare hplain, Except.ok.injEq] at hv
        rw [value_arg hmid hne hfirst, ← hv, hbare] at harg
        exact .bare hmid harg.1 harg.2
      · rw [unquote_quoted hq, Except.ok.injEq] at hv
        rw [← hv, quoted_value_iff hq inner hmid htail] at harg
        exact .quoted hmid hq rfl harg.1 harg.2
      · rw [herr] at hv
        cases hv
    · have hww : ∀ c ∈ word, isWhitespace c := fun c hc =>
        hwhite c (mem_append_right _ (mem_append_left _ hc))
      rw [append_assoc, append_assoc, white_arg hbefore hww hword hsolid, some.injEq] at harg
      rcases unquote_cases value with hplain | ⟨q, inner, hq, rfl⟩ | ⟨err, herr⟩
      · -- the argument begins with white space, and the value does not
        rw [unquote_bare hplain, Except.ok.injEq] at hv
        obtain ⟨z, word, rfl⟩ := exists_cons_of_ne_nil hword
        have hz := htrim.1 z (by rw [hv, ← harg]; rfl)
        rw [hww z mem_cons_self] at hz
        cases hz
      · rw [unquote_quoted hq, Except.ok.injEq] at hv
        rw [← hv] at harg
        by_cases hnil : after = []
        · rw [hnil, nil_append, cons_append, append_assoc, singleton_append,
            quoted_word_iff hq hww inner htail] at harg
          exact absurd harg.1 hword
        · rw [scanPieces_space hnil hafter, append_nil] at harg
          exact .white rfl hbefore hword hsolid hnil hafter hq rfl harg.symm
      · rw [herr] at hv
        cases hv
  · intro h
    cases h with
    | bare hmid hcomment hword =>
      refine ⟨value, unquote_bare fun c hc => (hword.chars c (mem_of_mem_head? hc)).1, ?_⟩
      rw [value_arg hmid hne hfirst]
      exact ⟨hcomment, hbare.mpr hword⟩
    | quoted hmid hq hvalue hclean hended =>
      subst hvalue
      exact ⟨_, unquote_quoted hq _, (quoted_value_iff hq _ hmid htail).mpr ⟨hclean, hended⟩⟩
    | white hmid hbefore hword hsolid hafterne hafter hq hvalue hsame =>
      subst hvalue
      subst hmid
      refine ⟨_, unquote_quoted hq _, ?_⟩
      rw [append_assoc, append_assoc, white_arg hbefore _ hword hsolid,
        scanPieces_space hafterne hafter, append_nil, hsame]
      exact fun c hc => hwhite c (mem_append_right _ (mem_append_left _ hc))

end Value

/-! ## 5. Keys -/

section Key

variable (e : Entry) (eol : List Char)

theorem raw_eq : e.text ++ eol = e.lead ++ (e.key ++ (e.mid ++ (e.value ++ (e.trail ++ eol)))) := by
  simp only [Entry.text, append_assoc]

theorem key_solid_part {rest : List Char} (part : List Char) (hne : part ≠ []) (hpart : part <:+ e.key)
    (hhead : part.head? = (e.mid ++ rest).head?) : False := by
  obtain ⟨w, mid, hmid⟩ := exists_cons_of_ne_nil e.mid_ne
  obtain ⟨c, part, rfl⟩ := exists_cons_of_ne_nil hne
  rw [hmid, cons_append, head?_cons, head?_cons, some.injEq] at hhead
  have hwhite := e.mid_white w (by rw [hmid]; exact mem_cons_self)
  rw [← hhead, e.key_solid c (hpart.subset mem_cons_self)] at hwhite
  cases hwhite

theorem key_rest (hlead : ∀ c ∈ e.lead, isSpace c) (hkey : ∀ c ∈ e.key, isQuote c = false ∧ c ≠ '\\')
    (hsep : ∀ c ∈ e.mid.head?, isSpace c) (rest : List Char) :
    getNextArg (e.lead ++ (e.key ++ (e.mid ++ rest))) = (some e.key, e.mid.tail ++ rest) := by
  obtain ⟨w, mid, hmid⟩ := exists_cons_of_ne_nil e.mid_ne
  have hscan : scanArg none (e.key ++ w :: (mid ++ rest)) = (e.key, mid ++ rest) :=
    scanArg_bare (fun c hc => ⟨(hkey c hc).1, isSpace_of_solid (e.key_solid c hc), (hkey c hc).2⟩)
      (hsep w (by rw [hmid]; rfl)) (mid ++ rest)
  obtain ⟨c, key, hc⟩ := exists_cons_of_ne_nil e.key_ne
  have hspace : isSpace c = false := isSpace_of_solid (e.key_solid c (by rw [hc]; exact mem_cons_self))
  have hcomment : c ≠ '#' := fun hhash => e.key_first (by rw [hc, hhash]; rfl)
  rw [hmid, cons_append, getNextArg_append hlead]
  rw [hc] at hscan ⊢
  rw [cons_append] at hscan ⊢
  rw [getNextArg_cons hspace hcomment, hscan, tail_cons]

/-- **The keys that both parsers read alike.** -/
theorem key_iff (rest : List Char) :
    (getNextArg (e.lead ++ (e.key ++ (e.mid ++ rest)))).1 = some e.key ↔
      (∀ c ∈ e.lead, isSpace c) ∧ (∀ c ∈ e.key, isQuote c = false ∧ c ≠ '\\') ∧
        ∀ c ∈ e.mid.head?, isSpace c := by
  constructor
  · intro h
    rcases space_cases e.lead with hlead | ⟨before, word, after, hsplit, hbefore, hword, hsolid, -⟩
    · have hmidhead : (e.mid ++ rest).head? = e.mid.head? := head?_append_of_ne_nil _ e.mid_ne
      have hbare : Bare e.key (e.mid ++ rest) := by
        rw [value_arg hlead e.key_ne fun c hc =>
          isSpace_of_solid (e.key_solid c (mem_of_mem_head? hc))] at h
        refine (word_eq_self_iff (fun c hc => ?_) fun part hne hpart hhead _ =>
          key_solid_part e part hne hpart hhead).mp h.2
        rw [hmidhead] at hc
        exact e.mid_white c (mem_of_mem_head? hc)
      have hslash : '\\' ∉ e.key := hbare.backslash.resolve_right fun hno =>
        e.mid_ne (append_eq_nil_iff.mp hno.1).1
      refine ⟨hlead, fun c hc => ⟨(hbare.chars c hc).1, fun heq => hslash (heq ▸ hc)⟩, ?_⟩
      rw [← hmidhead]
      exact hbare.ended
    · -- the argument begins with white space, and the key has none
      have hww : ∀ c ∈ word, isWhitespace c := fun c hc =>
        e.lead_white c (by rw [hsplit]; exact mem_append_right _ (mem_append_left _ hc))
      rw [hsplit, append_assoc, append_assoc, white_arg hbefore hww hword hsolid, some.injEq] at h
      obtain ⟨z, word, rfl⟩ := exists_cons_of_ne_nil hword
      have hz := e.key_solid z (by rw [← h]; exact mem_cons_self)
      rw [hww z mem_cons_self] at hz
      cases hz
  · intro ⟨hlead, hkey, hsep⟩
    rw [key_rest e hlead hkey hsep]

end Key

/-! ## 6. Lines -/

/-- **The entries that both parsers read alike.** -/
theorem entry_iff (e : Entry) {eol : List Char} (heol : ∀ c ∈ eol, isWhitespace c) :
    (∃ v, unquote e.value = .ok v ∧ freadLine (e.text ++ eol) = some (e.key, v)) ↔ SameEntry e eol := by
  have htail : ∀ c ∈ e.trail ++ eol, isWhitespace c := by
    intro c hc
    rcases mem_append.mp hc with hc | hc
    · exact e.trail_white c hc
    · exact heol c hc
  have hvalue := value_iff (fun c hc => e.mid_white c (mem_of_mem_tail hc)) e.value_ne e.value_trimmed htail
  rw [freadLine_eq, raw_eq]
  constructor
  · intro ⟨v, hv, hread⟩
    obtain ⟨key, hkey, hrest⟩ := bind_eq_some_iff.mp hread
    obtain ⟨value, harg, hpair⟩ := map_eq_some_iff.mp hrest
    obtain ⟨rfl, rfl⟩ := Prod.mk.inj hpair
    obtain ⟨hlead, hplain, hsep⟩ := (key_iff e _).mp hkey
    rw [key_rest e hlead hplain hsep] at harg
    exact ⟨hlead, hplain, hsep, hvalue.mp ⟨_, hv, harg⟩⟩
  · intro h
    obtain ⟨v, hv, harg⟩ := hvalue.mpr h.value
    refine ⟨v, hv, ?_⟩
    rw [key_rest e h.lead h.key h.separator, bind_some, harg, map_some]

structure ConfigLine where
  text : List Char
  terminated : Bool
  no_newline : '\n' ∉ text
  no_nul : '\x00' ∉ text

namespace ConfigLine

def eol (line : ConfigLine) : List Char := if line.terminated then ['\n'] else []

/-- The line as `fgetln` returns it. -/
def raw (line : ConfigLine) : List Char := line.text ++ line.eol

theorem eol_white (line : ConfigLine) : ∀ c ∈ line.eol, isWhitespace c := by
  unfold eol
  cases line.terminated with
  | false => exact fun c hc => nomatch hc
  | true => exact forall_mem_singleton.mpr rfl

theorem parseLine_stripEnd (line : ConfigLine) : parseLine (stripEnd line.raw) = parseLine line.text := by
  have htrim : trim (stripEnd line.raw) = trim line.text := by
    rw [stripEnd, raw, eol]
    cases line.terminated with
    | false =>
      have hlast : line.text.getLast? ≠ some '\n' := fun h =>
        line.no_newline (mem_of_mem_getLast? h)
      simp [hlast]
    | true =>
      simp only [if_true, getLast?_concat, dropLast_concat]
      split
      · have hreturn := dropLast_append_getLast? '\r' (by assumption)
        have heq : trim (line.text.dropLast ++ ['\r']) = trim line.text.dropLast :=
          trim_append_white _ (forall_mem_singleton.mpr rfl)
        rw [hreturn] at heq
        exact heq.symm
      · rfl
  rw [parseLine, parseLine, htrim]

end ConfigLine

/-- White space to C, up to the end or to a comment. -/
def NoArg (text : List Char) : Prop := text.dropWhile isSpace = [] ∨ (text.dropWhile isSpace).head? = some '#'

/-- The lines that both parsers skip (to C there is no argument, or none behind the first), and the
    entries that both read alike. -/
def SameLine (line : ConfigLine) : Prop :=
  (Skipped line.text ∧ (NoArg line.raw ∨ NoArg (scanArg none (line.raw.dropWhile isSpace)).2)) ∨
    ∃ e : Entry, e.text = line.text ∧ SameEntry e line.eol

theorem getNextArg_eq_none_iff (text : List Char) : (getNextArg text).1 = none ↔ NoArg text := by
  rw [getNextArg, NoArg]
  split
  · exact iff_of_true rfl (by assumption)
  · exact iff_of_false (Option.some_ne_none _) (by assumption)

theorem freadLine_eq_none_iff (text : List Char) :
    freadLine text = none ↔ NoArg text ∨ NoArg (scanArg none (text.dropWhile isSpace)).2 := by
  rw [freadLine_eq, ← getNextArg_eq_none_iff]
  by_cases hnone : NoArg text
  · rw [(getNextArg_eq_none_iff text).mpr hnone]
    exact iff_of_true rfl (.inl rfl)
  · have hsome : getNextArg text = (some (scanArg none (text.dropWhile isSpace)).1,
        (scanArg none (text.dropWhile isSpace)).2) := if_neg hnone
    rw [hsome, ← getNextArg_eq_none_iff]
    simp

theorem agrees_of_sameLine {line : ConfigLine} (h : SameLine line) :
    parseLine (stripEnd line.raw) = .ok (freadLine line.raw) := by
  rw [line.parseLine_stripEnd]
  rcases h with ⟨hskip, hnone⟩ | ⟨e, he, hsame⟩
  · rw [parseLine_skipped hskip, (freadLine_eq_none_iff _).mpr hnone]
  · obtain ⟨v, hv, hread⟩ := (entry_iff e line.eol_white).mpr hsame
    rw [he] at hread
    rw [ConfigLine.raw, hread, ← he, e.parseLine_text, hv]
    rfl

/-- **Both parsers make the same of a line** exactly if both skip it, or it is an entry that both read
    alike. -/
theorem parseLine_agrees_iff (line : ConfigLine) :
    parseLine (stripEnd line.raw) = .ok (freadLine line.raw) ↔ SameLine line := by
  refine ⟨fun h => ?_, agrees_of_sameLine⟩
  rw [line.parseLine_stripEnd] at h
  rcases line_cases line.text with hskip | ⟨err, herr⟩ | ⟨e, he⟩
  · rw [parseLine_skipped hskip, Except.ok.injEq] at h
    exact .inl ⟨hskip, (freadLine_eq_none_iff _).mp h.symm⟩
  · rw [herr] at h
    cases h
  · refine .inr ⟨e, he, (entry_iff e line.eol_white).mp ?_⟩
    rw [← he, e.parseLine_text] at h
    rw [he]
    cases hv : unquote e.value with
    | error err =>
      rw [hv] at h
      cases h
    | ok v =>
      rw [hv] at h
      exact ⟨v, rfl, (Except.ok.inj h).symm⟩

/-- `Config:TUN:InterfaceName wfan0 # comment`. -/
def commentedLine : ConfigLine where
  text := "Config:TUN:InterfaceName wfan0 # comment".toList
  terminated := true
  no_newline := by decide
  no_nul := by decide

/-- A comment behind a value is a part of it to one parser, and not to the other. -/
theorem comment_behind_value : parseLine (stripEnd commentedLine.raw) =
        .ok (some ("Config:TUN:InterfaceName".toList, "wfan0 # comment".toList)) ∧
      freadLine commentedLine.raw = some ("Config:TUN:InterfaceName".toList, "wfan0".toList) := by
  decide +kernel

end DcuDaemon.Wfantund
