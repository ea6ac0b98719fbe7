/-
  The parser of pack formats (`crates/spinel/src/property.rs`, `parse_tokens`) against the language of
  formats: letters, and groups `t(...)` and `A(...)`.

  Behind a group the position is moved on twice, past the closing bracket and once more at the end of
  the loop. So the character behind a group is not read, and a group at the end of another one takes
  away that one's bracket.

  Main result: `parse_exact_iff`.
-/
import DcuDaemon.Spinel.PackFormat
import Mathlib.Algebra.GroupWithZero.Nat

namespace DcuDaemon.Spinel

open List

/-! ## 1. The parser -/

/-- The arms of `parse_tokens` for the types of one letter. -/
def typeOf : Char → Option PackType
  | 'b' => some .bool
  | 'C' => some .uint8
  | 'c' => some .int8
  | 'S' => some .uint16
  | 's' => some .int16
  | 'L' => some .uint32
  | 'l' => some .int32
  | 'X' => some .uint64
  | 'x' => some .int64
  | 'i' => some .uintPacked
  | '6' => some .ipv6
  | 'E' => some .eui64
  | 'e' => some .eui48
  | 'D' => some .data
  | 'd' => some .dataWithLen
  | 'U' => some .utf8
  | _ => none

/-- What `parse_tokens` returns: the tokens, and the characters left. `none`: not done within its steps. -/
abbrev Parsed := Option (Except PackFormatError (List PackFormatToken × List Char))

/-- `tokens.push`, in front of what the loop goes on to push. -/
def push (tok : PackFormatToken) (parsed : Parsed) : Parsed :=
  parsed.map fun result => result.map fun (toks, rest) => (tok :: toks, rest)

/-- A group behind its opening bracket: the tokens inside, the bracket, and the loop again, one character
    further on. -/
def parseGroup (parse : List Char → Parsed) (mk : List PackFormatToken → PackFormatToken)
    (rest : List Char) : Parsed :=
  match parse rest with
  | some (.ok (inner, ')' :: after)) => push (mk inner) (parse (after.drop 1))
  | some (.ok _) => some (.error .unbalancedBrackets)
  | stop => stop

/-- `parse_tokens`, within a number of steps. -/
def parseTokens : Nat → List Char → Parsed
  | 0, _ => none
  | _ + 1, [] => some (.ok ([], []))
  | fuel + 1, c :: rest =>
    if c = ')' then some (.ok ([], c :: rest))
    else if c = '(' then parseGroup (parseTokens fuel) .struct rest
    else
      match typeOf c with
      | some type => push (.one type) (parseTokens fuel rest)
      | none =>
        if c = 't' ∨ c = 'A' then
          match rest with
          | '(' :: rest => parseGroup (parseTokens fuel) (if c = 't' then .struct else .array) rest
          | _ => some (.error .unbalancedBrackets)
        else some (.error (.unknownToken c))

/-- `bytes[*pos] as char`. -/
def asChar (b : UInt8) : Char := Char.ofNat b.toNat

/-- The bytes of a format as `parse_tokens` looks at them. -/
def byteChars (fmt : String) : List Char := (asBytes fmt).map asChar

/-- `PackFormat::parse`; as many steps as there are characters are enough. -/
def PackFormat.parse (fmt : String) : Option (Except PackFormatError PackFormat) :=
  (parseTokens ((byteChars fmt).length + 1) (byteChars fmt)).map fun result =>
    result.map fun (toks, _) => ⟨toks⟩

/-! ## 2. The language of formats -/

mutual

def PackFormatToken.render : PackFormatToken → List Char
  | .one type => [type.letter]
  | .struct inner => 't' :: '(' :: (renderAll inner ++ [')'])
  | .array inner => 'A' :: '(' :: (renderAll inner ++ [')'])

def renderAll : List PackFormatToken → List Char
  | [] => []
  | tok :: toks => tok.render ++ renderAll toks

end

/-! ## 3. The language of the parser -/

/-- The openings of a group, and what they make of it. -/
inductive Opening : List Char → (List PackFormatToken → PackFormatToken) → Prop
  | plain : Opening ['('] .struct
  | struct : Opening ['t', '('] .struct
  | array : Opening ['A', '('] .array

/-- What is read up to a closing bracket or the end: letters, and groups with one character behind them. -/
inductive Skewed : List Char → List PackFormatToken → Prop
  | nil : Skewed [] []
  | one {c : Char} {type : PackType} {s : List Char} {toks : List PackFormatToken}
      (hc : typeOf c = some type) (hrest : Skewed s toks) : Skewed (c :: s) (.one type :: toks)
  | group {op body s : List Char} {mk : List PackFormatToken → PackFormatToken}
      {inner toks : List PackFormatToken} (ho : Opening op mk) (hi : Skewed body inner) (x : Char)
      (hrest : Skewed s toks) : Skewed (op ++ body ++ ')' :: x :: s) (mk inner :: toks)

/-- The same with a group at the very end. -/
inductive EndsInGroup : List Char → List PackFormatToken → Prop
  | last {op body : List Char} {mk : List PackFormatToken → PackFormatToken}
      {inner : List PackFormatToken} (ho : Opening op mk) (hi : Skewed body inner) :
      EndsInGroup (op ++ body ++ [')']) [mk inner]
  | one {c : Char} {type : PackType} {s : List Char} {toks : List PackFormatToken}
      (hc : typeOf c = some type) (hrest : EndsInGroup s toks) :
      EndsInGroup (c :: s) (.one type :: toks)
  | group {op body s : List Char} {mk : List PackFormatToken → PackFormatToken}
      {inner toks : List PackFormatToken} (ho : Opening op mk) (hi : Skewed body inner) (x : Char)
      (hrest : EndsInGroup s toks) : EndsInGroup (op ++ body ++ ')' :: x :: s) (mk inner :: toks)

/-- The tokens that the parser returns, and what is behind the position it stops at: the end, also behind a
    group at the end, or a closing bracket. -/
inductive Stops : List Char → List PackFormatToken → List Char → Prop
  | toEnd {s : List Char} {toks : List PackFormatToken} (h : Skewed s toks) : Stops s toks []
  | groupAtEnd {s : List Char} {toks : List PackFormatToken} (h : EndsInGroup s toks) : Stops s toks []
  | toBracket {s : List Char} {toks : List PackFormatToken} (h : Skewed s toks) (after : List Char) :
      Stops (s ++ ')' :: after) toks (')' :: after)

/-- The strings that the parser accepts, with the tokens it returns. -/
def Accepted (s : List Char) (toks : List PackFormatToken) : Prop := ∃ rest, Stops s toks rest

variable {c : Char} {type : PackType} {s rest op s' : List Char} {toks inner : List PackFormatToken}
  {mk : List PackFormatToken → PackFormatToken} {fuel : Nat}

theorem Stops.one (hc : typeOf c = some type) (h : Stops s toks rest) :
    Stops (c :: s) (.one type :: toks) rest := by
  cases h with
  | toEnd h => exact .toEnd (.one hc h)
  | groupAtEnd h => exact .groupAtEnd (.one hc h)
  | toBracket h after => exact .toBracket (.one hc h) after

theorem Stops.of_nil (h : Stops [] toks rest) : toks = [] ∧ rest = [] := by
  generalize hs : ([] : List Char) = s at h
  cases h with
  | toEnd h =>
    cases h with
    | nil => exact ⟨rfl, rfl⟩
    | one => cases hs
    | group => simp at hs
  | groupAtEnd h =>
    cases h with
    | last => simp at hs
    | one => cases hs
    | group => simp at hs
  | toBracket => simp at hs

theorem Stops.group {body after : List Char} (ho : Opening op mk) (hi : Skewed body inner)
    (h : Stops (after.drop 1) toks rest) : Stops (op ++ body ++ ')' :: after) (mk inner :: toks) rest := by
  cases after with
  | nil =>
    obtain ⟨rfl, rfl⟩ := Stops.of_nil h
    exact .groupAtEnd (.last ho hi)
  | cons x s =>
    change Stops s toks rest at h
    cases h with
    | toEnd h => exact .toEnd (.group ho hi x h)
    | groupAtEnd h => exact .groupAtEnd (.group ho hi x h)
    | toBracket h after =>
      have := Stops.toBracket (.group ho hi x h) after
      simpa using this

theorem letter_of_typeOf (h : typeOf c = some type) : c = type.letter := by
  unfold typeOf at h
  split at h <;> cases h <;> rfl

theorem typeOf_letter (type : PackType) : typeOf type.letter = some type := by
  cases type <;> rfl

/-! ## 4. The parser reads its language -/

theorem push_eq_ok {tok : PackFormatToken} {parsed : Parsed} (h : push tok parsed = some (.ok (toks, rest))) :
    ∃ behind, parsed = some (.ok (behind, rest)) ∧ toks = tok :: behind := by
  match parsed, h with
  | some (.ok (behind, _)), h =>
    cases h
    exact ⟨behind, rfl, rfl⟩

theorem parseGroup_eq_ok {parse : List Char → Parsed}
    (h : parseGroup parse mk s = some (.ok (toks, rest))) :
    ∃ inner after behind, parse s = some (.ok (inner, ')' :: after)) ∧
      parse (after.drop 1) = some (.ok (behind, rest)) ∧ toks = mk inner :: behind := by
  unfold parseGroup at h
  split at h
  · next inner after hs =>
    obtain ⟨behind, hbehind, rfl⟩ := push_eq_ok h
    exact ⟨inner, after, behind, hs, hbehind, rfl⟩
  · cases h
  · next hbracket hok => exact absurd h (hok _)

theorem parseTokens_letter (hc : typeOf c = some type) (fuel : Nat) (s : List Char) :
    parseTokens (fuel + 1) (c :: s) = push (.one type) (parseTokens fuel s) := by
  rw [letter_of_typeOf hc]
  cases type <;> rfl

theorem parseTokens_opening (ho : Opening op mk) (fuel : Nat) (s : List Char) :
    parseTokens (fuel + 1) (op ++ s) = parseGroup (parseTokens fuel) mk s := by
  cases ho <;> rfl

theorem parseTokens_cases (h : parseTokens (fuel + 1) s = some (.ok (toks, rest))) :
    s = [] ∧ toks = [] ∧ rest = [] ∨
    (∃ after, s = ')' :: after ∧ toks = [] ∧ rest = s) ∨
    (∃ c type behind, typeOf c = some type ∧ s = c :: behind) ∨
    (∃ op mk behind, Opening op mk ∧ s = op ++ behind) := by
  match s, h with
  | [], h =>
    cases h
    exact .inl ⟨rfl, rfl, rfl⟩
  | c :: behind, h =>
    unfold parseTokens at h
    split at h
    · next hc =>
      cases h
      exact .inr (.inl ⟨behind, by rw [hc], rfl, rfl⟩)
    · split at h
      · next hc => exact .inr (.inr (.inr ⟨_, _, behind, .plain, by rw [hc]; rfl⟩))
      · split at h
        · next type hc => exact .inr (.inr (.inl ⟨c, type, behind, hc, rfl⟩))
        · split at h
          · next htag =>
            split at h
            · next behind =>
              cases htag with
              | inl hc => exact .inr (.inr (.inr ⟨_, _, behind, .struct, by rw [hc]; rfl⟩))
              | inr hc => exact .inr (.inr (.inr ⟨_, _, behind, .array, by rw [hc]; rfl⟩))
            · cases h
          · cases h

/-- **The parser stops where its language says**, by induction on the steps it may take. -/
theorem stops_of_parseTokens (fuel : Nat) : ∀ {s rest : List Char} {toks : List PackFormatToken},
      parseTokens fuel s = some (.ok (toks, rest)) → Stops s toks rest := by
  induction fuel with
  | zero =>
    intro s rest toks h
    cases h
  | succ fuel ih =>
    intro s rest toks h
    rcases parseTokens_cases h with ⟨rfl, rfl, rfl⟩ | ⟨after, rfl, rfl, rfl⟩ |
      ⟨c, type, s, hc, rfl⟩ | ⟨op, mk, s, ho, rfl⟩
    · exact .toEnd .nil
    · exact .toBracket .nil after
    · rw [parseTokens_letter hc] at h
      obtain ⟨behind, hbehind, rfl⟩ := push_eq_ok h
      exact .one hc (ih hbehind)
    · rw [parseTokens_opening ho] at h
      obtain ⟨inner, after, behind, hinner, hbehind, rfl⟩ := parseGroup_eq_ok h
      -- the tokens inside end at a bracket, so nothing but a closed sequence stands before it
      cases ih hinner with
      | toBracket hi after =>
        rw [← append_assoc]
        exact .group ho hi (ih hbehind)

theorem parseTokens_group {op body after : List Char} {mk : List PackFormatToken → PackFormatToken}
    {inner : List PackFormatToken} {fuel : Nat} (ho : Opening op mk)
    (hbody : parseTokens fuel (body ++ ')' :: after) = some (.ok (inner, ')' :: after))) :
    parseTokens (fuel + 1) (op ++ body ++ ')' :: after) =
      push (mk inner) (parseTokens fuel (after.drop 1)) := by
  rw [append_assoc, parseTokens_opening ho]
  unfold parseGroup
  rw [hbody]
  rfl

theorem parseTokens_bracket (after : List Char) :
    ∀ fuel, (')' :: after).length < fuel →
      parseTokens fuel (')' :: after) = some (.ok ([], ')' :: after)) := by
  intro fuel hfuel
  match fuel, hfuel with
  | fuel + 1, _ => rfl

theorem Opening.length_pos (ho : Opening op mk) : 0 < op.length := by
  cases ho <;> decide

theorem parseTokens_skewed {front : List Char} (h : Skewed front toks) :
    ∀ {tail rest : List Char} {behind : List PackFormatToken} {fuel : Nat},
      (∀ fuel, tail.length < fuel → parseTokens fuel tail = some (.ok (behind, rest))) →
      front.length + tail.length < fuel →
        parseTokens fuel (front ++ tail) = some (.ok (toks ++ behind, rest)) := by
  induction h with
  | nil =>
    intro tail rest behind fuel htail hfuel
    exact htail fuel (by simpa using hfuel)
  | @one c type s toks hc hrest ih =>
    intro tail rest behind fuel htail hfuel
    match fuel, hfuel with
    | fuel + 1, hfuel =>
      have hlen : s.length + tail.length < fuel := by
        simp only [length_cons] at hfuel
        omega
      rw [cons_append, parseTokens_letter hc, ih htail hlen]
      rfl
  | @group op body s mk inner toks ho hi x hrest ihi ih =>
    intro tail rest behind fuel htail hfuel
    match fuel, hfuel with
    | fuel + 1, hfuel =>
      simp only [length_append, length_cons] at hfuel
      have hop := ho.length_pos
      have hbody : parseTokens fuel (body ++ ')' :: x :: (s ++ tail)) =
          some (.ok (inner ++ [], ')' :: x :: (s ++ tail))) :=
        ihi (parseTokens_bracket _) (by simp only [length_append, length_cons]; omega)
      rw [append_nil] at hbody
      have hbehind : parseTokens fuel (s ++ tail) = some (.ok (toks ++ behind, rest)) := ih htail (by omega)
      have hgroup := parseTokens_group ho hbody
      rw [drop_one, tail_cons, hbehind] at hgroup
      rw [append_assoc, cons_append, cons_append, hgroup]
      rfl

theorem parseTokens_body {body : List Char} {inner : List PackFormatToken} (hi : Skewed body inner)
    (after : List Char) {fuel : Nat} (hfuel : body.length + (')' :: after).length < fuel) :
    parseTokens fuel (body ++ ')' :: after) = some (.ok (inner, ')' :: after)) := by
  have h := parseTokens_skewed hi (parseTokens_bracket after) hfuel
  rwa [append_nil] at h

theorem parseTokens_endsInGroup (h : EndsInGroup s toks) :
    ∀ fuel, s.length < fuel → parseTokens fuel s = some (.ok (toks, [])) := by
  induction h with
  | @last op body mk inner ho hi =>
    intro fuel hfuel
    match fuel, hfuel with
    | fuel + 1, hfuel =>
      simp only [length_append, length_cons, length_nil] at hfuel
      have hop := ho.length_pos
      rw [parseTokens_group ho (parseTokens_body hi [] (by simp; omega))]
      match fuel, hfuel with
      | fuel + 1, _ => rfl
  | @one c type s toks hc hrest ih =>
    intro fuel hfuel
    match fuel, hfuel with
    | fuel + 1, hfuel =>
      rw [parseTokens_letter hc, ih fuel (Nat.lt_of_succ_lt_succ hfuel)]
      rfl
  | @group op body s mk inner toks ho hi x hrest ih =>
    intro fuel hfuel
    match fuel, hfuel with
    | fuel + 1, hfuel =>
      simp only [length_append, length_cons] at hfuel
      have hop := ho.length_pos
      rw [parseTokens_group ho (parseTokens_body hi (x :: s) (by simp; omega)), drop_one,
        tail_cons, ih fuel (by omega)]
      rfl

/-- **The parser reads its language** when it has more steps than there are characters. -/
theorem parseTokens_of_stops (h : Stops s toks rest) (hfuel : s.length < fuel) :
    parseTokens fuel s = some (.ok (toks, rest)) := by
  cases h with
  | toEnd h =>
    have hend : ∀ fuel, ([] : List Char).length < fuel → parseTokens fuel [] = some (.ok ([], [])) := by
      intro fuel hfuel
      match fuel, hfuel with
      | fuel + 1, _ => rfl
    have hread := parseTokens_skewed h hend hfuel
    rwa [append_nil, append_nil] at hread
  | groupAtEnd h => exact parseTokens_endsInGroup h fuel hfuel
  | toBracket h after => exact parseTokens_body h after (by simpa using hfuel)

/-- **The strings that `PackFormat::parse` accepts**, and what it returns. -/
theorem parse_iff_accepted (fmt : String) (toks : List PackFormatToken) :
    PackFormat.parse fmt = some (.ok ⟨toks⟩) ↔ Accepted (byteChars fmt) toks := by
  constructor
  · intro h
    unfold PackFormat.parse at h
    match hp : parseTokens ((byteChars fmt).length + 1) (byteChars fmt), h with
    | some (.ok (toks, rest)), h =>
      cases h
      exact ⟨rest, stops_of_parseTokens _ hp⟩
  · intro ⟨rest, h⟩
    unfold PackFormat.parse
    rw [parseTokens_of_stops h (Nat.lt_succ_self _)]
    rfl

/-! ## 5. Formats are read in one way -/

theorem letter_injective {type' : PackType} (h : type.letter = type'.letter) : type = type' := by
  have hsome : some type = some type' := by rw [← typeOf_letter type, h, typeOf_letter type']
  exact Option.some.inj hsome

theorem letter_ne (hc : typeOf c = none) : type.letter ≠ c := by
  intro h
  rw [← h, typeOf_letter] at hc
  cases hc

/-- The end of a format, or the closing bracket of the group it stands in. -/
def GroupEnd (s : List Char) : Prop := s = [] ∨ ∃ after, s = ')' :: after

theorem GroupEnd.ne_render (hs : GroupEnd s) (tok : PackFormatToken)
    (behind : List Char) : s ≠ tok.render ++ behind := by
  intro h
  rcases hs with rfl | ⟨after, rfl⟩
  · cases tok <;> cases h
  · cases tok with
    | one type => exact letter_ne rfl (cons.inj h).1.symm
    | struct inner => exact absurd (cons.inj h).1 (by decide)
    | array inner => exact absurd (cons.inj h).1 (by decide)

theorem group_inside {inner inner' : List Char}
    (h : '(' :: (inner ++ [')']) ++ s = '(' :: (inner' ++ [')']) ++ s') :
    inner ++ ')' :: s = inner' ++ ')' :: s' := by
  simpa using h

mutual

theorem render_append_injective : ∀ (tok tok' : PackFormatToken) (s s' : List Char),
    tok.render ++ s = tok'.render ++ s' → tok = tok' ∧ s = s'
  | .one type, .one type', s, s', h => by
    obtain ⟨hletter, hs⟩ := cons.inj h
    exact ⟨by rw [letter_injective hletter], hs⟩
  | .one type, .struct inner', s, s', h => absurd (cons.inj h).1 (letter_ne rfl)
  | .one type, .array inner', s, s', h => absurd (cons.inj h).1 (letter_ne rfl)
  | .struct inner, .one type', s, s', h => absurd (cons.inj h).1.symm (letter_ne rfl)
  | .struct inner, .struct inner', s, s', h => by
    obtain ⟨hinner, hs⟩ := renderAll_append_injective inner inner' _ _ (.inr ⟨s, rfl⟩)
      (.inr ⟨s', rfl⟩) (group_inside (cons.inj h).2)
    exact ⟨by rw [hinner], (cons.inj hs).2⟩
  | .struct inner, .array inner', s, s', h => absurd (cons.inj h).1 (by decide)
  | .array inner, .one type', s, s', h => absurd (cons.inj h).1.symm (letter_ne rfl)
  | .array inner, .struct inner', s, s', h => absurd (cons.inj h).1 (by decide)
  | .array inner, .array inner', s, s', h => by
    obtain ⟨hinner, hs⟩ := renderAll_append_injective inner inner' _ _ (.inr ⟨s, rfl⟩)
      (.inr ⟨s', rfl⟩) (group_inside (cons.inj h).2)
    exact ⟨by rw [hinner], (cons.inj hs).2⟩

theorem renderAll_append_injective : ∀ (toks toks' : List PackFormatToken) (s s' : List Char),
    GroupEnd s → GroupEnd s' → renderAll toks ++ s = renderAll toks' ++ s' → toks = toks' ∧ s = s'
  | [], [], s, s', _, _, h => ⟨rfl, h⟩
  | [], tok' :: toks', s, s', hs, _, h => by
    rw [renderAll, renderAll, append_assoc] at h
    exact absurd h (hs.ne_render tok' _)
  | tok :: toks, [], s, s', _, hs', h => by
    rw [renderAll, renderAll, append_assoc] at h
    exact absurd h.symm (hs'.ne_render tok _)
  | tok :: toks, tok' :: toks', s, s', hs, hs', h => by
    rw [renderAll, renderAll, append_assoc, append_assoc] at h
    obtain ⟨htok, hrest⟩ := render_append_injective tok tok' _ _ h
    obtain ⟨htoks, hend⟩ := renderAll_append_injective toks toks' s s' hs hs' hrest
    exact ⟨by rw [htok, htoks], hend⟩

end

theorem renderAll_injective {toks' : List PackFormatToken}
    (h : renderAll toks = renderAll toks') : toks = toks' := by
  have happ : renderAll toks ++ [] = renderAll toks' ++ [] := by rw [h]
  exact (renderAll_append_injective toks toks' [] [] (.inl rfl) (.inl rfl) happ).1

/-! ## 6. The formats that come back as they were written -/

def PackFormatToken.IsOne : PackFormatToken → Prop
  | .one _ => True
  | .struct _ => False
  | .array _ => False

def PackFormatToken.FlatStruct : PackFormatToken → Prop
  | .one _ => False
  | .struct inner => ∀ tok ∈ inner, tok.IsOne
  | .array _ => False

def PackFormatToken.FlatGroup : PackFormatToken → Prop
  | .one _ => False
  | .struct inner => ∀ tok ∈ inner, tok.IsOne
  | .array inner => ∀ tok ∈ inner, tok.IsOne

/-- Letters, then a group of letters, then structs of letters. -/
inductive Flat : List PackFormatToken → Prop
  | nil : Flat []
  | one (type : PackType) {toks : List PackFormatToken} (h : Flat toks) : Flat (.one type :: toks)
  | groups {tok : PackFormatToken} {toks : List PackFormatToken} (hg : tok.FlatGroup)
      (hs : ∀ tok ∈ toks, tok.FlatStruct) : Flat (tok :: toks)

theorem flat_of_ones (h : ∀ tok ∈ toks, tok.IsOne) : Flat toks := by
  induction toks with
  | nil => exact .nil
  | cons tok toks ih =>
    rw [forall_mem_cons] at h
    match tok, h with
    | .one type, h => exact .one type (ih h.2)

theorem skewed_of_ones (h : ∀ tok ∈ toks, tok.IsOne) : Skewed (renderAll toks) toks := by
  induction toks with
  | nil => exact .nil
  | cons tok toks ih =>
    rw [forall_mem_cons] at h
    match tok, h with
    | .one type, h => exact .one (typeOf_letter type) (ih h.2)

/-- Structs behind a group: the tag of each is the character that the parser passes over, and its
    bracket alone opens it. -/
theorem endsInGroup_structs : ∀ {op : List Char} {mk : List PackFormatToken → PackFormatToken}
      {inner : List PackFormatToken}, Opening op mk → (∀ tok ∈ inner, tok.IsOne) →
      (∀ tok ∈ toks, tok.FlatStruct) →
      EndsInGroup (op ++ renderAll inner ++ ')' :: renderAll toks) (mk inner :: toks) := by
  induction toks with
  | nil =>
    intro op mk inner ho hi _
    exact .last ho (skewed_of_ones hi)
  | cons tok toks ih =>
    intro op mk inner ho hi hs
    rw [forall_mem_cons] at hs
    match tok, hs with
    | .struct inner', hs =>
      have hrest := ih .plain hs.1 hs.2
      have hrender : renderAll (.struct inner' :: toks) =
          't' :: (['('] ++ renderAll inner' ++ ')' :: renderAll toks) := by
        simp [renderAll, PackFormatToken.render]
      rw [hrender]
      exact .group ho (skewed_of_ones hi) 't' hrest

theorem stops_of_flat (h : Flat toks) : Stops (renderAll toks) toks [] := by
  induction h with
  | nil => exact .toEnd .nil
  | one type h ih => exact .one (typeOf_letter type) ih
  | @groups tok toks hg hs =>
    apply Stops.groupAtEnd
    match tok, hg with
    | .struct inner, hg =>
      have hrender : renderAll (.struct inner :: toks) =
          ['t', '('] ++ renderAll inner ++ ')' :: renderAll toks := by
        simp [renderAll, PackFormatToken.render]
      rw [hrender]
      exact endsInGroup_structs .struct hg hs
    | .array inner, hg =>
      have hrender : renderAll (.array inner :: toks) =
          ['A', '('] ++ renderAll inner ++ ')' :: renderAll toks := by
        simp [renderAll, PackFormatToken.render]
      rw [hrender]
      exact endsInGroup_structs .array hg hs

/-! ## 7. What the parser passes over

Each token of the result is written in the string it was read from, so a format that comes back as
it was written has no more in it than its tokens, but for the tags of structs: a bracket without one
reads the same. -/

/-- Whether a character counts: all those of a format but the tag of a struct. -/
def weight (c : Char) : Nat :=
  if (typeOf c).isSome ∨ c = '(' ∨ c = ')' ∨ c = 'A' then 1 else 0

/-- The characters of a string that count. -/
def weights (s : List Char) : Nat := (s.map weight).sum

@[simp] theorem weights_nil : weights [] = 0 := rfl

@[simp] theorem weights_cons (c : Char) (s : List Char) : weights (c :: s) = weight c + weights s := by
  simp [weights]

@[simp] theorem weights_append (s s' : List Char) : weights (s ++ s') = weights s + weights s' := by
  simp [weights]

@[simp] theorem weight_letter (type : PackType) : weight type.letter = 1 := by
  simp [weight, typeOf_letter]

@[simp] theorem weight_bracket : weight ')' = 1 := rfl

theorem weights_letter (hc : typeOf c = some type) (s : List Char) : weights (c :: s) = 1 + weights s := by
  rw [letter_of_typeOf hc, weights_cons, weight_letter]

theorem weights_one (type : PackType) (toks : List PackFormatToken) :
    weights (renderAll (.one type :: toks)) = 1 + weights (renderAll toks) := by
  simp [renderAll, PackFormatToken.render]

theorem weights_closed (op body s : List Char) :
    weights (op ++ body ++ ')' :: s) = weights op + weights body + 1 + weights s := by
  rw [weights_append, weights_append, weights_cons, weight_bracket, ← Nat.add_assoc]

theorem weights_mk (ho : Opening op mk) (inner : List PackFormatToken) :
    weights (mk inner).render = weights op + weights (renderAll inner) + 1 := by
  have htag : weight 't' = 0 := rfl
  cases ho <;> simp only [PackFormatToken.render, weights_cons, weights_append, weights_nil,
    weight_bracket, htag] <;> omega

theorem weights_group (ho : Opening op mk) (inner toks : List PackFormatToken) :
    weights (renderAll (mk inner :: toks)) =
      weights op + weights (renderAll inner) + 1 + weights (renderAll toks) := by
  rw [renderAll, weights_append, weights_mk ho]

theorem Skewed.weights_le (h : Skewed s toks) : weights (renderAll toks) ≤ weights s := by
  induction h with
  | nil => exact Nat.le_refl _
  | one hc hrest ih =>
    rw [weights_one, weights_letter hc]
    omega
  | group ho hi x hrest ihi ih =>
    rw [weights_group ho, weights_closed, weights_cons]
    omega

theorem EndsInGroup.weights_le (h : EndsInGroup s toks) : weights (renderAll toks) ≤ weights s := by
  induction h with
  | last ho hi =>
    have hbody := hi.weights_le
    rw [weights_group ho, weights_closed, renderAll]
    omega
  | one hc hrest ih =>
    rw [weights_one, weights_letter hc]
    omega
  | group ho hi x hrest ih =>
    have hbody := hi.weights_le
    rw [weights_group ho, weights_closed, weights_cons]
    omega

/-- A character that does not count is a tag, with its bracket behind it. -/
def TagsOpen : List Char → Prop
  | [] => True
  | c :: s => (weight c = 0 → s.head? = some '(') ∧ TagsOpen s

theorem TagsOpen.append (h : TagsOpen s) (h' : TagsOpen s') : TagsOpen (s ++ s') := by
  induction s with
  | nil => exact h'
  | cons c s ih =>
    refine ⟨?_, ih h.2⟩
    intro hc
    change (s ++ s').head? = some '('
    rw [head?_append, h.1 hc]
    rfl

theorem TagsOpen.of_append (h : TagsOpen (s ++ s')) : TagsOpen s' := by
  induction s with
  | nil => exact h
  | cons c s ih => exact ih h.2

theorem TagsOpen.inside {s after : List Char} (h : TagsOpen (s ++ ')' :: after)) : TagsOpen s := by
  induction s with
  | nil => trivial
  | cons c s ih =>
    refine ⟨?_, ih h.2⟩
    intro hc
    have hhead := h.1 hc
    cases s with
    | nil => cases hhead
    | cons => exact hhead

mutual

theorem tagsOpen_render : ∀ tok : PackFormatToken, TagsOpen tok.render
  | .one type => ⟨by simp, trivial⟩
  | .struct inner =>
    ⟨fun _ => rfl, nofun, (tagsOpen_renderAll inner).append ⟨nofun, trivial⟩⟩
  | .array inner =>
    ⟨fun _ => rfl, nofun, (tagsOpen_renderAll inner).append ⟨nofun, trivial⟩⟩

theorem tagsOpen_renderAll : ∀ toks : List PackFormatToken, TagsOpen (renderAll toks)
  | [] => trivial
  | tok :: toks => (tagsOpen_render tok).append (tagsOpen_renderAll toks)

end

theorem Opening.mk_of_head {op s : List Char} {mk : List PackFormatToken → PackFormatToken}
    (ho : Opening op mk) (hs : (op ++ s).head? = some '(') : mk = .struct := by
  cases ho with
  | plain => rfl
  | struct => rfl
  | array => cases hs

theorem Opening.flatGroup (ho : Opening op mk) (hi : ∀ tok ∈ inner, tok.IsOne) : (mk inner).FlatGroup := by
  cases ho <;> exact hi

/-- A closed sequence with nothing passed over has no group: the tag of the next one would be passed over. -/
theorem Skewed.ones (h : Skewed s toks) :
    weights s = weights (renderAll toks) → TagsOpen s → ∀ tok ∈ toks, tok.IsOne := by
  induction h with
  | nil =>
    intro _ _ tok htok
    cases htok
  | one hc hrest ih =>
    intro hw htags
    rw [weights_one, weights_letter hc] at hw
    rw [forall_mem_cons]
    exact ⟨trivial, ih (by omega) htags.2⟩
  | @group op body s mk inner toks ho hi x hrest ihi ih =>
    intro hw htags
    have hle := hrest.weights_le
    have hile := hi.weights_le
    rw [weights_group ho, weights_closed, weights_cons] at hw
    have hbehind := htags.of_append.2
    have hhead : s.head? = some '(' := hbehind.1 (by omega)
    have hones := ih (by omega) hbehind.2
    exfalso
    cases hrest with
    | nil => cases hhead
    | one hc _ =>
      cases hhead
      cases hc
    | group ho' hi' x' hrest' =>
      rw [forall_mem_cons] at hones
      cases ho' <;> exact hones.1

/-- With a group at the end: groups of letters only, and behind the first one structs. -/
theorem EndsInGroup.flat (h : EndsInGroup s toks) :
    weights s = weights (renderAll toks) → TagsOpen s →
      Flat toks ∧ (s.head? = some '(' → ∀ tok ∈ toks, tok.FlatStruct) := by
  induction h with
  | @last op body mk inner ho hi =>
    intro hw htags
    rw [weights_group ho, weights_closed, renderAll] at hw
    rw [append_assoc] at htags
    have hones := hi.ones (by omega) htags.of_append.inside
    refine ⟨.groups (ho.flatGroup hones) nofun, ?_⟩
    intro hhead
    rw [append_assoc] at hhead
    rw [ho.mk_of_head hhead, forall_mem_singleton]
    exact hones
  | one hc hrest ih =>
    intro hw htags
    rw [weights_one, weights_letter hc] at hw
    refine ⟨.one _ (ih (by omega) htags.2).1, ?_⟩
    intro hhead
    cases hhead
    cases hc
  | @group op body s mk inner toks ho hi x hrest ih =>
    intro hw htags
    have hle := hrest.weights_le
    have hile := hi.weights_le
    rw [weights_group ho, weights_closed, weights_cons] at hw
    rw [append_assoc] at htags
    have hones := hi.ones (by omega) htags.of_append.inside
    have hbehind := htags.of_append.of_append.2
    have hstructs := (ih (by omega) hbehind.2).2 (hbehind.1 (by omega))
    refine ⟨.groups (ho.flatGroup hones) hstructs, ?_⟩
    intro hhead
    rw [append_assoc] at hhead
    rw [ho.mk_of_head hhead, forall_mem_cons]
    exact ⟨hones, hstructs⟩

/-- **The formats that come back as they were written.** -/
theorem accepted_render_iff (toks : List PackFormatToken) : Accepted (renderAll toks) toks ↔ Flat toks := by
  constructor
  · intro ⟨rest, h⟩
    have htags := tagsOpen_renderAll toks
    generalize hs : renderAll toks = s at h htags
    cases h with
    | toEnd h => exact flat_of_ones (h.ones (by rw [hs]) htags)
    | groupAtEnd h => exact (h.flat (by rw [hs]) htags).1
    | toBracket h after =>
      -- the bracket the parser stops at belongs to no token
      have hle := h.weights_le
      rw [hs, weights_append, weights_cons, weight_bracket] at hle
      omega
  · intro h
    exact ⟨[], stops_of_flat h⟩

/-! ## 8. Parser and language -/

/-- **Where the parser reads the language of formats**: for formats whose groups hold letters, stand at the
    end and are structs behind the first; and for strings that are no format, where it does not accept
    them. -/
theorem parse_exact_iff (fmt : String) :
    (∀ toks, PackFormat.parse fmt = some (.ok ⟨toks⟩) ↔ byteChars fmt = renderAll toks) ↔
      (∃ toks, byteChars fmt = renderAll toks ∧ Flat toks) ∨
        ((∀ toks, byteChars fmt ≠ renderAll toks) ∧ ∀ toks, ¬ Accepted (byteChars fmt) toks) := by
  simp only [parse_iff_accepted]
  constructor
  · intro h
    by_cases hformat : ∃ toks, byteChars fmt = renderAll toks
    · obtain ⟨toks, htoks⟩ := hformat
      have haccepted := (h toks).mpr htoks
      rw [htoks] at haccepted
      exact .inl ⟨toks, htoks, (accepted_render_iff toks).mp haccepted⟩
    · have hnot : ∀ toks, byteChars fmt ≠ renderAll toks := by
        intro toks htoks
        exact hformat ⟨toks, htoks⟩
      refine .inr ⟨hnot, ?_⟩
      intro toks haccepted
      exact hnot toks ((h toks).mp haccepted)
  · intro h toks
    cases h with
    | inl h =>
      obtain ⟨written, hwritten, hflat⟩ := h
      have hreads : PackFormat.parse fmt = some (.ok ⟨written⟩) := by
        rw [parse_iff_accepted, hwritten, accepted_render_iff]
        exact hflat
      constructor
      · intro haccepted
        rw [← parse_iff_accepted, hreads] at haccepted
        cases haccepted
        exact hwritten
      · intro htoks
        have hsame : written = toks := renderAll_injective (hwritten.symm.trans htoks)
        rw [← hsame, ← parse_iff_accepted]
        exact hreads
    | inr h =>
      constructor
      · intro haccepted
        exact absurd haccepted (h.2 toks)
      · intro htoks
        exact absurd htoks (h.1 toks)

/-- A letter behind a struct is dropped, and a struct within a struct is refused. -/
theorem parse_drops_token : byteChars "t(C)C" = renderAll [.struct [.one .uint8], .one .uint8] ∧
      PackFormat.parse "t(C)C" = some (.ok ⟨[.struct [.one .uint8]]⟩) ∧
    byteChars "t(t(C))" = renderAll [.struct [.struct [.one .uint8]]] ∧
      PackFormat.parse "t(t(C))" = some (.error .unbalancedBrackets) :=
  ⟨rfl, rfl, rfl, rfl⟩

end DcuDaemon.Spinel
