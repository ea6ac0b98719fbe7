/-
  The configuration file (`Config::parse`, `split_key_value`, `unquote` of `dcu-tunnel-daemon`).

  A line is trimmed, blank lines and comments are skipped, and the rest is a key, white space and a
  value. Only a value that begins with a quote is unquoted.

  Main result: `unescape_eq`.
-/
import DcuDaemon.Lib.Escape
import DcuDaemon.Lib.HashTable

namespace DcuDaemon.Config

open Lib List

/-! ## 1. The parser -/

inductive LineError where
  /-- "missing value after key in {line:?}" -/
  | missingValue (line : List Char)
  /-- "unterminated quote in {s:?}" -/
  | unterminatedQuote (s : List Char)
  deriving DecidableEq

def unescapeChar (c : Char) : Char := if c = 'n' then '\n' else if c = 't' then '\t' else c

/-- The loop of `unquote`; a backslash at the end is kept. -/
def unescape : List Char → List Char
  | [] => []
  | [c] => [c]
  | c :: d :: cs => if c = '\\' then unescapeChar d :: unescape cs else c :: unescape (d :: cs)

def unquote (s : List Char) : Except LineError (List Char) :=
  match s with
  | [] => .ok []
  | quote :: tail =>
    if isQuote quote = false then .ok s
    else if tail.getLast? ≠ some quote then .error (.unterminatedQuote s)
    else .ok (unescape tail.dropLast)

/-- `split_key_value`: at the first white space. -/
def splitKeyValue (line : List Char) : Except LineError (List Char × List Char) :=
  if line.any isWhitespace then
    (unquote (trim ((line.dropWhile fun c => !isWhitespace c).drop 1))).map fun value =>
      (line.takeWhile fun c => !isWhitespace c, value)
  else .error (.missingValue line)

/-- One pass of the loop of `parse`. -/
def parseLine (rawLine : List Char) : Except LineError (Option (List Char × List Char)) :=
  let line := trim rawLine
  if line = [] ∨ line.head? = some '#' then .ok none else (splitKeyValue line).map some

/-- `str::split_inclusive('\n')`. -/
def splitInclusive : List Char → List (List Char)
  | [] => []
  | c :: cs =>
    if c = '\n' then ['\n'] :: splitInclusive cs
    else
      match splitInclusive cs with
      | [] => [[c]]
      | line :: lines => (c :: line) :: lines

/-- A line without its end, `\n` or `\r\n`. -/
def stripEnd (line : List Char) : List Char :=
  if line.getLast? = some '\n' then
    if line.dropLast.getLast? = some '\r' then line.dropLast.dropLast else line.dropLast
  else line

def lines (content : List Char) : List (List Char) := (splitInclusive content).map stripEnd

/-- The lines from `lineno` on; a line that is refused refuses the file. -/
def parseLines (lineno : Nat) (map : HashTable (List Char) (List Char)) :
    List (List Char) → Except (Nat × LineError) (HashTable (List Char) (List Char))
  | [] => .ok map
  | rawLine :: rawLines =>
    match parseLine rawLine with
    | .error e => .error (lineno + 1, e)
    | .ok none => parseLines (lineno + 1) map rawLines
    | .ok (some (key, value)) => parseLines (lineno + 1) (map.insert key value) rawLines

/-- `Config::parse`, up to the table that `from_map` reads. -/
def parse (content : List Char) : Except (Nat × LineError) (HashTable (List Char) (List Char)) :=
  parseLines 0 ∅ (lines content)

/-! ## 2. Escapes -/

def unescapePiece : Piece → Char
  | .plain c => c
  | .escaped c => unescapeChar c

theorem unescape_eq (cs : List Char) : unescape cs = (pieces cs).map unescapePiece := by
  fun_induction pieces cs with
  | case1 => rfl
  | case2 c => rfl
  | case3 d cs ih => rw [unescape, if_pos rfl, ih, map_cons, unescapePiece]
  | case4 c d cs hc ih => rw [unescape, if_neg hc, ih, map_cons, unescapePiece]

theorem unescapeChar_eq_self_iff (c : Char) : unescapeChar c = c ↔ c ≠ 'n' ∧ c ≠ 't' := by
  unfold unescapeChar
  by_cases hn : c = 'n'
  · simp [hn]
  · by_cases ht : c = 't'
    · simp [ht]
    · simp [hn, ht]

theorem count_unescapePiece {x : Char} (hx : isQuote x ∨ x = '\\') (ps : List Piece) :
    (ps.map unescapePiece).count x = (ps.map Piece.char).count x := by
  have hchar : ∀ c, unescapeChar c = x ↔ c = x := by
    intro c
    have hno : x ≠ '\n' ∧ x ≠ '\t' ∧ x ≠ 'n' ∧ x ≠ 't' := by
      rcases hx with hx | rfl
      · rcases of_decide_eq_true hx with rfl | rfl
        · decide
        · decide
      · decide
    unfold unescapeChar
    by_cases hn : c = 'n'
    · rw [if_pos hn, hn]
      exact iff_of_false (Ne.symm hno.1) (Ne.symm hno.2.2.1)
    · by_cases ht : c = 't'
      · rw [if_neg hn, if_pos ht, ht]
        exact iff_of_false (Ne.symm hno.2.1) (Ne.symm hno.2.2.2)
      · rw [if_neg hn, if_neg ht]
  induction ps with
  | nil => rfl
  | cons p ps ih =>
    rw [map_cons, map_cons, count_cons, count_cons, ih]
    cases p with
    | plain c => rfl
    | escaped c => simp only [unescapePiece, Piece.char, beq_iff_eq, hchar]

theorem unquote_bare {value : List Char} (h : ∀ c ∈ value.head?, isQuote c = false) :
    unquote value = .ok value := by
  cases value with
  | nil => rfl
  | cons c value => exact if_pos (h c rfl)

theorem unquote_quoted {q : Char} (hq : isQuote q) (inner : List Char) :
    unquote (q :: (inner ++ [q])) = .ok (unescape inner) := by
  rw [unquote, if_neg (by simp [hq]), if_neg (by simp), dropLast_concat]

/-- **A value is bare, quoted or refused.** -/
theorem unquote_cases (value : List Char) : (∀ c ∈ value.head?, isQuote c = false) ∨
      (∃ q inner, isQuote q ∧ value = q :: (inner ++ [q])) ∨ ∃ err, unquote value = .error err := by
  cases value with
  | nil => exact .inl fun c hc => nomatch hc
  | cons q tail =>
    by_cases hq : isQuote q
    · right
      by_cases hlast : tail.getLast? = some q
      · exact .inl ⟨q, tail.dropLast, hq, by rw [dropLast_append_getLast? q hlast]⟩
      · refine .inr ⟨.unterminatedQuote (q :: tail), ?_⟩
        rw [unquote, if_neg (by simp [hq]), if_pos hlast]
    · left
      intro c hc
      cases hc
      exact Bool.eq_false_of_not_eq_true hq

/-! ## 3. Lines -/

/-- A line with a key and a value. -/
structure Entry where
  lead : List Char
  key : List Char
  mid : List Char
  value : List Char
  trail : List Char
  lead_white : ∀ c ∈ lead, isWhitespace c = true
  key_ne : key ≠ []
  key_solid : ∀ c ∈ key, isWhitespace c = false
  key_first : key.head? ≠ some '#'
  mid_ne : mid ≠ []
  mid_white : ∀ c ∈ mid, isWhitespace c = true
  value_ne : value ≠ []
  value_trimmed : Trimmed value
  trail_white : ∀ c ∈ trail, isWhitespace c = true

def Entry.text (e : Entry) : List Char := e.lead ++ (e.key ++ e.mid ++ e.value) ++ e.trail

def Skipped (text : List Char) : Prop := trim text = [] ∨ (trim text).head? = some '#'

namespace Entry

variable (e : Entry)

theorem trim_text : trim e.text = e.key ++ e.mid ++ e.value := by
  refine trim_eq e.lead_white ⟨fun c hc => ?_, fun c hc => ?_⟩ e.trail_white
  · rw [append_assoc, head?_append_of_ne_nil _ e.key_ne] at hc
    exact e.key_solid c (mem_of_mem_head? hc)
  · rw [getLast?_append_of_ne_nil _ e.value_ne] at hc
    exact e.value_trimmed.2 c hc

/-- **An entry is read as its key and its unquoted value.** -/
theorem parseLine_text : parseLine e.text = (unquote e.value).map fun value => some (e.key, value) := by
  obtain ⟨w, mid, hmid⟩ := exists_cons_of_ne_nil e.mid_ne
  have hwhite := e.mid_white
  rw [hmid] at hwhite
  have hw : isWhitespace w := hwhite w mem_cons_self
  have hkey : ∀ c ∈ e.key, (!isWhitespace c) := fun c hc => by rw [e.key_solid c hc]; rfl
  have hline : e.key ++ e.mid ++ e.value = e.key ++ w :: (mid ++ e.value) := by
    rw [hmid, append_assoc, cons_append]
  have hskip : ¬ (e.key ++ w :: (mid ++ e.value) = [] ∨
      (e.key ++ w :: (mid ++ e.value)).head? = some '#') := by
    rw [head?_append_of_ne_nil _ e.key_ne]
    simp [e.key_first]
  have hvalue : trim (mid ++ e.value) = e.value := by
    have htrim := trim_eq (fun c hc => hwhite c (mem_cons_of_mem w hc)) e.value_trimmed
      (fun c hc => absurd hc not_mem_nil)
    rwa [append_nil] at htrim
  have hsplit : splitKeyValue (e.key ++ w :: (mid ++ e.value)) =
      (unquote e.value).map fun value => (e.key, value) := by
    rw [splitKeyValue, if_pos (by simp [hw]), takeWhile_append_of_pos hkey,
      dropWhile_append_of_pos hkey, takeWhile_cons_of_neg (by simp [hw]),
      dropWhile_cons_of_neg (by simp [hw]), append_nil, drop_succ_cons,
      drop_zero, hvalue]
  rw [parseLine, e.trim_text, hline, if_neg hskip, hsplit]
  cases unquote e.value with
  | error err => rfl
  | ok value => rfl

end Entry

theorem parseLine_skipped {text : List Char} (h : Skipped text) : parseLine text = .ok none := by
  exact if_pos h

theorem exists_key_value {line : List Char} (htrim : Trimmed line) (hany : line.any isWhitespace) :
    ∃ key mid value, line = key ++ mid ++ value ∧ key ≠ [] ∧ (∀ c ∈ key, isWhitespace c = false) ∧
      mid ≠ [] ∧ (∀ c ∈ mid, isWhitespace c) ∧ value ≠ [] ∧ Trimmed value := by
  obtain ⟨key, hkeydef⟩ : ∃ key, key = line.takeWhile fun c => !isWhitespace c := ⟨_, rfl⟩
  obtain ⟨rest, hrestdef⟩ : ∃ rest, rest = line.dropWhile fun c => !isWhitespace c := ⟨_, rfl⟩
  have hline : line = key ++ rest := by
    rw [hkeydef, hrestdef, takeWhile_append_dropWhile]
  have hrest : rest = rest.takeWhile isWhitespace ++ rest.dropWhile isWhitespace :=
    takeWhile_append_dropWhile.symm
  have hkey : ∀ c ∈ key, isWhitespace c = false := by
    intro c hc
    rw [hkeydef] at hc
    simpa using mem_takeWhile_imp hc
  obtain ⟨w, rest', hw⟩ : ∃ w rest', rest = w :: rest' := by
    refine exists_cons_of_ne_nil fun hnil => ?_
    obtain ⟨c, hc, hwhite⟩ := any_eq_true.mp hany
    rw [hline, hnil, append_nil] at hc
    rw [hkey c hc] at hwhite
    cases hwhite
  have hwhite : isWhitespace w := by
    have hno := head_dropWhile (fun c => !isWhitespace c) line w (by rw [← hrestdef, hw]; rfl)
    simpa using hno
  have hne : rest ≠ [] := by rw [hw]; exact cons_ne_nil w rest'
  have hlast : ∀ c ∈ rest.getLast?, isWhitespace c = false := by
    intro c hc
    refine htrim.2 c ?_
    rw [hline, getLast?_append_of_ne_nil _ hne]
    exact hc
  have hvalue : rest.dropWhile isWhitespace ≠ [] := by
    intro hnil
    have hall := dropWhile_eq_nil_iff.mp hnil
    have hmem := getLast_mem hne
    have hno := hlast _ (getLast?_eq_some_getLast hne)
    rw [hall _ hmem] at hno
    cases hno
  refine ⟨key, rest.takeWhile isWhitespace, rest.dropWhile isWhitespace, ?_, ?_, hkey, ?_,
    fun c hc => mem_takeWhile_imp hc, hvalue, fun c hc => ?_, fun c hc => ?_⟩
  · rw [append_assoc, ← hrest, ← hline]
  · intro hnil
    have hhead := htrim.1 w (by rw [hline, hnil, hw]; rfl)
    rw [hwhite] at hhead
    cases hhead
  · rw [hw, takeWhile_cons_of_pos hwhite]
    exact cons_ne_nil _ _
  · exact head_dropWhile isWhitespace rest c hc
  · refine hlast c ?_
    rw [hrest, getLast?_append_of_ne_nil _ hvalue]
    exact hc

/-- **There are three kinds of lines**: skipped ones, those without a value, and entries. -/
theorem line_cases (text : List Char) :
    Skipped text ∨ (∃ err, parseLine text = .error err) ∨ ∃ e : Entry, e.text = text := by
  by_cases hskip : Skipped text
  · exact .inl hskip
  right
  obtain ⟨lead, trail, htext, hlead, htrail, htrim⟩ := exists_trim text
  by_cases hany : (trim text).any isWhitespace
  · right
    obtain ⟨key, mid, value, hline, hkey, hsolid, hmid, hwhite, hvalue, hvtrim⟩ :=
      exists_key_value htrim hany
    have hfirst : key.head? ≠ some '#' := by
      intro hhash
      refine hskip (.inr ?_)
      rw [hline, append_assoc, head?_append_of_ne_nil _ hkey, hhash]
    refine ⟨⟨lead, key, mid, value, trail, hlead, hkey, hsolid, hfirst, hmid, hwhite, hvalue,
      hvtrim, htrail⟩, ?_⟩
    rw [Entry.text, ← hline, ← htext]
  · left
    refine ⟨.missingValue (trim text), ?_⟩
    have hno : ¬ (trim text = [] ∨ (trim text).head? = some '#') := hskip
    rw [parseLine, if_neg hno, splitKeyValue, if_neg hany]
    rfl

end DcuDaemon.Config
