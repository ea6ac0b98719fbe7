/-
  The reader of ini files (`gateway_common/src/ini_file.c`, `INI_parse`, over the line reader
  `STREAM_fgets` of `stream_common.c`).

  A line is read into a buffer of 4096 characters and cut up there, in place: blanks are taken off both
  ends, a name is cut from its value by a NUL over the equal sign. Taking off the blanks in front moves
  the string down by one character, however many blanks there are.

  Main definitions: `scan`, `delivered`. Main result: `iniLoop_eq`.
-/
import DcuDaemon.Lib.CString
import DcuDaemon.Lib.Run

namespace DcuDaemon.Gateway

open Lib List Option

/-! ## 1. Reading a line -/

/-- `sizeof(workbuf)`. -/
def workbufSize : Nat := 4096

/-- `sizeof(cur_section)`. -/
def curSectionSize : Nat := 50

def isEol (c : Char) : Bool := c = '\n' ∨ c = '\r'

/-- The loop of `STREAM_fgets`, for at most `n` characters: those read, and those left. -/
def fgetsLoop : Nat → List Char → List Char × List Char
  | 0, text => ([], text)
  | _ + 1, [] => ([], [])
  | n + 1, c :: text =>
    if isEol c then ([c], text)
    else (c :: (fgetsLoop n text).1, (fgetsLoop n text).2)

/-- `STREAM_fgets`: the line and the text left; `none` at the end. A line feed behind a carriage return is
    read too, and stored if there is room. -/
def streamFgets (size : Nat) (text : List Char) : Option (List Char × List Char) :=
  let (line, rest) := fgetsLoop (size - 1) text
  let (line, rest) :=
    if line.getLast? = some '\r' ∧ rest.head? = some '\n' then
      (if line.length ≥ size - 1 then line else line ++ ['\n'], rest.tail)
    else (line, rest)
  if line = [] then none else some (line, rest)

/-! ## 2. Cutting up a line -/

/-- The blanks of `_trim_spaces`. -/
def isBlank (c : Char) : Bool := c = ' ' ∨ c = '\t' ∨ c = '\n' ∨ c = '\r'

/-- The first loop of `_trim_spaces`, of a string of at most `n` characters at `s`. -/
def trimEnd : Nat → List Char → Nat → List Char
  | 0, buf, _ => buf
  | n + 1, buf, s =>
    match (cstr buf s).getLast? with
    | none => buf
    | some c =>
      if isBlank c then trimEnd n (buf.set (s + ((cstr buf s).length - 1)) nul) s else buf

/-- The move of `_trim_spaces`: by one character, if there are any blanks. -/
def trimFront (buf : List Char) (s : Nat) : List Char :=
  if ((cstr buf s).takeWhile isBlank).length ≠ 0 then
    memmove buf s (s + 1) ((cstr buf s).length + 1)
  else buf

def trimSpaces (buf : List Char) (s : Nat) : List Char := trimFront (trimEnd (cstr buf s).length buf s) s

/-- `strrchr`, as an index. -/
def strrchr (str : List Char) (c : Char) : Option Nat :=
  (str.reverse.idxOf? c).map fun i => str.length - 1 - i

/-- `_section_name`: the new `cur_section`, or `none` for a syntax error. -/
def sectionName (buf : List Char) : Option (List Char) :=
  let buf := buf.set 0 ' '
  (strrchr (cstr buf 0) ']').bind fun cp =>
    let buf := trimSpaces (buf.set cp nul) 0
    if (cstr buf 0).length > curSectionSize - 1 then none else some (cstr buf 0)

/-- `_item_name_value`: the strings at `item_name` and `item_value`, or `none` for a syntax error. -/
def itemNameValue (buf : List Char) : Option (List Char × List Char) :=
  let buf := trimSpaces buf 0
  ((cstr buf 0).idxOf? '=').map fun cp =>
    let buf := buf.set cp nul
    let buf := trimSpaces buf 0
    let buf := trimSpaces buf (cp + 1)
    (cstr buf 0, cstr buf (cp + 1))

/-- What the callback is given: `cur_section`, and `item_name` and `item_value` unless they are
    NULL. -/
structure Call where
  curSection : List Char
  item : Option (List Char × List Char)
  deriving DecidableEq

inductive LineResult where
  | skip
  | error
  | call (c : Call)
  deriving DecidableEq

/-- A blank line or a comment, by its first two characters. -/
def isComment (buf : List Char) : Bool :=
  let c := buf.getD 0 nul
  c = nul ∨ c = ';' ∨ c = '#' ∨ (c = '/' ∧ buf.getD 1 nul = '/')

/-- The body of the loop of `INI_parse`, up to the callback. -/
def iniLine (curSection : List Char) (line : List Char) : LineResult :=
  let buf := line ++ List.replicate (workbufSize - line.length) nul
  if '\n' ∉ cstr buf 0 ∧ '\r' ∉ cstr buf 0 then .error
  else
    let buf := trimSpaces buf 0
    if isComment buf then .skip
    else if buf.getD 0 nul = '[' then
      match sectionName buf with
      | none => .error
      | some name => .call ⟨name, none⟩
    else
      match itemNameValue buf with
      | none => .error
      | some item => .call ⟨curSection, some item⟩

/-! ## 3. The loop -/

/-- What a callback answers: its result, `handled`, and whether it set `is_error`. -/
structure Answer where
  code : Int
  handled : Bool
  isError : Bool

/-- `INI_parse` within a number of lines, behind the calls of `made`: the calls, and whether it returns -1. -/
def iniLoop (callback : List Call → Answer) :
    Nat → List Call → List Char → List Char → Option (List Call × Bool)
  | 0, _, _, _ => none
  | n + 1, made, curSection, text =>
    match streamFgets workbufSize text with
    | none => some (made, false)
    | some (line, rest) =>
      match iniLine curSection line with
      | .skip => iniLoop callback n made curSection rest
      | .error => some (made, true)
      | .call c =>
        let answer := callback (made ++ [c])
        if answer.code < 0 then some (made ++ [c], answer.isError)
        else if answer.isError ∨ (answer.handled = false ∧ c.item ≠ none) then
          some (made ++ [c], true)
        else iniLoop callback n (made ++ [c]) c.curSection rest

/-- `INI_parse`; no more lines than characters, and the end. -/
def iniParse (callback : List Call → Answer) (text : List Char) : Option (List Call × Bool) :=
  iniLoop callback (text.length + 1) [] [] text

/-! ## 4. A string without the blanks around it -/

/-- What `_trim_spaces` leaves of a string: all the blanks at its end are gone, and one in front. -/
def trimmed (str : List Char) : List Char :=
  match str.rdropWhile isBlank with
  | [] => []
  | c :: cs => if isBlank c then cs else c :: cs

variable {str back : List Char} {c : Char}

theorem not_mem_rdropWhile (h : c ∉ str) : c ∉ str.rdropWhile isBlank := by
  intro hc
  exact h (( rdropWhile_prefix isBlank str).subset hc)

theorem trimEnd_spec (pre : List Char) (hnul : nul ∉ str) :
    ∀ {n : Nat} (post : List Char), str.length ≤ n →
      ∃ pad, pad.length + (str.rdropWhile isBlank).length = str.length ∧
        trimEnd n (pre ++ str ++ nul :: post) pre.length =
          pre ++ str.rdropWhile isBlank ++ nul :: (pad ++ post) := by
  induction str using reverseRecOn with
  | nil =>
    intro n post _
    refine ⟨[], rfl, ?_⟩
    cases n with
    | zero => rfl
    | succ n =>
      unfold trimEnd
      rw [cstr_at pre hnul post]
      rfl
  | append_singleton str c ih =>
    intro n post hn
    rw [length_append] at hn
    match n, hn with
    | n + 1, hn =>
      unfold trimEnd
      rw [cstr_at pre hnul post, getLast?_concat]
      by_cases hc : isBlank c
      · have hset := set_nul pre str c (nul :: post)
        have hnul' : nul ∉ str := fun h => hnul (mem_append_left _ h)
        obtain ⟨pad, hlen, htrim⟩ := ih hnul' (nul :: post) (Nat.le_of_succ_le_succ hn)
        refine ⟨pad ++ [nul], ?_, ?_⟩
        · rw [rdropWhile_concat_pos _ _ _ hc, length_append, length_append,
            length_singleton, length_singleton]
          omega
        · simp only [hc, length_append, length_singleton, Nat.add_sub_cancel]
          rw [append_assoc, append_assoc, singleton_append, hset, htrim, rdropWhile_concat_pos _ _ _ hc]
          simp
      · refine ⟨[], ?_, ?_⟩
        · rw [rdropWhile_concat_neg _ _ _ hc]
          simp
        · simp only [hc]
          rw [rdropWhile_concat_neg _ _ _ hc]
          rfl

/-- **`_trim_spaces` in place**: the string is trimmed, and nothing behind it changes. -/
theorem trimSpaces_spec (pre : List Char) (hnul : nul ∉ str) (post : List Char) :
    ∃ pad, pad.length + (trimmed str).length = str.length ∧
      trimSpaces (pre ++ str ++ nul :: post) pre.length = pre ++ trimmed str ++ nul :: (pad ++ post) := by
  obtain ⟨pad, hlen, htrim⟩ := trimEnd_spec pre hnul post (Nat.le_refl _)
  have hnul' := not_mem_rdropWhile hnul
  unfold trimSpaces trimFront trimmed
  rw [cstr_at pre hnul post, htrim, cstr_at pre hnul' (pad ++ post)]
  match hstr : str.rdropWhile isBlank with
  | [] =>
    rw [hstr] at hlen
    exact ⟨pad, hlen, rfl⟩
  | c :: cs =>
    rw [hstr] at hlen
    by_cases hc : isBlank c
    · obtain ⟨x, hmove⟩ := memmove_front pre c cs (pad ++ post)
      refine ⟨x :: pad, ?_, ?_⟩
      · simp only [hc, if_true, length_cons] at hlen ⊢
        omega
      · simp only [hc, takeWhile_cons_of_pos hc]
        exact hmove
    · refine ⟨pad, ?_, ?_⟩
      · simp only [hc]
        exact hlen
      · simp only [hc, takeWhile_cons_of_neg hc]
        rfl

theorem not_mem_trimmed (h : c ∉ str) : c ∉ trimmed str := by
  have hc := not_mem_rdropWhile h
  unfold trimmed
  match hstr : str.rdropWhile isBlank with
  | [] => exact not_mem_nil
  | d :: ds =>
    rw [hstr] at hc
    by_cases hd : isBlank d
    · simp only [hd]
      exact fun h => hc (mem_cons_of_mem _ h)
    · simp only [hd]
      exact hc

theorem trimSpaces_zero (hnul : nul ∉ str) (post : List Char) :
    ∃ pad, pad.length + (trimmed str).length = str.length ∧
      trimSpaces (str ++ nul :: post) 0 = trimmed str ++ nul :: (pad ++ post) :=
  trimSpaces_spec [] hnul post

theorem cstr_zero (h : nul ∉ str) (post : List Char) :
    cstr (str ++ nul :: post) 0 = str := cstr_at [] h post

/-! ## 5. A line as a text -/

theorem idxOf?_of_not_mem (h : c ∉ str) (back : List Char) :
    (str ++ c :: back).idxOf? c = some str.length := by
  induction str with
  | nil => simp [idxOf?_cons]
  | cons d str ih =>
    rw [mem_cons, not_or] at h
    have hd : (d == c) = false := beq_eq_false_iff_ne.mpr (Ne.symm h.1)
    rw [cons_append, idxOf?_cons, hd, ih h.2]
    rfl

theorem strrchr_of_not_mem (str : List Char) (h : c ∉ back) :
    strrchr (str ++ c :: back) c = some str.length := by
  have hrev : (str ++ c :: back).reverse = back.reverse ++ c :: str.reverse := by simp
  rw [strrchr, hrev, idxOf?_of_not_mem (by simpa using h)]
  simp

/-- **An item in place**: the first equal sign splits the line, and both sides are trimmed. -/
theorem itemNameValue_eq_some {name value : List Char} (hnul : nul ∉ str) (post : List Char)
    (hstr : trimmed str = name ++ '=' :: value) (heq : '=' ∉ name) :
    itemNameValue (str ++ nul :: post) = some (trimmed name, trimmed value) := by
  obtain ⟨pad, -, htrim⟩ := trimSpaces_zero hnul post
  have hnul1 : nul ∉ trimmed str := not_mem_trimmed hnul
  rw [hstr] at htrim hnul1
  have hnuls : nul ∉ name ∧ nul ∉ value := by
    exact ⟨fun h => hnul1 (mem_append_left _ h), fun h => hnul1 (mem_append_right _ (mem_cons_of_mem _ h))⟩
  have hset : (name ++ '=' :: value ++ nul :: (pad ++ post)).set name.length nul =
      name ++ nul :: (value ++ nul :: (pad ++ post)) := by
    simp
  -- the name, with the value behind it
  obtain ⟨pad1, hlen1, htrim1⟩ := trimSpaces_zero hnuls.1 (value ++ nul :: (pad ++ post))
  -- the value, with the name before it
  obtain ⟨pad2, -, htrim2⟩ := trimSpaces_spec (trimmed name ++ nul :: pad1) hnuls.2 (pad ++ post)
  have hpos : (trimmed name ++ nul :: pad1).length = name.length + 1 := by
    rw [length_append, length_cons]
    omega
  have hshape : trimmed name ++ nul :: (pad1 ++ (value ++ nul :: (pad ++ post))) =
      trimmed name ++ nul :: pad1 ++ value ++ nul :: (pad ++ post) := by simp
  have hvalue := cstr_at (trimmed name ++ nul :: pad1) (not_mem_trimmed hnuls.2) (pad2 ++ (pad ++ post))
  have hname : cstr (trimmed name ++ nul :: pad1 ++ trimmed value ++ nul :: (pad2 ++ (pad ++ post))) 0 =
      trimmed name := by
    have h := cstr_zero (not_mem_trimmed hnuls.1) (pad1 ++ trimmed value ++ nul :: (pad2 ++ (pad ++ post)))
    simpa using h
  rw [hpos] at htrim2 hvalue
  simp only [itemNameValue, htrim, cstr_zero hnul1, idxOf?_of_not_mem heq, map_some, hset,
    htrim1, hshape, htrim2, hname, hvalue]

theorem itemNameValue_eq_none (hnul : nul ∉ str) (post : List Char)
    (h : '=' ∉ trimmed str) : itemNameValue (str ++ nul :: post) = none := by
  obtain ⟨pad, -, htrim⟩ := trimSpaces_zero hnul post
  simp only [itemNameValue, htrim, cstr_zero (not_mem_trimmed hnul), idxOf?_eq_none_iff.mpr h, map_none]

/-- **A section in place**: up to the last closing bracket, trimmed with a blank for the opening
    one. -/
theorem sectionName_eq (hnul : nul ∉ str ++ ']' :: back) (post : List Char) (hback : ']' ∉ back) :
    sectionName ('[' :: str ++ ']' :: back ++ nul :: post) =
      if (trimmed (' ' :: str)).length > curSectionSize - 1 then none
      else some (trimmed (' ' :: str)) := by
  have hspace : nul ∉ ' ' :: str ++ ']' :: back := by
    rw [cons_append, mem_cons, not_or]
    exact ⟨by decide, hnul⟩
  have hstr : nul ∉ ' ' :: str := fun h => hspace (mem_append_left _ h)
  have hopen : ('[' :: str ++ ']' :: back ++ nul :: post).set 0 ' ' =
      ' ' :: str ++ ']' :: back ++ nul :: post := rfl
  have hset : (' ' :: str ++ ']' :: back ++ nul :: post).set (' ' :: str).length nul =
      ' ' :: str ++ nul :: (back ++ nul :: post) := by
    simp
  obtain ⟨pad, -, htrim⟩ := trimSpaces_zero hstr (back ++ nul :: post)
  simp only [sectionName, hopen, cstr_zero hspace, strrchr_of_not_mem _ hback, bind_some, hset,
    htrim, cstr_zero (not_mem_trimmed hstr)]

/-- A line that was read: it fits the buffer with its NUL, and its end was found. -/
structure ReadLine (line : List Char) : Prop where
  nul_not_mem : nul ∉ line
  length_lt : line.length < workbufSize
  eol : '\n' ∈ line ∨ '\r' ∈ line

theorem isComment_append (str post : List Char) : isComment (str ++ nul :: post) = isComment str := by
  match str with
  | [] => rfl
  | [c] => rfl
  | c :: d :: str => rfl

theorem opens_section_iff (str post : List Char) :
    (str ++ nul :: post).getD 0 nul = '[' ↔ str.head? = some '[' := by
  match str with
  | [] => simp [nul]
  | c :: str => simp

section Line

variable {line : List Char}

theorem iniLine_too_long (curSection : List Char) (hnul : nul ∉ line)
    (hlen : line.length < workbufSize) (heol : ∀ c ∈ line, isEol c = false) :
    iniLine curSection line = .error := by
  obtain ⟨n, hn⟩ : ∃ n, workbufSize - line.length = n + 1 := ⟨workbufSize - line.length - 1, by omega⟩
  have hno : '\n' ∉ line ∧ '\r' ∉ line := by
    constructor <;> intro hc <;> exact absurd (heol _ hc) (by decide)
  simp only [iniLine, hn, replicate_succ, cstr_zero hnul, if_pos hno]

variable (h : ReadLine line) (curSection : List Char)

include h

theorem iniLine_eq :
    ∃ post, iniLine curSection line =
      if isComment (trimmed line) then .skip
      else if (trimmed line).head? = some '[' then
        match sectionName (trimmed line ++ nul :: post) with
        | none => .error
        | some name => .call ⟨name, none⟩
      else
        match itemNameValue (trimmed line ++ nul :: post) with
        | none => .error
        | some item => .call ⟨curSection, some item⟩ := by
  obtain ⟨n, hn⟩ : ∃ n, workbufSize - line.length = n + 1 :=
    ⟨workbufSize - line.length - 1, by have := h.length_lt; omega⟩
  obtain ⟨pad, -, htrim⟩ := trimSpaces_zero h.nul_not_mem (replicate n nul)
  have heol : ¬ ('\n' ∉ line ∧ '\r' ∉ line) := fun hno => h.eol.elim hno.1 hno.2
  refine ⟨pad ++ replicate n nul, ?_⟩
  simp only [iniLine, hn, replicate_succ, cstr_zero h.nul_not_mem, if_neg heol, htrim,
    isComment_append, opens_section_iff]

theorem iniLine_skip (hcomment : isComment (trimmed line)) : iniLine curSection line = .skip := by
  obtain ⟨post, heq⟩ := iniLine_eq h curSection
  rw [heq, if_pos hcomment]

theorem iniLine_section {str back : List Char}
    (hline : trimmed line = '[' :: str ++ ']' :: back) (hback : ']' ∉ back) :
    iniLine curSection line =
      if (trimmed (' ' :: str)).length > curSectionSize - 1 then .error
      else .call ⟨trimmed (' ' :: str), none⟩ := by
  obtain ⟨post, heq⟩ := iniLine_eq h curSection
  have hnul : nul ∉ str ++ ']' :: back := by
    have := not_mem_trimmed h.nul_not_mem
    rw [hline, cons_append, mem_cons, not_or] at this
    exact this.2
  have hcomment : ¬ isComment (trimmed line) := by
    rw [hline]
    simp [isComment, nul]
  have hhead : (trimmed line).head? = some '[' := by
    rw [hline]
    rfl
  rw [heq, if_neg hcomment, if_pos hhead, hline, sectionName_eq hnul post hback]
  by_cases hbig : (trimmed (' ' :: str)).length > curSectionSize - 1
  · rw [if_pos hbig, if_pos hbig]
  · rw [if_neg hbig, if_neg hbig]

theorem iniLine_item {name value : List Char}
    (hcomment : isComment (trimmed line) = false) (hhead : (trimmed line).head? ≠ some '[')
    (hline : trimmed (trimmed line) = name ++ '=' :: value) (hname : '=' ∉ name) :
    iniLine curSection line = .call ⟨curSection, some (trimmed name, trimmed value)⟩ := by
  obtain ⟨post, heq⟩ := iniLine_eq h curSection
  rw [heq, hcomment, if_neg Bool.false_ne_true, if_neg hhead,
    itemNameValue_eq_some (not_mem_trimmed h.nul_not_mem) post hline hname]

theorem iniLine_refuse
    (hcomment : isComment (trimmed line) = false) (hhead : (trimmed line).head? ≠ some '[')
    (hline : '=' ∉ trimmed (trimmed line)) : iniLine curSection line = .error := by
  obtain ⟨post, heq⟩ := iniLine_eq h curSection
  rw [heq, hcomment, if_neg Bool.false_ne_true, if_neg hhead,
    itemNameValue_eq_none (not_mem_trimmed h.nul_not_mem) post hline]

end Line

/-! ## 6. The calls -/

/-- The calls that are made behind some text, as long as each is taken. -/
def scan : Nat → List Char → List Char → Option (List Call)
  | 0, _, _ => none
  | n + 1, curSection, text =>
    match streamFgets workbufSize text with
    | none => some []
    | some (line, rest) =>
      match iniLine curSection line with
      | .skip => scan n curSection rest
      | .error => some []
      | .call c => (scan n c.curSection rest).map (c :: ·)

def Answer.Ends (a : Answer) (c : Call) : Prop :=
  a.code < 0 ∨ a.isError = true ∨ (a.handled = false ∧ c.item ≠ none)

instance (a : Answer) (c : Call) : Decidable (a.Ends c) := inferInstanceAs (Decidable (_ ∨ _))

/-- The calls that a callback is given, of those there are to make. -/
def delivered (callback : List Call → Answer) (made : List Call) : List Call → List Call
  | [] => made
  | c :: calls =>
    if (callback (made ++ [c])).Ends c then made ++ [c]
    else delivered callback (made ++ [c]) calls

/-- **A callback is given the calls in their order**, up to the one by which it ends the reading. -/
theorem iniLoop_eq (callback : List Call → Answer) {n : Nat} :
    ∀ {made calls : List Call} {curSection text : List Char}, scan n curSection text = some calls →
      (iniLoop callback n made curSection text).map Prod.fst = some (delivered callback made calls) := by
  induction n with
  | zero =>
    intro made calls curSection text h
    cases h
  | succ n ih =>
    intro made calls curSection text h
    cases hfgets : streamFgets workbufSize text with
    | none =>
      simp only [scan, hfgets] at h
      cases h
      simp only [iniLoop, hfgets, map_some, delivered]
    | some read =>
      obtain ⟨line, rest⟩ := read
      cases hline : iniLine curSection line with
      | skip =>
        simp only [scan, hfgets, hline] at h
        simp only [iniLoop, hfgets, hline]
        exact ih h
      | error =>
        simp only [scan, hfgets, hline] at h
        cases h
        simp only [iniLoop, hfgets, hline, map_some, delivered]
      | call c =>
        simp only [scan, hfgets, hline] at h
        obtain ⟨behind, hbehind, rfl⟩ := map_eq_some_iff.mp h
        simp only [iniLoop, hfgets, hline, delivered]
        by_cases hcode : (callback (made ++ [c])).code < 0
        · rw [if_pos hcode, if_pos (.inl hcode)]
          rfl
        · rw [if_neg hcode]
          by_cases hend : (callback (made ++ [c])).isError ∨
              ((callback (made ++ [c])).handled = false ∧ c.item ≠ none)
          · rw [if_pos hend, if_pos (.inr hend)]
            rfl
          · rw [if_neg hend, if_neg (fun h => h.elim hcode hend)]
            exact ih hbehind

/-- The calls behind a text, however many lines may be read beyond it. -/
def Scans (curSection text : List Char) (calls : List Call) : Prop :=
  ∀ n, text.length < n → scan n curSection text = some calls

theorem scans_nil (curSection : List Char) : Scans curSection [] [] := by
  intro n hn
  match n, hn with
  | n + 1, _ => rfl

section Scans

variable {curSection text line rest : List Char}
variable {calls : List Call}

theorem scans_skip (hread : streamFgets workbufSize text = some (line, rest))
    (hlt : rest.length < text.length) (hline : iniLine curSection line = .skip)
    (h : Scans curSection rest calls) : Scans curSection text calls := by
  intro n hn
  match n, hn with
  | n + 1, hn =>
    simp only [scan, hread, hline]
    exact h n (by omega)

theorem scans_error (hread : streamFgets workbufSize text = some (line, rest))
    (hline : iniLine curSection line = .error) : Scans curSection text [] := by
  intro n hn
  match n, hn with
  | n + 1, hn => simp only [scan, hread, hline]

theorem scans_call {c : Call}
    (hread : streamFgets workbufSize text = some (line, rest)) (hlt : rest.length < text.length)
    (hline : iniLine curSection line = .call c) (h : Scans c.curSection rest calls) :
    Scans curSection text (c :: calls) := by
  intro n hn
  match n, hn with
  | n + 1, hn =>
    simp only [scan, hread, hline, h n (by omega), map_some]

end Scans

end DcuDaemon.Gateway
