/-
  Ini texts with blanks around their names and values, and what `INI_parse` makes of them.

  A text is a list of lines, each blank, a comment, a section or an item, with blanks wherever they may
  stand and with one of the three line ends. A call is expected for each section and each item, in their
  order, with the blanks taken off.

  Main result: `ini_calls_iff`.
-/
import DcuDaemon.Gateway.IniFile

namespace DcuDaemon.Gateway

open Lib List Option

/-! ## 1. Texts -/

structure Blanks where
  chars : List Char
  blank : ∀ c ∈ chars, c = ' ' ∨ c = '\t'

def InLine (c : Char) : Prop := c ≠ nul ∧ c ≠ '\n' ∧ c ≠ '\r'

instance (c : Char) : Decidable (InLine c) := inferInstanceAs (Decidable (_ ∧ _))

/-- A part of a line with no blanks around it. -/
structure Word where
  chars : List Char
  inLine : ∀ c ∈ chars, InLine c
  head : ∀ c ∈ chars.head?, isBlank c = false
  last : ∀ c ∈ chars.getLast?, isBlank c = false

/-- The name of an item: it does not make the line a comment or a section. -/
structure ItemName extends Word where
  no_equal : '=' ∉ chars
  no_comment : isComment (chars ++ ['=']) = false
  no_section : chars.head? ≠ some '['

/-- The text of a comment, from its mark on. -/
structure Comment where
  chars : List Char
  inLine : ∀ c ∈ chars, InLine c
  ne_nil : chars ≠ []
  mark : isComment chars = true

/-- A line without its end. -/
inductive IniLine where
  | blank (pad : Blanks)
  | comment (lead : Blanks) (text : Comment)
  | section (lead inner : Blanks) (name : Word) (trail after : Blanks)
  | item (lead : Blanks) (name : ItemName) (trail before : Blanks) (value : Word) (after : Blanks)

def IniLine.content : IniLine → List Char
  | .blank pad => pad.chars
  | .comment lead text => lead.chars ++ text.chars
  | .section lead inner name trail after =>
    lead.chars ++ '[' :: (inner.chars ++ name.chars ++ trail.chars) ++ ']' :: after.chars
  | .item lead name trail before value after =>
    lead.chars ++ name.chars ++ trail.chars ++ '=' :: (before.chars ++ value.chars ++ after.chars)

inductive Eol where
  | lf
  | cr
  | crlf

def Eol.chars : Eol → List Char
  | .lf => ['\n']
  | .cr => ['\r']
  | .crlf => ['\r', '\n']

def render (text : List (IniLine × Eol)) : List Char :=
  text.flatMap fun line => line.1.content ++ line.2.chars

/-- The call for a line behind a section. -/
def IniLine.call (curSection : List Char) : IniLine → Option Call
  | .blank _ => none
  | .comment _ _ => none
  | .section _ _ name _ _ => some ⟨name.chars, none⟩
  | .item _ name _ _ value _ => some ⟨curSection, some (name.chars, value.chars)⟩

/-- The calls for the lines behind a section, in their order. -/
def expected (curSection : List Char) : List IniLine → List Call
  | [] => []
  | line :: lines =>
    match line.call curSection with
    | none => expected curSection lines
    | some c => c :: expected c.curSection lines

/-! ## 2. What can be read -/

/-- The line fits the buffer, and `_trim_spaces` takes off all its blanks, one in each call: of a name three,
    of a value one, of a section the bracket. -/
def IniLine.Readable (line : IniLine) : Prop :=
  line.content.length < workbufSize - 1 ∧
  match line with
  | .blank _ => True
  | .comment lead _ => lead.chars.length ≤ 1
  | .section lead inner name _ _ =>
    lead.chars.length ≤ 1 ∧ (name.chars = [] ∨ inner.chars = []) ∧ name.chars.length ≤ curSectionSize - 1
  | .item lead name _ before value _ =>
    (name.chars = [] ∨ lead.chars.length ≤ 3) ∧ (value.chars = [] ∨ before.chars.length ≤ 1)

def IniLine.Quiet (line : IniLine) : Prop := ∀ curSection, line.call curSection = none

/-- A line without a call, expected or made: too long, or a comment that does not look like an item. -/
def IniLine.Refused : IniLine → Prop
  | .blank pad => workbufSize - 1 ≤ pad.chars.length
  | .comment lead text => workbufSize - 1 ≤ (lead.chars ++ text.chars).length ∨ '=' ∉ text.chars
  | .section _ _ _ _ _ => False
  | .item _ _ _ _ _ _ => False

/-- Every line can be read, or all up to one that ends the reading, behind which no call is expected. -/
def Faithful : List IniLine → Prop
  | [] => True
  | line :: lines =>
    line.Readable ∧ Faithful lines ∨ ¬ line.Readable ∧ line.Refused ∧ ∀ l ∈ lines, l.Quiet

/-! ## 3. Reading a line -/

variable {content lead after word front back trail text curSection rest : List Char} {c : Char}
  {lines : List IniLine} {line : IniLine} {calls : List Call}

section Content

variable (hcontent : ∀ c ∈ content, isEol c = false)

include hcontent

theorem fgetsLoop_line (hc : isEol c) (rest : List Char) :
    ∀ {n : Nat}, content.length < n → fgetsLoop n (content ++ c :: rest) = (content ++ [c], rest) := by
  induction content with
  | nil =>
    intro n hn
    match n, hn with
    | n + 1, _ => simp [fgetsLoop, hc]
  | cons d content ih =>
    intro n hn
    rw [forall_mem_cons] at hcontent
    match n, hn with
    | n + 1, hn =>
      simp [fgetsLoop, hcontent.1, ih hcontent.2 (Nat.lt_of_succ_lt_succ hn)]

theorem fgetsLoop_long (rest : List Char) :
    ∀ {n : Nat}, n ≤ content.length →
      fgetsLoop n (content ++ rest) = (content.take n, content.drop n ++ rest) := by
  induction content with
  | nil =>
    intro n hn
    match n, hn with
    | 0, _ => rfl
  | cons d content ih =>
    intro n hn
    rw [forall_mem_cons] at hcontent
    match n, hn with
    | 0, _ => rfl
    | n + 1, hn =>
      simp [fgetsLoop, hcontent.1, ih hcontent.2 (Nat.le_of_succ_le_succ hn)]

theorem streamFgets_cr
    (hlen : content.length < workbufSize - 1) (text : List Char) :
    ∃ eols, eols ≠ [] ∧ (∀ c ∈ eols, isEol c) ∧ (content ++ eols).length < workbufSize ∧
      streamFgets workbufSize (content ++ '\r' :: text) =
        some (content ++ eols, if text.head? = some '\n' then text.tail else text) := by
  have hloop := fgetsLoop_line hcontent (c := '\r') rfl text hlen
  have hsize : workbufSize = 4096 := rfl
  have hne : ∀ eols, eols ≠ [] → content ++ eols ≠ [] := by
    intro eols h
    simp [h]
  unfold streamFgets
  simp only [hloop, getLast?_concat, true_and]
  by_cases htext : text.head? = some '\n'
  · by_cases hroom : (content ++ ['\r']).length ≥ workbufSize - 1
    · refine ⟨['\r'], by decide, by simp [isEol], ?_, ?_⟩
      · rw [length_append, length_singleton]
        omega
      · simp only [htext, if_true, if_pos hroom, if_neg (hne _ (by decide : ['\r'] ≠ []))]
    · refine ⟨['\r', '\n'], by decide, by simp [isEol], ?_, ?_⟩
      · simp only [length_append, length_cons] at hroom ⊢
        omega
      · simp only [htext, if_true, if_neg hroom, append_assoc, singleton_append,
          if_neg (hne _ (by decide : ['\r', '\n'] ≠ []))]
  · refine ⟨['\r'], by decide, by simp [isEol], ?_, ?_⟩
    · rw [length_append, length_singleton]
      omega
    · simp [if_neg htext]

/-- **A line is read up to its end**, whichever it is; a line feed behind a lone carriage return is
    read with it. -/
theorem streamFgets_line
    (hlen : content.length < workbufSize - 1) (e : Eol) (text : List Char) :
    ∃ eols rest, streamFgets workbufSize (content ++ e.chars ++ text) = some (content ++ eols, rest) ∧
      eols ≠ [] ∧ (∀ c ∈ eols, isEol c) ∧ (content ++ eols).length < workbufSize ∧
      (rest = text ∨ text = '\n' :: rest) := by
  rw [append_assoc]
  cases e with
  | lf =>
    have hloop := fgetsLoop_line hcontent (c := '\n') rfl text hlen
    have hsize : workbufSize = 4096 := rfl
    refine ⟨['\n'], text, ?_, by decide, by simp [isEol], ?_, .inl rfl⟩
    · simp [streamFgets, Eol.chars, hloop]
    · rw [length_append, length_singleton]
      omega
  | cr =>
    obtain ⟨eols, hne, heols, hfit, hread⟩ := streamFgets_cr hcontent hlen text
    refine ⟨eols, _, hread, hne, heols, hfit, ?_⟩
    by_cases htext : text.head? = some '\n'
    · rw [if_pos htext]
      exact .inr (cons_head?_tail htext).symm
    · rw [if_neg htext]
      exact .inl rfl
  | crlf =>
    obtain ⟨eols, hne, heols, hfit, hread⟩ := streamFgets_cr hcontent hlen ('\n' :: text)
    exact ⟨eols, _, hread, hne, heols, hfit, .inl rfl⟩

theorem streamFgets_long
    (hlen : workbufSize - 1 ≤ content.length) (text : List Char) :
    ∃ rest, streamFgets workbufSize (content ++ text) = some (content.take (workbufSize - 1), rest) := by
  have hloop := fgetsLoop_long hcontent text hlen
  have hlast : (content.take (workbufSize - 1)).getLast? ≠ some '\r' := by
    intro h
    have hmem := mem_of_mem_take (mem_of_getLast? h)
    exact absurd (hcontent _ hmem) (by decide)
  have hne : content.take (workbufSize - 1) ≠ [] := by
    intro h
    have hzero := congrArg length h
    rw [length_take, length_nil] at hzero
    have hsize : workbufSize = 4096 := rfl
    omega
  exact ⟨_, by simp only [streamFgets, hloop, hlast, false_and, if_false, if_neg hne]; rfl⟩

end Content

/-! ## 4. Blanks around a text -/

abbrev AllBlank (cs : List Char) : Prop := ∀ c ∈ cs, isBlank c

theorem AllBlank.tail (h : AllBlank text) : AllBlank text.tail := fun c hc => h c (mem_of_mem_tail hc)

theorem AllBlank.drop (h : AllBlank text) (n : Nat) : AllBlank (text.drop n) := fun c hc => h c (mem_of_mem_drop hc)

theorem AllBlank.append (hfront : AllBlank front) (hback : AllBlank back) : AllBlank (front ++ back) :=
  forall_mem_append.mpr ⟨hfront, hback⟩

theorem AllBlank.equal_not_mem (h : AllBlank text) : '=' ∉ text := fun hmem => absurd (h _ hmem) (by decide)

/-- A text with no blank at its ends. -/
structure Framed (body : List Char) : Prop where
  head : ∃ c, body.head? = some c ∧ isBlank c = false
  last : ∃ c, body.getLast? = some c ∧ isBlank c = false

theorem trimmed_blank {pad : List Char} (h : AllBlank pad) : trimmed pad = [] := by
  have hpad : pad.rdropWhile isBlank = [] := by
    rw [rdropWhile_eq_nil_iff]
    exact h
  rw [trimmed, hpad]

/-- **One blank in front goes, and all behind.** -/
theorem trimmed_framed {body : List Char} (hlead : AllBlank lead)
    (hafter : AllBlank after) (hbody : Framed body) :
    trimmed (lead ++ body ++ after) = lead.tail ++ body := by
  have hend : (lead ++ body ++ after).rdropWhile isBlank = lead ++ body := by
    obtain ⟨c, hc, hblank⟩ := hbody.last
    obtain ⟨front, rfl⟩ := getLast?_eq_some_iff.mp hc
    rw [rdropWhile_append_of_all _ hafter, rdropWhile_append_of_last _ hblank]
  rw [trimmed, hend]
  cases lead with
  | nil =>
    obtain ⟨c, hc, hblank⟩ := hbody.head
    obtain ⟨rest, rfl⟩ := head?_eq_some_iff.mp hc
    simp [hblank]
  | cons l lead =>
    simp [hlead l mem_cons_self]

theorem Word.framed {word : Word} (h : word.chars ≠ []) : Framed word.chars := by
  constructor
  · obtain ⟨c, hc⟩ := isSome_iff_exists.mp (isSome_head?.mpr h)
    exact ⟨c, hc, word.head c hc⟩
  · obtain ⟨c, hc⟩ := isSome_iff_exists.mp (getLast?_isSome.mpr h)
    exact ⟨c, hc, word.last c hc⟩

/-- What is left of a word behind blanks of which `n` are taken off. -/
def behind (n : Nat) (lead word : List Char) : List Char :=
  if word = [] then [] else lead.drop n ++ word

theorem behind_eq_self_iff {n : Nat} : behind n lead word = word ↔ word = [] ∨ lead.length ≤ n := by
  unfold behind
  by_cases hword : word = []
  · simp [hword]
  · rw [if_neg hword]
    simp [hword]

theorem behind_zero_eq_self_iff : behind 0 lead word = word ↔ word = [] ∨ lead = [] := by
  rw [behind_eq_self_iff, Nat.le_zero, length_eq_zero_iff]

theorem trimmed_word (word : Word) (hlead : AllBlank lead) (hafter : AllBlank after) :
    trimmed (lead ++ word.chars ++ after) = behind 1 lead word.chars := by
  unfold behind
  by_cases hword : word.chars = []
  · rw [hword, append_nil]
    exact trimmed_blank (hlead.append hafter)
  · rw [if_neg hword, trimmed_framed hlead hafter (Word.framed hword), drop_one]

theorem Framed.append (hfront : Framed front) (mid : List Char)
    (hback : Framed back) : Framed (front ++ mid ++ back) := by
  constructor
  · obtain ⟨c, hc, hblank⟩ := hfront.head
    exact ⟨c, by simp [hc], hblank⟩
  · obtain ⟨c, hc, hblank⟩ := hback.last
    exact ⟨c, by simp [hc], hblank⟩

theorem framed_singleton (h : isBlank c = false) : Framed [c] := ⟨⟨c, rfl, h⟩, ⟨c, rfl, h⟩⟩

theorem Blanks.isBlank (pad : Blanks) : AllBlank pad.chars := by
  intro c hc
  rcases pad.blank c hc with rfl | rfl
  · rfl
  · rfl

theorem isBlank_of_isEol (h : isEol c) : isBlank c := by
  simp only [isEol, decide_eq_true_eq] at h
  rcases h with rfl | rfl
  · rfl
  · rfl

theorem unmarked_of_blank (h : isBlank c) (rest : List Char) :
    isComment (c :: rest) = false ∧ (c :: rest).head? ≠ some '[' := by
  simp only [isBlank, decide_eq_true_eq] at h
  rcases h with rfl | rfl | rfl | rfl <;> simp [isComment, nul]

theorem unmarked_behind {pad body : List Char} (hpad : AllBlank pad)
    (hbody : isComment body = false ∧ body.head? ≠ some '[') :
    isComment (pad ++ body) = false ∧ (pad ++ body).head? ≠ some '[' := by
  cases pad with
  | nil => exact hbody
  | cons c pad => exact unmarked_of_blank (hpad c mem_cons_self) _

theorem equal_not_mem_behind {str : List Char} (hlead : AllBlank lead)
    (h : '=' ∉ str) : '=' ∉ lead.drop 2 ++ str :=
  not_mem_append (hlead.drop 2).equal_not_mem h

section Padded

variable {lead body after : List Char} (hlead : AllBlank lead)
  (hafter : AllBlank after) (hbody : Framed body)

include hlead hafter hbody

theorem trimmed_twice : trimmed (trimmed (lead ++ body ++ after)) = lead.drop 2 ++ body := by
  have h := trimmed_framed hlead.tail (forall_mem_nil _) hbody
  have hdrop : lead.drop 2 = lead.tail.tail := by
    rw [← drop_one, ← drop_one, drop_drop]
  rw [trimmed_framed hlead hafter hbody, hdrop, ← h, append_nil]

theorem iniLine_split (h : ReadLine (lead ++ body ++ after)) (curSection : List Char)
    (hcomment : isComment (lead.tail ++ body) = false)
    (hhead : (lead.tail ++ body).head? ≠ some '[') {name value : List Char}
    (hsplit : body = name ++ '=' :: value) (hname : '=' ∉ name) :
    iniLine curSection (lead ++ body ++ after) =
      .call ⟨curSection, some (trimmed (lead.drop 2 ++ name), trimmed value)⟩ := by
  have htrim := trimmed_framed hlead hafter hbody
  have htwice := trimmed_twice hlead hafter hbody
  apply iniLine_item h curSection
  · rw [htrim, hcomment]
  · rw [htrim]
    exact hhead
  · rw [htwice, hsplit, append_assoc]
  · exact equal_not_mem_behind hlead hname

/-- **A line behind two blanks** is taken for an item, whatever it is. -/
theorem iniLine_indented (h : ReadLine (lead ++ body ++ after)) (curSection : List Char)
    (hlen : 1 < lead.length) :
    ('=' ∉ body ∧ iniLine curSection (lead ++ body ++ after) = .error) ∨
    ∃ name value, body = name ++ '=' :: value ∧ iniLine curSection (lead ++ body ++ after) =
      .call ⟨curSection, some (trimmed (lead.drop 2 ++ name), trimmed value)⟩ := by
  have hfront : isComment (lead.tail ++ body) = false ∧ (lead.tail ++ body).head? ≠ some '[' := by
    match lead, hlen with
    | a :: b :: lead, _ => exact unmarked_of_blank (hlead b (by simp)) _
  have htrim := trimmed_framed hlead hafter hbody
  by_cases hmem : '=' ∈ body
  · obtain ⟨name, value, hsplit, hname⟩ := eq_append_cons_of_mem hmem
    exact .inr ⟨name, value, hsplit,
      iniLine_split hlead hafter hbody h curSection hfront.1 hfront.2 hsplit hname⟩
  · refine .inl ⟨hmem, iniLine_refuse h curSection ?_ ?_ ?_⟩
    · rw [htrim, hfront.1]
    · rw [htrim]
      exact hfront.2
    · rw [trimmed_twice hlead hafter hbody]
      exact equal_not_mem_behind hlead hmem

end Padded

/-! ## 5. The four kinds of lines -/

/-- The second character of a line behind its name is no slash, whether a blank or the equal sign. -/
theorem ItemName.unmarked (name : ItemName) (htrail : AllBlank trail) (v : List Char) :
    isComment (name.chars ++ trail ++ '=' :: v) = false ∧
      (name.chars ++ trail ++ '=' :: v).head? ≠ some '[' := by
  have hcomment := name.no_comment
  have hsection := name.no_section
  match hname : name.chars with
  | [] => exact unmarked_behind htrail ⟨rfl, by simp⟩
  | [c] =>
    rw [hname] at hcomment hsection
    refine ⟨?_, by simpa using hsection⟩
    cases trail with
    | nil => exact hcomment
    | cons t trail =>
      have ht : t ≠ '/' := by
        intro hslash
        exact absurd (htrail t mem_cons_self) (by rw [hslash]; decide)
      simp [isComment] at hcomment
      simp [isComment, hcomment, ht]
  | c :: d :: rest =>
    rw [hname] at hcomment hsection
    exact ⟨hcomment, by simpa using hsection⟩

/-- **An item** loses up to three blanks in front of its name, and one in front of its value. -/
theorem iniLine_item_framed {v : List Char} (name : ItemName)
    (hlead : AllBlank lead) (htrail : AllBlank trail)
    (hafter : AllBlank after) (hvalue : Framed ('=' :: v))
    (h : ReadLine (lead ++ (name.chars ++ trail ++ '=' :: v) ++ after)) (curSection : List Char) :
    iniLine curSection (lead ++ (name.chars ++ trail ++ '=' :: v) ++ after) =
      .call ⟨curSection, some (behind 3 lead name.chars, trimmed v)⟩ := by
  by_cases hname : name.chars = []
  · -- the blanks on both sides of the name stand in front of the equal sign
    have hpad := hlead.append htrail
    have hfront : isComment ((lead ++ trail).tail ++ '=' :: v) = false ∧
        ((lead ++ trail).tail ++ '=' :: v).head? ≠ some '[' :=
      unmarked_behind hpad.tail ⟨rfl, by simp⟩
    have hshape : lead ++ (name.chars ++ trail ++ '=' :: v) ++ after =
        lead ++ trail ++ '=' :: v ++ after := by
      simp [hname]
    rw [hshape] at h ⊢
    rw [iniLine_split hpad hafter hvalue h curSection hfront.1 hfront.2 (nil_append _).symm
      not_mem_nil, trimmed_blank ((hpad.drop 2).append (forall_mem_nil _)), behind, if_pos hname]
  · have hframed : Framed name.chars := Word.framed hname
    have hfront := unmarked_behind hlead.tail (name.unmarked htrail v)
    have heq := not_mem_append name.no_equal htrail.equal_not_mem
    have htrim : trimmed (lead.drop 2 ++ (name.chars ++ trail)) = lead.drop 3 ++ name.chars := by
      rw [← append_assoc, trimmed_framed (hlead.drop 2) htrail hframed, tail_drop]
    rw [iniLine_split hlead hafter (hframed.append trail hvalue) h curSection hfront.1 hfront.2 rfl heq,
      htrim, behind, if_neg hname]

theorem section_framed (inner : Blanks) (name : Word) (trail : Blanks) :
    Framed (['['] ++ (inner.chars ++ name.chars ++ trail.chars) ++ [']']) :=
  (framed_singleton rfl).append _ (framed_singleton rfl)

theorem section_content_append (lead inner : Blanks) (name : Word) (trail after : Blanks)
    (eols : List Char) : (IniLine.section lead inner name trail after).content ++ eols =
      lead.chars ++ (['['] ++ (inner.chars ++ name.chars ++ trail.chars) ++ [']']) ++
        (after.chars ++ eols) := by
  simp [IniLine.content]

section Kinds

variable {eols : List Char} (heols : AllBlank eols)

include heols

variable {lead trail after inner : Blanks} {name : Word}

theorem iniLine_item_eq {name : ItemName} {before : Blanks} {value : Word}
    (h : ReadLine ((IniLine.item lead name trail before value after).content ++ eols)) (curSection : List Char) :
    iniLine curSection ((IniLine.item lead name trail before value after).content ++ eols) =
      .call ⟨curSection, some (behind 3 lead.chars name.chars, behind 1 before.chars value.chars)⟩ := by
  by_cases hvalue : value.chars = []
  · -- the blanks before the value are at the end of the line
    have hshape : (IniLine.item lead name trail before value after).content ++ eols =
        lead.chars ++ (name.chars ++ trail.chars ++ '=' :: []) ++
          (before.chars ++ after.chars ++ eols) := by
      simp [IniLine.content, hvalue]
    have hafter := (before.isBlank.append after.isBlank).append heols
    have hnone : behind 1 before.chars value.chars = [] := if_pos hvalue
    rw [hshape] at h ⊢
    rw [iniLine_item_framed name lead.isBlank trail.isBlank hafter (framed_singleton rfl) h, hnone]
    rfl
  · have hshape : (IniLine.item lead name trail before value after).content ++ eols =
        lead.chars ++ (name.chars ++ trail.chars ++ '=' :: (before.chars ++ value.chars)) ++
          (after.chars ++ eols) := by
      simp [IniLine.content]
    have hafter := after.isBlank.append heols
    have hframed : Framed ('=' :: (before.chars ++ value.chars)) :=
      (framed_singleton rfl).append before.chars (Word.framed hvalue)
    have htrim := trimmed_word value before.isBlank (forall_mem_nil _)
    rw [append_nil] at htrim
    rw [hshape] at h ⊢
    rw [iniLine_item_framed name lead.isBlank trail.isBlank hafter hframed h, htrim]

/-- **A section** that is not indented loses the bracket as its only blank. -/
theorem iniLine_section_eq (h : ReadLine ((IniLine.section lead inner name trail after).content ++ eols))
    (hlen : lead.chars.length ≤ 1) (curSection : List Char) :
    iniLine curSection ((IniLine.section lead inner name trail after).content ++ eols) =
      if (behind 0 inner.chars name.chars).length > curSectionSize - 1 then .error
      else .call ⟨behind 0 inner.chars name.chars, none⟩ := by
  have hafter := after.isBlank.append heols
  have htail : lead.chars.tail = [] := by
    rw [← drop_one, drop_eq_nil_iff]
    exact hlen
  have hline : trimmed (lead.chars ++
      (['['] ++ (inner.chars ++ name.chars ++ trail.chars) ++ [']']) ++ (after.chars ++ eols)) =
      '[' :: (inner.chars ++ name.chars ++ trail.chars) ++ ']' :: [] := by
    rw [trimmed_framed lead.isBlank hafter (section_framed inner name trail), htail]
    rfl
  -- the blank in place of the bracket
  have hopen : AllBlank (' ' :: inner.chars) := forall_mem_cons.mpr ⟨rfl, inner.isBlank⟩
  have htrim : trimmed (' ' :: (inner.chars ++ name.chars ++ trail.chars)) =
      behind 0 inner.chars name.chars := trimmed_word name hopen trail.isBlank
  rw [section_content_append] at h ⊢
  rw [iniLine_section h curSection hline not_mem_nil]
  rw [htrim]

/-- **A section behind two blanks** ends the reading, or is taken for an item. -/
theorem iniLine_section_indented
    (h : ReadLine ((IniLine.section lead inner name trail after).content ++ eols))
    (hlen : 1 < lead.chars.length) (curSection : List Char) :
    iniLine curSection ((IniLine.section lead inner name trail after).content ++ eols) = .error ∨
    ∃ item, iniLine curSection ((IniLine.section lead inner name trail after).content ++ eols) =
      .call ⟨curSection, some item⟩ := by
  have hafter := after.isBlank.append heols
  rw [section_content_append] at h ⊢
  rcases iniLine_indented lead.isBlank hafter (section_framed inner name trail) h curSection hlen with
    ⟨-, herror⟩ | ⟨_, _, -, hcall⟩
  · exact .inl herror
  · exact .inr ⟨_, hcall⟩

end Kinds

/-! ## 6. Comments -/

def marks : List (List Char) := [[';'], ['#'], ['/', '/']]

def Marked (text : List Char) : Prop := ∃ mark ∈ marks, mark <+: text

theorem isComment_of_marked (h : Marked text) : isComment text := by
  obtain ⟨mark, hmark, rest, rfl⟩ := h
  simp only [marks, mem_cons, not_mem_nil, or_false] at hmark
  rcases hmark with rfl | rfl | rfl <;> simp [isComment]

theorem marked_of_isComment (h : isComment text) (hne : text ≠ []) (hnul : nul ∉ text) : Marked text := by
  cases text with
  | nil => exact absurd rfl hne
  | cons c rest =>
    simp only [isComment, decide_eq_true_eq] at h
    rcases h with rfl | rfl | rfl | ⟨rfl, hslash⟩
    · exact absurd mem_cons_self hnul
    · exact ⟨[';'], by decide, rest, rfl⟩
    · exact ⟨['#'], by decide, rest, rfl⟩
    · cases rest with
      | nil => exact absurd hslash (by decide)
      | cons d rest =>
        have hd : d = '/' := hslash
        exact ⟨['/', '/'], by decide, rest, by rw [hd]; rfl⟩

theorem marked_of_append (hback : ∀ c ∈ back.head?, ∀ mark ∈ marks, c ∉ mark) (h : Marked (front ++ back)) :
    Marked front := by
  obtain ⟨mark, hmark, hpre⟩ := h
  refine ⟨mark, hmark, ?_⟩
  rcases prefix_or_prefix_of_prefix hpre (prefix_append front back) with hin | hout
  · exact hin
  · obtain ⟨more, rfl⟩ := hout
    rw [prefix_append_right_inj] at hpre
    cases more with
    | nil => simp
    | cons c more =>
      obtain ⟨rest, hrest⟩ := hpre
      have hhead : c ∈ back.head? := by
        rw [← hrest]
        rfl
      exact absurd (mem_append_right _ mem_cons_self) (hback c hhead _ hmark)

theorem not_mem_marks_of_blank (h : isBlank c) : ∀ mark ∈ marks, c ∉ mark := by
  intro mark hmark hc
  have hnone : ∀ mark ∈ marks, ∀ c ∈ mark, isBlank c = false := by simp [marks, isBlank]
  exact absurd h (by rw [hnone mark hmark c hc]; decide)

theorem exists_trailing (text : List Char) : ∃ body pad, text = body ++ pad ∧ AllBlank pad ∧
      ∀ c ∈ body.getLast?, isBlank c = false := by
  refine ⟨text.rdropWhile isBlank, text.rtakeWhile isBlank, rdropWhile_append_rtakeWhile.symm,
    fun c hc => mem_rtakeWhile_imp hc, fun c hc => ?_⟩
  obtain ⟨hne, rfl⟩ := mem_getLast?_eq_getLast hc
  exact eq_false_of_ne_true (rdropWhile_last_not isBlank text hne)

theorem marked_frame (h : Marked text) :
    ∃ body pad, text = body ++ pad ∧ AllBlank pad ∧ Framed body ∧ Marked body := by
  obtain ⟨body, pad, rfl, hpad, hlast⟩ := exists_trailing text
  have hbody : Marked body := by
    apply marked_of_append _ h
    intro c hc
    exact not_mem_marks_of_blank (hpad c (mem_of_head? hc))
  refine ⟨body, pad, rfl, hpad, ?_, hbody⟩
  obtain ⟨mark, hmark, rest, rfl⟩ := hbody
  have hhead : ∀ mark ∈ marks, ∃ c, mark.head? = some c ∧ isBlank c = false := by
    simp [marks, isBlank]
  obtain ⟨c, hc, hblank⟩ := hhead mark hmark
  constructor
  · exact ⟨c, by simp [hc], hblank⟩
  · have hne : mark ++ rest ≠ [] := by
      intro hnil
      rw [append_eq_nil_iff.mp hnil |>.1] at hc
      cases hc
    obtain ⟨d, hd⟩ := isSome_iff_exists.mp (getLast?_isSome.mpr hne)
    exact ⟨d, hd, hlast d hd⟩

section Comments

variable {lead : Blanks} {text : Comment} {eols : List Char}

theorem Comment.marked (text : Comment) : Marked text.chars :=
  marked_of_isComment text.mark text.ne_nil fun hnul => (text.inLine _ hnul).1 rfl

theorem iniLine_comment_eq (heols : AllBlank eols)
    (h : ReadLine ((IniLine.comment lead text).content ++ eols)) (hlen : lead.chars.length ≤ 1)
    (curSection : List Char) :
    iniLine curSection ((IniLine.comment lead text).content ++ eols) = .skip := by
  obtain ⟨body, pad, hbody, hpad, hframed, hmarked⟩ := marked_frame text.marked
  have hshape : (IniLine.comment lead text).content ++ eols = lead.chars ++ body ++ (pad ++ eols) := by
    simp [IniLine.content, hbody]
  have htail : lead.chars.tail = [] := by
    rw [← drop_one, drop_eq_nil_iff]
    exact hlen
  apply iniLine_skip h
  rw [hshape, trimmed_framed lead.isBlank (hpad.append heols) hframed, htail]
  exact isComment_of_marked hmarked

/-- **A comment behind two blanks** ends the reading, or its text is taken for the name of an item. -/
theorem iniLine_comment_indented (heols : AllBlank eols)
    (h : ReadLine ((IniLine.comment lead text).content ++ eols)) (hlen : 1 < lead.chars.length)
    (curSection : List Char) : ('=' ∉ text.chars ∧
      iniLine curSection ((IniLine.comment lead text).content ++ eols) = .error) ∨
    ('=' ∈ text.chars ∧ ∃ name value, (∀ n : ItemName, n.chars ≠ name) ∧
      iniLine curSection ((IniLine.comment lead text).content ++ eols) =
        .call ⟨curSection, some (name, value)⟩) := by
  obtain ⟨body, pad, hbody, hpad, hframed, hmarked⟩ := marked_frame text.marked
  have hshape : (IniLine.comment lead text).content ++ eols = lead.chars ++ body ++ (pad ++ eols) := by
    simp [IniLine.content, hbody]
  rw [hshape] at h ⊢
  rw [hbody]
  rcases iniLine_indented lead.isBlank (hpad.append heols) hframed h curSection hlen with
    ⟨hno, herror⟩ | ⟨name, value, rfl, hcall⟩
  · left
    exact ⟨not_mem_append hno hpad.equal_not_mem, herror⟩
  · right
    refine ⟨by simp, _, _, ?_, hcall⟩
    -- the mark stands in front of the equal sign
    have hname : Marked name := by
      apply marked_of_append _ hmarked
      intro c hc
      cases hc
      decide
    obtain ⟨front, blanks, rfl, hblanks, hfront, hmark⟩ := marked_frame hname
    have hdrop := lead.isBlank.drop 2
    have htrim := trimmed_framed hdrop hblanks hfront
    rw [← append_assoc, htrim]
    intro n hn
    match htail : (lead.chars.drop 2).tail with
    | [] =>
      have hcomment := n.no_comment
      obtain ⟨mark, hmem, hpre⟩ := hmark
      rw [hn, htail, nil_append,
        isComment_of_marked ⟨mark, hmem, hpre.trans (prefix_append _ _)⟩] at hcomment
      cases hcomment
    | b :: rest =>
      have hblank := n.head b (by rw [hn, htail]; rfl)
      rw [hdrop.tail b (htail ▸ mem_cons_self)] at hblank
      cases hblank

end Comments

/-! ## 7. Any line -/

theorem Blanks.inLine (pad : Blanks) : ∀ c ∈ pad.chars, InLine c := by
  intro c hc
  rcases pad.blank c hc with rfl | rfl
  · decide
  · decide

theorem IniLine.inLine (line : IniLine) : ∀ c ∈ line.content, InLine c := by
  cases line with
  | blank pad => exact pad.inLine
  | comment lead text => exact forall_mem_append.mpr ⟨lead.inLine, text.inLine⟩
  | «section» lead inner name trail after =>
    simp only [IniLine.content, forall_mem_append, forall_mem_cons]
    exact ⟨⟨lead.inLine, by decide, ⟨inner.inLine, name.inLine⟩, trail.inLine⟩, by decide, after.inLine⟩
  | item lead name trail before value after =>
    simp only [IniLine.content, forall_mem_append, forall_mem_cons]
    exact ⟨⟨⟨lead.inLine, name.inLine⟩, trail.inLine⟩, by decide, ⟨before.inLine, value.inLine⟩,
      after.inLine⟩

theorem expected_item : ∀ {curSection : List Char} {c : Call}, c ∈ expected curSection lines →
      ∀ {name value : List Char}, c.item = some (name, value) → ∃ n : ItemName, n.chars = name := by
  induction lines with
  | nil =>
    intro curSection c hc
    cases hc
  | cons line lines ih =>
    intro curSection c hc name value hitem
    cases line with
    | blank _ => exact ih hc hitem
    | comment _ _ => exact ih hc hitem
    | «section» _ _ title _ _ =>
      rcases mem_cons.mp hc with rfl | hc
      · cases hitem
      · exact ih hc hitem
    | item _ n _ _ _ _ =>
      rcases mem_cons.mp hc with rfl | hc
      · cases hitem
        exact ⟨n, rfl⟩
      · exact ih hc hitem

theorem expected_eq_nil_iff : expected curSection lines = [] ↔ ∀ line ∈ lines, line.Quiet := by
  induction lines generalizing curSection with
  | nil => simp [expected]
  | cons line lines ih =>
    rw [forall_mem_cons]
    cases line with
    | blank _ => simp [expected, IniLine.call, IniLine.Quiet, ih]
    | comment _ _ => simp [expected, IniLine.call, IniLine.Quiet, ih]
    | «section» _ _ _ _ _ => simp [expected, IniLine.call, IniLine.Quiet]
    | item _ _ _ _ _ _ => simp [expected, IniLine.call, IniLine.Quiet]

/-- What is read of a line that no call is expected for, or of one that a call is. -/
def LineResult.of : Option Call → LineResult
  | none => .skip
  | some c => .call c

section Lines

variable {eols : List Char} (heols : AllBlank eols)

include heols

/-- **A readable line** gives the call that is expected for it. -/
theorem iniLine_readable {line : IniLine} (h : ReadLine (line.content ++ eols))
    (hline : line.Readable) (curSection : List Char) :
    iniLine curSection (line.content ++ eols) = .of (line.call curSection) := by
  cases line with
  | blank pad =>
    apply iniLine_skip h
    have htrim := trimmed_blank (pad.isBlank.append heols)
    rw [IniLine.content, htrim]
    rfl
  | comment lead text => exact iniLine_comment_eq heols h hline.2 curSection
  | «section» lead inner name trail after =>
    obtain ⟨-, hlead, hinner, hname⟩ := hline
    rw [iniLine_section_eq heols h hlead, behind_zero_eq_self_iff.mpr hinner, if_neg (not_lt.mpr hname)]
    rfl
  | item lead name trail before value after =>
    obtain ⟨-, hlead, hvalue⟩ := hline
    rw [iniLine_item_eq heols h, behind_eq_self_iff.mpr hlead, behind_eq_self_iff.mpr hvalue]
    rfl

/-- **A line that cannot be read**, but fits the buffer, ends the reading or gives a call that is not
    expected. -/
theorem iniLine_unreadable {line : IniLine} (h : ReadLine (line.content ++ eols))
    (hlen : line.content.length < workbufSize - 1) (hline : ¬ line.Readable) (curSection : List Char) :
    (iniLine curSection (line.content ++ eols) = .error ∧ (line.Refused ↔ line.Quiet)) ∨
    ∃ c, iniLine curSection (line.content ++ eols) = .call c ∧ ¬ line.Refused ∧
      ∀ lines, (expected curSection (line :: lines)).head? ≠ some c := by
  cases line with
  | blank pad => exact absurd ⟨hlen, trivial⟩ hline
  | comment lead text =>
    have hlead : 1 < lead.chars.length := not_le.mp fun hle => hline ⟨hlen, hle⟩
    rcases iniLine_comment_indented heols h hlead curSection with
      ⟨hno, herror⟩ | ⟨hmem, name, value, hname, hcall⟩
    · exact .inl ⟨herror, fun _ _ => rfl, fun _ => .inr hno⟩
    · refine .inr ⟨_, hcall, ?_, ?_⟩
      · intro hrefused
        exact hrefused.elim (not_le.mpr hlen) (fun hno => hno hmem)
      · intro lines hhead
        obtain ⟨n, hn⟩ := expected_item (mem_of_head? hhead) rfl
        exact hname n hn
  | «section» lead inner name trail after =>
    have hquiet : ¬ (IniLine.section lead inner name trail after).Quiet := fun hq => by cases hq []
    by_cases hlead : lead.chars.length ≤ 1
    · have heq := iniLine_section_eq heols h hlead curSection
      by_cases hbig : (behind 0 inner.chars name.chars).length > curSectionSize - 1
      · rw [if_pos hbig] at heq
        exact .inl ⟨heq, fun hr => hr.elim, fun hq => hquiet hq⟩
      · rw [if_neg hbig] at heq
        refine .inr ⟨_, heq, fun hr => hr, ?_⟩
        intro lines hhead
        have hname : name.chars = behind 0 inner.chars name.chars :=
          congrArg Call.curSection (some.inj hhead)
        rw [← hname] at hbig
        exact hline ⟨hlen, hlead, behind_zero_eq_self_iff.mp hname.symm, not_lt.mp hbig⟩
    · rcases iniLine_section_indented heols h (not_le.mp hlead) curSection with herror | ⟨item, hcall⟩
      · exact .inl ⟨herror, fun hr => hr.elim, fun hq => hquiet hq⟩
      · refine .inr ⟨_, hcall, fun hr => hr, ?_⟩
        intro lines hhead
        cases congrArg Call.item (some.inj hhead)
  | item lead name trail before value after =>
    refine .inr ⟨_, iniLine_item_eq heols h curSection, fun hr => hr, ?_⟩
    intro lines hhead
    have hitem := congrArg Call.item (some.inj hhead)
    have hpair := some.inj hitem
    have hname : name.chars = behind 3 lead.chars name.chars := congrArg Prod.fst hpair
    have hvalue : value.chars = behind 1 before.chars value.chars := congrArg Prod.snd hpair
    exact hline ⟨hlen, behind_eq_self_iff.mp hname.symm, behind_eq_self_iff.mp hvalue.symm⟩

end Lines

theorem long_unreadable (hlen : workbufSize - 1 ≤ line.content.length) :
    ¬ line.Readable ∧ (line.Refused ↔ line.Quiet) := by
  refine ⟨fun h => absurd h.1 (not_lt.mpr hlen), ?_⟩
  cases line with
  | blank pad => exact ⟨fun _ _ => rfl, fun _ => hlen⟩
  | comment lead text => exact ⟨fun _ _ => rfl, fun _ => .inl hlen⟩
  | «section» _ _ _ _ _ => exact ⟨fun h => h.elim, fun h => by cases h []⟩
  | item _ _ _ _ _ _ => exact ⟨fun h => h.elim, fun h => by cases h []⟩

/-! ## 8. Whole texts -/

theorem readLine_append {eols : List Char} (hnul : nul ∉ content) (hne : eols ≠ [])
    (heols : ∀ c ∈ eols, isEol c) (hfit : (content ++ eols).length < workbufSize) :
    ReadLine (content ++ eols) := by
  refine ⟨?_, hfit, ?_⟩
  · intro hmem
    rcases mem_append.mp hmem with hmem | hmem
    · exact hnul hmem
    · exact absurd (heols _ hmem) (by decide)
  · obtain ⟨c, hc⟩ := exists_mem_of_ne_nil eols hne
    have h := heols c hc
    simp only [isEol, decide_eq_true_eq] at h
    rcases h with rfl | rfl
    · exact .inl (mem_append_right _ hc)
    · exact .inr (mem_append_right _ hc)

theorem rest_length_lt {e : Eol} (h : rest = text ∨ text = '\n' :: rest) :
    rest.length < (content ++ e.chars ++ text).length := by
  have he : 0 < e.chars.length := by
    cases e <;> decide
  rw [length_append, length_append]
  rcases h with rfl | rfl
  · omega
  · rw [length_cons]
    omega

def takeAll : List Call → Answer := fun _ => ⟨0, true, false⟩

theorem delivered_takeAll : ∀ {made : List Call}, delivered takeAll made calls = made ++ calls := by
  induction calls with
  | nil =>
    intro made
    rw [delivered, append_nil]
  | cons c calls ih =>
    intro made
    have hnot : ¬ (takeAll (made ++ [c])).Ends c := by simp [takeAll, Answer.Ends]
    rw [delivered, if_neg hnot, ih, append_assoc, singleton_append]

theorem scans_of_newline (h : Scans curSection ('\n' :: rest) calls) : Scans curSection rest calls := by
  have hread : streamFgets workbufSize ('\n' :: rest) = some (['\n'], rest) := by
    have hloop := fgetsLoop_line (forall_mem_nil _) (c := '\n') rfl rest
      (by decide : ([] : List Char).length < workbufSize - 1)
    rw [nil_append] at hloop
    simp [streamFgets, hloop]
  have hline : iniLine curSection ['\n'] = .skip :=
    iniLine_skip ⟨by decide, by decide, by decide⟩ curSection (by decide)
  intro n hn
  have hscan := h (n + 1) (Nat.succ_lt_succ hn)
  simpa only [scan, hread, hline] using hscan

theorem faithful_cons_of_error (hline : ¬ line.Readable)
    (hquiet : line.Refused ↔ line.Quiet) (curSection : List Char) :
    [] = expected curSection (line :: lines) ↔ Faithful (line :: lines) := by
  rw [eq_comm, expected_eq_nil_iff, forall_mem_cons, Faithful, ← hquiet]
  simp [hline]

/-- **The calls for a text**: they are the expected ones exactly if it can be read. -/
theorem scans_render (text : List (IniLine × Eol)) :
    ∀ curSection, ∃ calls, Scans curSection (render text) calls ∧
      (calls = expected curSection (text.map Prod.fst) ↔ Faithful (text.map Prod.fst)) := by
  induction text with
  | nil =>
    intro curSection
    exact ⟨[], scans_nil curSection, by simp [expected, Faithful]⟩
  | cons entry text ih =>
    intro curSection
    obtain ⟨line, e⟩ := entry
    have hrender : render ((line, e) :: text) = line.content ++ e.chars ++ render text := rfl
    have heol : ∀ c ∈ line.content, isEol c = false := by
      intro c hc
      obtain ⟨-, hlf, hcr⟩ := line.inLine c hc
      simp [isEol, hlf, hcr]
    have hnul : nul ∉ line.content := fun hc => (line.inLine _ hc).1 rfl
    rw [hrender, map_cons]
    by_cases hlen : line.content.length < workbufSize - 1
    · obtain ⟨eols, rest, hread, hne, heols, hfit, hrest⟩ := streamFgets_line heol hlen e (render text)
      have hblank : AllBlank eols := fun c hc => isBlank_of_isEol (heols c hc)
      have hline := readLine_append hnul hne heols hfit
      have hlt : rest.length < (line.content ++ e.chars ++ render text).length := rest_length_lt hrest
      -- whichever text is left, the calls behind it are those behind the line
      have hbehind : ∀ {cur calls}, Scans cur (render text) calls → Scans cur rest calls := by
        intro cur calls hscans
        rcases hrest with rfl | hrest
        · exact hscans
        · rw [hrest] at hscans
          exact scans_of_newline hscans
      by_cases hr : line.Readable
      · have hresult := iniLine_readable hblank hline hr curSection
        have hfaithful : Faithful (line :: text.map Prod.fst) ↔ Faithful (text.map Prod.fst) := by
          simp [Faithful, hr]
        rw [hfaithful, expected]
        cases hcall : line.call curSection with
        | none =>
          rw [hcall] at hresult
          obtain ⟨calls, hscans, hiff⟩ := ih curSection
          exact ⟨calls, scans_skip hread hlt hresult (hbehind hscans), hiff⟩
        | some c =>
          rw [hcall] at hresult
          obtain ⟨calls, hscans, hiff⟩ := ih c.curSection
          exact ⟨c :: calls, scans_call hread hlt hresult (hbehind hscans), by simp [hiff]⟩
      · rcases iniLine_unreadable hblank hline hlen hr curSection with
          ⟨herror, hquiet⟩ | ⟨c, hcall, hrefused, hhead⟩
        · exact ⟨[], scans_error hread herror, faithful_cons_of_error hr hquiet curSection⟩
        · obtain ⟨calls, hscans, -⟩ := ih c.curSection
          refine ⟨c :: calls, scans_call hread hlt hcall (hbehind hscans), ?_, ?_⟩
          · intro heq
            exact absurd (by rw [← heq]; rfl) (hhead (text.map Prod.fst))
          · intro hfaithful
            rcases hfaithful with ⟨hread, -⟩ | ⟨-, href, -⟩
            · exact absurd hread hr
            · exact absurd href hrefused
    · have hlong := not_lt.mp hlen
      obtain ⟨rest, hread⟩ := streamFgets_long heol hlong (e.chars ++ render text)
      obtain ⟨hr, hquiet⟩ := long_unreadable hlong
      have herror : iniLine curSection (line.content.take (workbufSize - 1)) = .error := by
        apply iniLine_too_long
        · exact fun hc => hnul (mem_of_mem_take hc)
        · have hsize : workbufSize = 4096 := rfl
          rw [length_take]
          omega
        · exact fun c hc => heol c (mem_of_mem_take hc)
      rw [← append_assoc] at hread
      exact ⟨[], scans_error hread herror, faithful_cons_of_error hr hquiet curSection⟩

/-- **The calls are the expected ones exactly for the texts with no more blanks than are taken off.** -/
theorem ini_calls_iff (text : List (IniLine × Eol)) :
    (∀ callback, (iniParse callback (render text)).map Prod.fst =
      some (delivered callback [] (expected [] (text.map Prod.fst)))) ↔
    Faithful (text.map Prod.fst) := by
  obtain ⟨calls, hscans, hiff⟩ := scans_render text []
  have hparse : ∀ callback, (iniParse callback (render text)).map Prod.fst =
      some (delivered callback [] calls) :=
    fun callback => iniLoop_eq callback (hscans _ (Nat.lt_succ_self _))
  rw [← hiff]
  constructor
  · intro h
    have htaken := h takeAll
    rw [hparse, delivered_takeAll, delivered_takeAll] at htaken
    exact some.inj htaken
  · intro h callback
    rw [hparse, h]

/-- The line `a =  b`, with two blanks before the value. -/
def twoBlanks : IniLine :=
  .item ⟨[], by simp⟩
    ⟨⟨['a'], by simp [InLine, nul], by simp [isBlank], by simp [isBlank]⟩, by simp, rfl, by simp⟩
    ⟨[' '], by simp⟩ ⟨[' ', ' '], by simp⟩
    ⟨['b'], by simp [InLine, nul], by simp [isBlank], by simp [isBlank]⟩ ⟨[], by simp⟩

/-- **The value keeps a blank.** -/
theorem value_keeps_blank : render [(twoBlanks, .lf)] = ['a', ' ', '=', ' ', ' ', 'b', '\n'] ∧
    iniParse takeAll (render [(twoBlanks, .lf)]) = some ([⟨[], some (['a'], [' ', 'b'])⟩], false) ∧
    expected [] [twoBlanks] = [⟨[], some (['a'], ['b'])⟩] := by
  decide +kernel

end DcuDaemon.Gateway
