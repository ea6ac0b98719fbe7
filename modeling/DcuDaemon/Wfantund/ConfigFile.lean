/-
  The configuration file in C (`get_next_arg` and the lines of `fread_config` in `config-file.c`).

  A line is two arguments as a shell reads them; what follows them is ignored, and so is a line that has
  not got both.

  Main result: `freadLine_eq`.
-/
import DcuDaemon.Lib.Escape

namespace DcuDaemon.Wfantund

open Lib List Option

/-! ## 1. Arguments -/

/-- The loop of `get_next_arg`, with `quote_type`: what is written, and where `buf` stops. -/
def scanArg (quoteType : Option Char) : List Char → List Char × List Char
  | [] => ([], [])
  | c :: buf =>
    if quoteType = some c then scanArg none buf
    else if quoteType = none ∧ isQuote c = true then scanArg (some c) buf
    else if quoteType = none ∧ isSpace c = true then ([], buf)
    else
      match buf with
      | [] => ([c], [])
      | d :: buf' =>
        -- slash-escaping, inside quotes as well
        if c = '\\' then
          let (arg, rest) := scanArg quoteType buf'
          (d :: arg, rest)
        else
          let (arg, rest) := scanArg quoteType (d :: buf')
          (c :: arg, rest)

/-- `get_next_arg`: `none` where it returns `NULL`. -/
def getNextArg (buf : List Char) : Option (List Char) × List Char :=
  let buf := buf.dropWhile isSpace
  if buf = [] ∨ buf.head? = some '#' then (none, buf)
  else
    let (arg, rest) := scanArg none buf
    (some arg, rest)

/-- `strlen`, of the bytes in UTF-8. -/
def strlen (text : List Char) : Nat := (text.map Char.utf8Size).sum

/-- `text[strnlen(text, n)] = 0`. -/
def cut (n : Nat) : List Char → List Char
  | [] => []
  | c :: text => if c.utf8Size ≤ n then c :: cut (n - c.utf8Size) text else []

/-- One pass of the loop of `fread_config`: the key and the value that the setter is called with. -/
def freadLine (line : List Char) : Option (List Char × List Char) :=
  match getNextArg line with
  | (none, _) => none
  | (some arg, rest) =>
    let key := cut (strlen line) arg
    if strlen key ≥ strlen line then none
    else
      match (getNextArg rest).1 with
      | none => none
      | some value => some (key, cut (strlen line - strlen key) value)

/-! ## 2. What an argument is -/

theorem scanPieces_plain (quote : Option Char) (c : Char) (ps : List Piece) :
    scanPieces quote (.plain c :: ps) =
      if quote = some c then scanPieces none ps
      else if quote = none ∧ isQuote c then scanPieces (some c) ps
      else if quote = none ∧ isSpace c then []
      else c :: scanPieces quote ps := by
  cases quote with
  | none => simp [scanPieces]
  | some q =>
    rw [scanPieces]
    by_cases hc : c = q
    · simp [hc]
    · simp [hc, Ne.symm hc]

/-- **An argument is the word of the pieces of its text.** -/
theorem scanArg_fst {quote : Option Char} (hq : ∀ q ∈ quote, isQuote q) (cs : List Char) :
    (scanArg quote cs).1 = scanPieces quote (pieces cs) := by
  fun_induction scanArg quote cs with
  | case1 quote => cases quote <;> rfl
  | case2 c buf ih =>
    rw [pieces_cons (quote_ne (hq c rfl)).2.1, scanPieces_plain, if_pos rfl, ih no_quote_open]
  | case3 quote c buf hclose hopen ih =>
    rw [pieces_cons (quote_ne hopen.2).2.1, scanPieces_plain, if_neg hclose, if_pos hopen, ih]
    intro q hq
    cases hq
    exact hopen.2
  | case4 quote c buf hclose hopen hspace =>
    rw [pieces_cons (white_ne (isWhitespace_of_isSpace hspace.2)).2.1, scanPieces_plain, if_neg hclose,
      if_neg hopen, if_pos hspace]
  | case5 quote c hclose hopen hspace =>
    rw [pieces, scanPieces_plain, if_neg hclose, if_neg hopen, if_neg hspace]
    cases quote <;> rfl
  | case6 quote d buf arg rest heq hclose hopen hspace ih =>
    rw [pieces_escape, scanPieces, ← ih hq, heq]
  | case7 quote c hclose hopen hspace d buf hc arg rest heq ih =>
    rw [pieces_cons hc, scanPieces_plain, if_neg hclose, if_neg hopen, if_neg hspace, ← ih hq, heq]

variable {text : List Char}

theorem scanArg_bare (h : ∀ c ∈ text, isQuote c = false ∧ isSpace c = false ∧ c ≠ '\\') {z : Char}
    (hz : isSpace z) (rest : List Char) : scanArg none (text ++ z :: rest) = (text, rest) := by
  induction text with
  | nil =>
    have hquote : isQuote z = false := (white_ne (isWhitespace_of_isSpace hz)).1
    unfold scanArg
    simp [hquote, hz]
  | cons c text ih =>
    obtain ⟨hquote, hspace, hc⟩ := h c mem_cons_self
    have hrest := ih fun d hd => h d (mem_cons_of_mem c hd)
    cases hbuf : text ++ z :: rest with
    | nil => exact absurd hbuf (by simp)
    | cons d buf =>
      rw [hbuf] at hrest
      simp [scanArg, hbuf, hquote, hspace, hc, hrest]

/-! ## 3. Lengths -/

theorem strlen_cons (c : Char) (text : List Char) :
    strlen (c :: text) = c.utf8Size + strlen text := sum_cons

theorem strlen_append (xs ys : List Char) : strlen (xs ++ ys) = strlen xs + strlen ys := by
  rw [strlen, map_append, sum_append]
  rfl

theorem strlen_scanArg (quote : Option Char) (cs : List Char) :
    strlen (scanArg quote cs).1 + strlen (scanArg quote cs).2 ≤ strlen cs := by
  fun_induction scanArg quote cs with
  | case1 quote => exact le_rfl
  | case2 c buf ih =>
    rw [strlen_cons]
    omega
  | case3 quote c buf hclose hopen ih =>
    rw [strlen_cons]
    omega
  | case4 quote c buf hclose hopen hspace =>
    exact (zero_add _).le.trans (Nat.le_add_left _ _)
  | case5 quote c hclose hopen hspace => exact le_rfl
  | case6 quote d buf arg rest heq hclose hopen hspace ih =>
    rw [heq] at ih
    change strlen arg + strlen rest ≤ strlen buf at ih
    change strlen (d :: arg) + strlen rest ≤ _
    rw [strlen_cons, strlen_cons, strlen_cons]
    omega
  | case7 quote c hclose hopen hspace d buf hc arg rest heq ih =>
    rw [heq] at ih
    change strlen arg + strlen rest ≤ strlen (d :: buf) at ih
    change strlen (c :: arg) + strlen rest ≤ _
    rw [strlen_cons, strlen_cons c]
    omega

theorem strlen_dropWhile_le (p : Char → Bool) (cs : List Char) : strlen (cs.dropWhile p) ≤ strlen cs := by
  have hsplit := congrArg strlen (takeWhile_append_dropWhile (p := p) (l := cs))
  rw [strlen_append] at hsplit
  omega

theorem strlen_getNextArg {buf arg rest : List Char} (h : getNextArg buf = (some arg, rest)) :
    strlen arg + strlen rest ≤ strlen buf := by
  rw [getNextArg] at h
  split at h
  · cases h
  · have hlen := strlen_scanArg none (buf.dropWhile isSpace)
    rw [show scanArg none (buf.dropWhile isSpace) = (arg, rest) by
      rw [Prod.mk.injEq, some.injEq] at h
      exact Prod.ext h.1 h.2] at hlen
    exact hlen.trans (strlen_dropWhile_le isSpace buf)

theorem cut_eq_self {n : Nat} (h : strlen text ≤ n) : cut n text = text := by
  induction text generalizing n with
  | nil => rfl
  | cons c text ih =>
    rw [strlen_cons] at h
    rw [cut, if_pos (by omega), ih (by omega)]

theorem getNextArg_nil : getNextArg [] = (none, []) := rfl

theorem strlen_pos (h : text ≠ []) : 0 < strlen text := by
  cases text with
  | nil => exact absurd rfl h
  | cons c text =>
    exact Nat.add_pos_left c.utf8Size_pos _

/-- **A line is its first two arguments**: neither is cut, and a key that fills the line has no
    value. -/
theorem freadLine_eq (line : List Char) : freadLine line = (getNextArg line).1.bind fun key =>
      (getNextArg (getNextArg line).2).1.map fun value => (key, value) := by
  rw [freadLine]
  cases hkey : getNextArg line with
  | mk arg rest =>
    cases arg with
    | none => rfl
    | some key =>
      have hlen := strlen_getNextArg hkey
      have hcut : cut (strlen line) key = key := cut_eq_self (by omega)
      simp only [hcut, bind_some]
      cases hvalue : getNextArg rest with
      | mk arg' rest' =>
        cases arg' with
        | none => simp
        | some value =>
          have hne : rest ≠ [] := by
            intro e
            rw [e, getNextArg_nil] at hvalue
            cases hvalue
          have hpos := strlen_pos hne
          have hvlen := strlen_getNextArg hvalue
          rw [if_neg (by omega)]
          simp only [map_some]
          rw [cut_eq_self (by omega)]

end DcuDaemon.Wfantund
