/-
  Numbers as texts: the reading of digits in a radix, and the printing of decimal and fixed-width
  hexadecimal numbers, as the standard library of the source language does them.

  * `fromStrRadix` -- `from_str_radix` of an unsigned type;
  * `hexFixed` -- `{:0wX}` of a number that fits; `readDigits_hexFixed` reads it again;
  * `strtol` -- of decimal digits it reads the number they write, `strtol_digits`.
-/
import Mathlib.Data.Nat.Digits.Defs
import Mathlib.Data.List.Basic
import Mathlib.Data.List.TakeWhile
import Mathlib.Tactic.Ring

namespace DcuDaemon.Lib

open List Option

/-! ## 1. Reading -/

/-- `char::to_digit`, for a radix up to 36. -/
def toDigit (radix : Nat) (c : Char) : Option Nat :=
  let d :=
    if '0' ≤ c ∧ c ≤ '9' then some (c.toNat - '0'.toNat)
    else if 'a' ≤ c ∧ c ≤ 'z' then some (c.toNat - 'a'.toNat + 10)
    else if 'A' ≤ c ∧ c ≤ 'Z' then some (c.toNat - 'A'.toNat + 10)
    else none
  d.filter (· < radix)

/-- The number that digits write behind those of `acc`. -/
def readDigits (radix : Nat) (acc : Nat) : List Char → Option Nat
  | [] => some acc
  | c :: cs => (toDigit radix c).bind fun d => readDigits radix (acc * radix + d) cs

/-- `from_str_radix` of an unsigned type: one `+` may stand before the digits, of which there is at least
    one. -/
def fromStrRadix (radix size : Nat) (text : List Char) : Option Nat :=
  let digits := if text.head? = some '+' then text.tail else text
  if digits = [] then none else (readDigits radix 0 digits).filter (· < size)

/-- `char::is_whitespace`: the White_Space property. -/
def isWhitespace (c : Char) : Bool :=
  let n := c.toNat
  (9 ≤ n ∧ n ≤ 13) ∨ n = 0x20 ∨ n = 0x85 ∨ n = 0xA0 ∨ n = 0x1680 ∨ (0x2000 ≤ n ∧ n ≤ 0x200A) ∨
    n = 0x2028 ∨ n = 0x2029 ∨ n = 0x202F ∨ n = 0x205F ∨ n = 0x3000

def trim (text : List Char) : List Char :=
  ((text.dropWhile isWhitespace).reverse.dropWhile isWhitespace).reverse

/-- C's `isspace`. -/
def isSpace (c : Char) : Bool := (9 ≤ c.toNat ∧ c.toNat ≤ 13) ∨ c.toNat = 32

variable {c : Char} {n radix acc size : Nat} {cs : List Char}

theorem isWhitespace_of_isSpace (h : isSpace c) : isWhitespace c := by
  rcases of_decide_eq_true h with h | h
  · exact decide_eq_true (.inl h)
  · exact decide_eq_true (.inr (.inl h))

/-- The radix that the digits begin with, and the digits. -/
def detectRadix : List Char → Nat × List Char
  | '0' :: x :: digits =>
    if (x = 'x' ∨ x = 'X') ∧ ((digits.head?.bind (toDigit 16)).isSome = true) then (16, digits)
    else (8, '0' :: x :: digits)
  | ['0'] => (8, ['0'])
  | digits => (10, digits)

/-- `strtol(text, NULL, 0)` of a 64-bit `long`. -/
def strtol (text : List Char) : Int :=
  let signed := text.dropWhile isSpace
  let unsigned := if signed.head? = some '-' ∨ signed.head? = some '+' then signed.tail else signed
  let (radix, digits) := detectRadix unsigned
  let value := (readDigits radix 0 (digits.takeWhile fun c => (toDigit radix c).isSome)).getD 0
  if signed.head? = some '-' then max (-(value : Int)) (-2 ^ 63) else min (value : Int) (2 ^ 63 - 1)

/-- `strtol(text, NULL, 16)` of a 64-bit `long`. -/
def strtolHex (text : List Char) : Int :=
  let signed := text.dropWhile isSpace
  let unsigned := if signed.head? = some '-' ∨ signed.head? = some '+' then signed.tail else signed
  let digits := if (detectRadix unsigned).1 = 16 then (detectRadix unsigned).2 else unsigned
  let value := (readDigits 16 0 (digits.takeWhile fun c => (toDigit 16 c).isSome)).getD 0
  if signed.head? = some '-' then max (-(value : Int)) (-2 ^ 63) else min (value : Int) (2 ^ 63 - 1)

/-! ## 2. Printing -/

/-- `{:X}` of one digit. -/
def hexChar (d : Nat) : Char :=
  if d < 10 then Char.ofNat ('0'.toNat + d) else Char.ofNat ('A'.toNat + (d - 10))

/-- The last `w` hexadecimal digits. -/
def hexFixed : Nat → Nat → List Char
  | 0, _ => []
  | w + 1, n => hexFixed w (n / 16) ++ [hexChar (n % 16)]

@[simp] theorem length_hexFixed (w n : Nat) : (hexFixed w n).length = w := by
  induction w generalizing n with
  | zero => rfl
  | succ w ih => rw [hexFixed, length_append, ih, length_singleton]

/-- `{b:02X}` of every byte. -/
def hexBytes (bytes : List UInt8) : List Char := bytes.flatMap fun b => hexFixed 2 b.toNat

theorem hexBytes_cons (b : UInt8) (bytes : List UInt8) :
    hexBytes (b :: bytes) = hexFixed 2 b.toNat ++ hexBytes bytes := rfl

@[simp] theorem length_hexBytes (bytes : List UInt8) : (hexBytes bytes).length = 2 * bytes.length := by
  induction bytes with
  | nil => rfl
  | cons b bytes ih =>
    rw [hexBytes_cons, length_append, length_hexFixed, length_cons]
    omega

/-- `%0wx` of a number of at most `w` digits. -/
def lowerHex (w n : Nat) : List Char := (hexFixed w n).map Char.toLower

@[simp] theorem length_lowerHex (w n : Nat) : (lowerHex w n).length = w := by
  rw [lowerHex, length_map, length_hexFixed]

/-- `{:0wX}`: as many digits as the number has, and `w` at least. -/
def upperHex (w n : Nat) : List Char := ((Nat.toDigits 16 n).map Char.toUpper).leftpad w '0'

example : upperHex 2 0xABCD = ['A', 'B', 'C', 'D'] ∧ upperHex 2 7 = ['0', '7'] := by decide

/-! ## 3. What was printed, read again -/

theorem readDigits_append (radix acc : Nat) (cs ds : List Char) :
    readDigits radix acc (cs ++ ds) = (readDigits radix acc cs).bind (readDigits radix · ds) := by
  induction cs generalizing acc with
  | nil => rfl
  | cons c cs ih =>
    rw [cons_append, readDigits, readDigits]
    cases toDigit radix c with
    | none => rfl
    | some d => exact ih _

/-- An uppercase hexadecimal digit. -/
def IsHex (c : Char) : Prop := ∃ d < 16, hexChar d = c

theorem hexChar_spec : ∀ d < 16, toDigit 16 (hexChar d) = some d ∧ isWhitespace (hexChar d) = false ∧
    hexChar d ≠ 'x' ∧ hexChar d ≠ 'X' ∧ hexChar d ≠ '+' ∧ hexChar d ≠ ':' := by
  decide

theorem digitChar_eq_hexChar : ∀ d < 10, Nat.digitChar d = hexChar d := by
  decide

theorem isHex_hexFixed (w n : Nat) : ∀ c ∈ hexFixed w n, IsHex c := by
  induction w generalizing n with
  | zero => exact fun c hc => absurd hc not_mem_nil
  | succ w ih =>
    intro c hc
    rcases mem_append.mp hc with hc | hc
    · exact ih _ c hc
    · exact ⟨n % 16, Nat.mod_lt _ (by decide), (mem_singleton.mp hc).symm⟩

theorem readDigits_hexFixed (w acc n : Nat) :
    readDigits 16 acc (hexFixed w n) = some (acc * 16 ^ w + n % 16 ^ w) := by
  induction w generalizing n with
  | zero => simp [hexFixed, readDigits, Nat.mod_one]
  | succ w ih =>
    have hdigit := (hexChar_spec (n % 16) (Nat.mod_lt _ (by decide))).1
    rw [hexFixed, readDigits_append, ih, bind_some, readDigits, hdigit]
    have hmod : n % 16 ^ (w + 1) = n % 16 + 16 * (n / 16 % 16 ^ w) := by
      rw [Nat.pow_succ', Nat.mod_mul]
    rw [hmod]
    simp only [bind_some, readDigits]
    exact congrArg some (by ring)

theorem toDigit_toLower : ∀ d < 16, toDigit 16 (hexChar d).toLower = some d := by
  decide

theorem readDigits_lowerHex (w acc n : Nat) :
    readDigits 16 acc (lowerHex w n) = readDigits 16 acc (hexFixed w n) := by
  induction w generalizing n with
  | zero => rfl
  | succ w ih =>
    have hlt : n % 16 < 16 := Nat.mod_lt _ (by decide)
    rw [lowerHex, hexFixed, map_append, readDigits_append, readDigits_append, ← lowerHex, ih]
    congr 1
    simp only [map_cons, map_nil, readDigits, toDigit_toLower _ hlt, (hexChar_spec _ hlt).1]

theorem lowerHex_injective {w m : Nat} (hn : n < 16 ^ w) (hm : m < 16 ^ w)
    (h : lowerHex w n = lowerHex w m) : n = m := by
  have hread := congrArg (readDigits 16 0) h
  rw [readDigits_lowerHex, readDigits_lowerHex, readDigits_hexFixed, readDigits_hexFixed,
    Nat.mod_eq_of_lt hn, Nat.mod_eq_of_lt hm, some.injEq] at hread
  omega

theorem lt_of_toDigit {d : Nat} (h : toDigit radix c = some d) : d < radix := by
  have hfilter := (filter_eq_some_iff.mp h).2
  exact of_decide_eq_true hfilter

theorem lt_of_readDigits (h : readDigits radix acc cs = some n) : n < (acc + 1) * radix ^ cs.length := by
  induction cs generalizing acc with
  | nil =>
    cases h
    simp
  | cons c cs ih =>
    obtain ⟨d, hd, hrest⟩ := bind_eq_some_iff.mp h
    have hdigit : acc * radix + d + 1 ≤ (acc + 1) * radix := by
      have := lt_of_toDigit hd
      rw [add_mul]
      omega
    calc n < (acc * radix + d + 1) * radix ^ cs.length := ih hrest
      _ ≤ (acc + 1) * radix * radix ^ cs.length := Nat.mul_le_mul_right _ hdigit
      _ = (acc + 1) * radix ^ (cs.length + 1) := by rw [mul_assoc, ← Nat.pow_succ']

theorem exists_readDigits (h : ∀ c ∈ cs, (toDigit radix c).isSome) (acc : Nat) :
    ∃ n, readDigits radix acc cs = some n := by
  induction cs generalizing acc with
  | nil => exact ⟨acc, rfl⟩
  | cons c cs ih =>
    rw [forall_mem_cons] at h
    obtain ⟨d, hd⟩ := isSome_iff_exists.mp h.1
    rw [readDigits, hd]
    exact ih h.2 _

theorem isSpace_of_toDigit (h : (toDigit 16 c).isSome) : isSpace c = false := by
  by_contra hspace
  rw [Bool.not_eq_false] at hspace
  have hle : c.toNat ≤ 32 := by
    rcases of_decide_eq_true hspace with h | h <;> omega
  have hlow : ∀ d : Char, 32 < d.toNat → ¬ d ≤ c := by
    intro d hd hdc
    have : d.toNat ≤ c.toNat := hdc
    omega
  rw [toDigit, if_neg (fun hc => hlow '0' (by decide) hc.1),
    if_neg (fun hc => hlow 'a' (by decide) hc.1), if_neg (fun hc => hlow 'A' (by decide) hc.1)] at h
  cases h

/-- Hexadecimal digits have nothing before or behind them that a reader skips. -/
theorem digits_plain (hcs : ∀ c ∈ cs, (toDigit 16 c).isSome) :
    cs.dropWhile isSpace = cs ∧ cs.head? ≠ some '-' ∧ cs.head? ≠ some '+' ∧ (detectRadix cs).1 ≠ 16 ∧
      cs.takeWhile (fun c => (toDigit 16 c).isSome) = cs := by
  have hno : ∀ c, toDigit 16 c = none → cs.head? ≠ some c := by
    intro c hc hhead
    have hdigit := hcs c (mem_of_mem_head? hhead)
    rw [hc] at hdigit
    cases hdigit
  have hspace : cs.dropWhile isSpace = cs := by
    cases cs with
    | nil => rfl
    | cons c cs =>
      exact dropWhile_cons_of_neg (by rw [isSpace_of_toDigit (hcs c mem_cons_self)]; decide)
  have hradix : (detectRadix cs).1 ≠ 16 := by
    unfold detectRadix
    split
    · next x digits =>
      have hx : x ≠ 'x' ∧ x ≠ 'X' := by
        have hdigit := hcs x (mem_cons_of_mem _ mem_cons_self)
        constructor <;> intro e <;> rw [e] at hdigit <;> exact absurd hdigit (by decide)
      rw [if_neg (fun h => h.1.elim hx.1 hx.2)]
      simp
    · simp
    · simp
  exact ⟨hspace, hno '-' (by decide), hno '+' (by decide), hradix, takeWhile_eq_self_iff.mpr hcs⟩

/-- **Hexadecimal digits alone are read as the number they write**, as far as it is a `long`. -/
theorem strtolHex_digits (hcs : ∀ c ∈ cs, (toDigit 16 c).isSome)
    (hn : readDigits 16 0 cs = some n) (hlt : n < 2 ^ 63) : strtolHex cs = n := by
  obtain ⟨hspace, hminus, hplus, hradix, htake⟩ := digits_plain hcs
  have hsign : ¬ (cs.head? = some '-' ∨ cs.head? = some '+') := fun h => h.elim hminus hplus
  simp only [strtolHex, hspace, if_neg hsign, if_neg hminus, if_neg hradix, htake, hn, getD_some]
  omega

theorem toDigit_of_isDigit (h : c.isDigit) (hr : 10 ≤ radix) :
    toDigit radix c = some (c.toNat - '0'.toNat) := by
  have hc := Char.isDigit_iff_toNat.mp h
  rw [toDigit, if_pos (show '0' ≤ c ∧ c ≤ '9' from hc)]
  exact filter_eq_some_iff.mpr ⟨rfl, decide_eq_true (lt_of_le_of_lt (Nat.sub_le_sub_right hc.2 _) hr)⟩

theorem isDigit_toDigits (h : c ∈ Nat.toDigits 10 n) : c.isDigit :=
  Nat.isDigit_of_mem_toDigits (by decide) (by decide) h

theorem readDigits_ten (h : ∀ c ∈ cs, c.isDigit) (acc : Nat) :
    readDigits 10 acc cs = some (Nat.ofDigitChars 10 cs acc) := by
  induction cs generalizing acc with
  | nil => rfl
  | cons c cs ih =>
    obtain ⟨hc, hcs⟩ := forall_mem_cons.mp h
    rw [readDigits, toDigit_of_isDigit hc le_rfl, bind_some, ih hcs, Nat.ofDigitChars_cons, mul_comm]

theorem readDigits_toDigits (n : Nat) : readDigits 10 0 (Nat.toDigits 10 n) = some n := by
  rw [readDigits_ten fun c hc => isDigit_toDigits hc, Nat.ofDigitChars_ten_toDigits]

theorem head_toDigits (hn : n ≠ 0) : (Nat.toDigits 10 n).head? ≠ some '0' := by
  intro hhead
  obtain ⟨ds, hds⟩ := head?_eq_some_iff.mp hhead
  have hread := readDigits_toDigits n
  rw [hds] at hread
  -- without the zero, fewer digits would do
  have hlt : n < (0 + 1) * 10 ^ ds.length := lt_of_readDigits hread
  rw [Nat.zero_add, Nat.one_mul] at hlt
  rcases Nat.eq_zero_or_pos ds.length with hzero | hpos
  · rw [hzero] at hlt
    omega
  · have hlen := (Nat.length_toDigits_le_iff (b := 10) (by decide) hpos).mpr hlt
    rw [hds, length_cons] at hlen
    omega

/-- **Decimal digits are read as the number they write**, with a minus sign or without. -/
theorem strtol_digits (hcs : ∀ c ∈ cs, c.isDigit) (hhead : cs.head? ≠ some '0')
    (hlen : cs.length ≤ 18) : ∃ n : Nat, readDigits 10 0 cs = some n ∧ n < 10 ^ cs.length ∧
      strtol cs = n ∧ strtol ('-' :: cs) = -n := by
  have hdigit : ∀ radix, 10 ≤ radix → ∀ c ∈ cs, (toDigit radix c).isSome := by
    intro radix hr c hc
    rw [toDigit_of_isDigit (hcs c hc) hr, isSome_some]
  obtain ⟨n, hn⟩ := exists_readDigits (hdigit 10 le_rfl) 0
  have hlt := lt_of_readDigits hn
  have hsize : 10 ^ cs.length ≤ 10 ^ 18 := Nat.pow_le_pow_right (by decide) hlen
  rw [Nat.zero_add, Nat.one_mul] at hlt
  obtain ⟨hspace, hminus, hplus, -, -⟩ := digits_plain (hdigit 16 (by decide))
  have hten : detectRadix cs = (10, cs) := by
    unfold detectRadix
    split
    · exact absurd rfl hhead
    · exact absurd rfl hhead
    · rfl
  have hvalue : (readDigits 10 0 (cs.takeWhile fun c => (toDigit 10 c).isSome)).getD 0 = n := by
    rw [takeWhile_eq_self_iff.mpr (hdigit 10 le_rfl), hn, getD_some]
  refine ⟨n, hn, hlt, ?_, ?_⟩
  · simp only [strtol, hspace, hminus, hplus, false_or, if_false, hten, hvalue]
    omega
  · have hsign : ('-' :: cs).dropWhile isSpace = '-' :: cs := dropWhile_cons_of_neg (by decide)
    simp only [strtol, hsign, head?_cons, true_or, if_true, tail_cons, hten, hvalue]
    omega

/-- The first digits of a number write a smaller one, unless they are all. -/
theorem strtol_take {k : Nat} (hn : n ≠ 0) (hk : 0 < k) (hk' : k ≤ 18) :
    ∃ m : Nat, m < 10 ^ k ∧ strtol ((Nat.toDigits 10 n).take k) = m ∧
      strtol ('-' :: (Nat.toDigits 10 n).take k) = -m ∧ (n < 10 ^ k → m = n) := by
  have hlen : ((Nat.toDigits 10 n).take k).length ≤ k := length_take_le _ _
  have hhead : ((Nat.toDigits 10 n).take k).head? ≠ some '0' := by
    rw [head?_take, if_neg (Nat.ne_of_gt hk)]
    exact head_toDigits hn
  obtain ⟨m, hm, hlt, hpos, hneg⟩ :=
    strtol_digits (fun c hc => isDigit_toDigits (mem_of_mem_take hc)) hhead (hlen.trans hk')
  refine ⟨m, lt_of_lt_of_le hlt (Nat.pow_le_pow_right (by decide) hlen), hpos, hneg, fun hshort => ?_⟩
  rw [take_of_length_le ((Nat.length_toDigits_le_iff (by decide) hk).mpr hshort), readDigits_toDigits] at hm
  exact (some.inj hm).symm

/-- A text that neither begins nor ends with white space. -/
def Trimmed (cs : List Char) : Prop :=
  (∀ c ∈ cs.head?, isWhitespace c = false) ∧ ∀ c ∈ cs.getLast?, isWhitespace c = false

theorem head_dropWhile (p : Char → Bool) (cs : List Char) : ∀ c ∈ (cs.dropWhile p).head?, p c = false := by
  intro c hc
  have hno := head?_dropWhile_not p cs
  rwa [mem_def.mp hc] at hno

theorem dropWhile_of_head {p : Char → Bool} (h : ∀ c ∈ cs.head?, p c = false) : cs.dropWhile p = cs := by
  cases cs with
  | nil => rfl
  | cons c cs => rw [dropWhile_cons_of_neg (by simp [h c rfl])]

/-- **What stands between white space** is what trimming leaves. -/
theorem trim_eq {lead core trail : List Char} (hlead : ∀ c ∈ lead, isWhitespace c)
    (hcore : Trimmed core) (htrail : ∀ c ∈ trail, isWhitespace c) :
    trim (lead ++ core ++ trail) = core := by
  have hback : ∀ c ∈ trail.reverse, isWhitespace c := fun c hc =>
    htrail c (mem_reverse.mp hc)
  rw [trim, append_assoc, dropWhile_append_of_pos hlead]
  by_cases hnil : core = []
  · rw [hnil, nil_append, dropWhile_eq_nil_iff.mpr htrail]
    rfl
  · have hhead : ∀ c ∈ (core ++ trail).head?, isWhitespace c = false := by
      rw [head?_append_of_ne_nil _ hnil]
      exact hcore.1
    rw [dropWhile_of_head hhead, reverse_append, dropWhile_append_of_pos hback,
      dropWhile_of_head (by rw [head?_reverse]; exact hcore.2), reverse_reverse]

theorem exists_trim (text : List Char) :
    ∃ lead trail, text = lead ++ trim text ++ trail ∧ (∀ c ∈ lead, isWhitespace c) ∧
      (∀ c ∈ trail, isWhitespace c) ∧ Trimmed (trim text) := by
  let front := text.dropWhile isWhitespace
  have hfront : front = trim text ++ (front.reverse.takeWhile isWhitespace).reverse := by
    rw [trim, ← reverse_append, takeWhile_append_dropWhile, reverse_reverse]
  refine ⟨text.takeWhile isWhitespace, (front.reverse.takeWhile isWhitespace).reverse, ?_,
    fun c hc => mem_takeWhile_imp hc,
    fun c hc => mem_takeWhile_imp (mem_reverse.mp hc), fun c hc => ?_, fun c hc => ?_⟩
  · rw [append_assoc, ← hfront, takeWhile_append_dropWhile]
  · refine head_dropWhile isWhitespace text c ?_
    change c ∈ front.head?
    rw [hfront, head?_append, mem_def.mp hc]
    rfl
  · rw [trim, getLast?_reverse] at hc
    exact head_dropWhile isWhitespace _ c hc

theorem trim_append_white (text : List Char) {tail : List Char}
    (htail : ∀ c ∈ tail, isWhitespace c) : trim (text ++ tail) = trim text := by
  obtain ⟨lead, trail, htext, hlead, htrail, htrim⟩ := exists_trim text
  have hwhite : ∀ c ∈ trail ++ tail, isWhitespace c := fun c hc =>
    (mem_append.mp hc).elim (htrail c) (htail c)
  have heq := trim_eq hlead htrim hwhite
  rwa [← append_assoc, ← htext] at heq

theorem trim_eq_self (h : ∀ c ∈ cs, isWhitespace c = false) : trim cs = cs := by
  have htrim : Trimmed cs :=
    ⟨fun c hc => h c (mem_of_mem_head? hc), fun c hc => h c (mem_of_mem_getLast? hc)⟩
  have heq : trim ([] ++ cs ++ []) = cs := trim_eq (by simp) htrim (by simp)
  simpa using heq

theorem fromStrRadix_eq (hne : cs ≠ []) (h : '+' ∉ cs) :
    fromStrRadix radix size cs = (readDigits radix 0 cs).filter (· < size) := by
  have hhead : cs.head? ≠ some '+' := fun e => h (mem_of_mem_head? e)
  simp only [fromStrRadix, if_neg hhead, if_neg hne]

/-- What is read: digits, of which there is at least one, behind a sign or without one. -/
theorem fromStrRadix_eq_some : fromStrRadix radix size cs = some n ↔
      ∃ digits, digits ≠ [] ∧ (cs = '+' :: digits ∨ cs.head? ≠ some '+' ∧ cs = digits) ∧
        readDigits radix 0 digits = some n ∧ n < size := by
  have hfilter : ∀ digits, (if digits = [] then none
      else (readDigits radix 0 digits).filter (· < size)) = some n ↔
        digits ≠ [] ∧ readDigits radix 0 digits = some n ∧ n < size := by
    intro digits
    by_cases hne : digits = []
    · simp
    · rw [if_neg hne, filter_eq_some_iff, decide_eq_true_eq, and_iff_right hne]
  by_cases hhead : cs.head? = some '+'
  · obtain ⟨digits, rfl⟩ := head?_eq_some_iff.mp hhead
    refine (hfilter digits).trans ⟨fun h => ⟨digits, h.1, .inl rfl, h.2⟩, ?_⟩
    rintro ⟨digits', hne, e | ⟨hno, -⟩, hread⟩
    · rw [(cons.inj e).2]
      exact ⟨hne, hread⟩
    · exact absurd hhead hno
  · rw [fromStrRadix, if_neg hhead]
    refine (hfilter cs).trans ⟨fun h => ⟨cs, h.1, .inr ⟨hhead, rfl⟩, h.2⟩, ?_⟩
    rintro ⟨digits', hne, e | ⟨-, rfl⟩, hread⟩
    · exact absurd (by rw [e]; rfl) hhead
    · exact ⟨hne, hread⟩

theorem not_mem_of_readDigits
    (hc : toDigit radix c = none) (h : readDigits radix acc cs = some n) : c ∉ cs := by
  intro hmem
  obtain ⟨pre, post, rfl⟩ := append_of_mem hmem
  rw [readDigits_append] at h
  obtain ⟨m, -, hm⟩ := bind_eq_some_iff.mp h
  rw [readDigits, hc] at hm
  cases hm

/-- **The digits of a decimal number, read as hexadecimal ones.** -/
theorem readDigits_decimal (n : Nat) :
    ∃ v, readDigits 16 0 (Nat.toDigits 10 n) = some v ∧ n ≤ v ∧ (v = n ↔ n < 10) ∧
      ∀ k, 10 ^ k ≤ n ↔ 16 ^ k ≤ v := by
  induction n using Nat.strong_induction_on with
  | _ n ih =>
    by_cases hn : n < 10
    · refine ⟨n, ?_, le_rfl, iff_of_true rfl hn, fun k => ?_⟩
      · rw [Nat.toDigits_of_lt_base hn, digitChar_eq_hexChar n hn, readDigits,
          (hexChar_spec n (by omega)).1]
        simp [readDigits]
      · cases k with
        | zero => simp
        | succ k =>
          have h10 : 10 ≤ 10 ^ (k + 1) := Nat.le_self_pow (Nat.succ_ne_zero k) 10
          have h16 : 16 ≤ 16 ^ (k + 1) := Nat.le_self_pow (Nat.succ_ne_zero k) 16
          exact iff_of_false (by omega) (by omega)
    · obtain ⟨v, hv, hle, -, hpow⟩ := ih (n / 10) (by omega)
      refine ⟨16 * v + n % 10, ?_, by omega, iff_of_false (by omega) hn, fun k => ?_⟩
      · rw [Nat.toDigits_of_base_le (by decide) (by omega), readDigits_append, hv, bind_some,
          digitChar_eq_hexChar _ (Nat.mod_lt _ (by decide)), readDigits,
          (hexChar_spec (n % 10) (by omega)).1]
        simp only [bind_some, readDigits]
        exact congrArg some (by ring)
      · cases k with
        | zero => exact iff_of_true (by simp; omega) (by simp; omega)
        | succ k =>
          have hk := hpow k
          rw [Nat.pow_succ']
          omega

theorem hexBytes_injective {xs ys : List UInt8} (h : hexBytes xs = hexBytes ys) : xs = ys := by
  induction xs generalizing ys with
  | nil =>
    have hlen := congrArg length h
    exact (eq_nil_of_length_eq_zero (by simpa using hlen.symm)).symm
  | cons x xs ih =>
    cases ys with
    | nil =>
      have hlen := congrArg length h
      simp at hlen
    | cons y ys =>
      rw [hexBytes_cons] at h
      obtain ⟨hbyte, hrest⟩ := append_inj h (by rw [length_hexFixed, length_hexFixed])
      have hread := congrArg (readDigits 16 0) hbyte
      have hx : x.toNat < 256 := x.toNat_lt
      have hy : y.toNat < 256 := y.toNat_lt
      rw [readDigits_hexFixed, readDigits_hexFixed, some.injEq] at hread
      have hxy : x.toNat = y.toNat := by omega
      rw [UInt8.toNat_inj.mp hxy, ih hrest]

end DcuDaemon.Lib
