/-
  The parameters of the tasks (`crates/dcu-tunnel-daemon/src/tasks/params.rs`: `get_str`, `get_u8`,
  `get_u16`, `get_bytes`) and their payloads (`tasks/payload.rs`).

  The bytes of a hexadecimal text are read two bytes of the text at a time. The text is cut by its
  bytes, and a cut inside a character is a panic.

  Main result: `params_exact_iff`.
-/
import DcuDaemon.Dbus.Properties
import DcuDaemon.Spinel.Fields

namespace DcuDaemon.Tasks

open Dbus Lib Spinel List Option

/-! ## 1. Parameters -/

section Params

variable {ω : Type} (params : HashTable String (Variant ω)) (key : String)

/-- `get_str`; `display` is `{}` of a value. -/
def getStr (display : Variant ω → String) : Option String :=
  (params.lookup key).map fun
    | .str s => s
    | other => display other

def getU8 : Option UInt8 :=
  match params.lookup key with
  | some (.u8 n) => some n
  | some (.u16 n) => some n.toUInt8
  | _ => none

def getU16 : Option UInt16 :=
  match params.lookup key with
  | some (.u16 n) => some n
  | some (.u8 n) => some n.toUInt16
  | some (.u32 n) => some n.toUInt16
  | _ => none

/-- `trim_start_matches` of a pattern of two characters. -/
def trimStartMatches (a b : Char) : List Char → List Char
  | x :: y :: text => if x = a ∧ y = b then trimStartMatches a b text else x :: y :: text
  | text => text

/-- `u8::from_str_radix(&s[i..i + 2], 16)` up to the first error (`some none`). A cut character is a panic
    (`none`). -/
def hexPairs : List Char → Option (Option (List UInt8))
  | [] => some (some [])
  | [c] => if c.utf8Size = 2 then some none else none
  | c :: d :: text =>
    if c.utf8Size = 1 then
      if d.utf8Size = 1 then
        match fromStrRadix 16 256 [c, d] with
        | none => some none
        | some v => (hexPairs text).map (·.map (UInt8.ofNat v :: ·))
      else none
    else if c.utf8Size = 2 then some none
    else none

/-- `get_bytes`; `none` is a panic. -/
def getBytes : Option (Option (List UInt8)) :=
  match params.lookup key with
  | some (.str s) =>
    let text := trimStartMatches '0' 'X' (trimStartMatches '0' 'x' s.toList)
    if (text.map Char.utf8Size).sum % 2 ≠ 0 then some none else hexPairs text
  | _ => some none

end Params

/-! ## 2. Hexadecimal texts -/

/-- **The bytes that an even number of hexadecimal digits writes.** -/
def bytesOfHex : List Char → Option (List UInt8)
  | [] => some []
  | [_] => none
  | c :: d :: text =>
    (toDigit 16 c).bind fun hi => (toDigit 16 d).bind fun lo =>
      (bytesOfHex text).map (UInt8.ofNat (hi * 16 + lo) :: ·)

def utf8Len (text : List Char) : Nat := (text.map Char.utf8Size).sum

/-- Pairs of hexadecimal digits, with a sign in place of any first digit. -/
def SignedPairs : List Char → Prop
  | [] => True
  | [_] => False
  | c :: d :: text =>
    ((c = '+' ∨ (toDigit 16 c).isSome) ∧ (toDigit 16 d).isSome) ∧ SignedPairs text

/-- Behind pairs that can be read, two bytes end inside a character. -/
def Cut (text : List Char) : Prop :=
  ∃ front rest, text = front ++ rest ∧ SignedPairs front ∧ rest ≠ [] ∧
    ∀ start, start <+: rest → utf8Len start ≠ 2

section Hex

variable {c d : Char} {n : Nat} {text front rest : List Char} {bytes : List UInt8}

theorem utf8Size_of_toDigit (h : toDigit 16 c = some n) : c.utf8Size = 1 := by
  have hle : c.toNat ≤ 127 := by
    by_contra hgt
    have hhigh : ∀ d : Char, d.toNat ≤ 127 → ¬ c ≤ d := by
      intro d hd hcd
      have : c.toNat ≤ d.toNat := hcd
      omega
    rw [toDigit, if_neg (fun hc => hhigh '9' (by decide) hc.2),
      if_neg (fun hc => hhigh 'z' (by decide) hc.2), if_neg (fun hc => hhigh 'Z' (by decide) hc.2)] at h
    cases h
  have hval : c.val ≤ 0x7F := UInt32.le_iff_toNat_le.mpr hle
  exact if_pos hval

theorem fromStrRadix_pair (h : c ≠ '+') :
    fromStrRadix 16 256 [c, d] =
      (toDigit 16 c).bind fun hi => (toDigit 16 d).map fun lo => hi * 16 + lo := by
  cases hc : toDigit 16 c with
  | none => simp [fromStrRadix, readDigits, h, hc]
  | some hi =>
    cases hd : toDigit 16 d with
    | none => simp [fromStrRadix, readDigits, h, hc, hd]
    | some lo =>
      have hlt := lt_of_toDigit hc
      have hlt' := lt_of_toDigit hd
      simp [fromStrRadix, readDigits, h, hc, hd, show hi * 16 + lo < 256 by omega]

theorem fromStrRadix_isSome_iff : (fromStrRadix 16 256 [c, d]).isSome ↔
    (c = '+' ∨ (toDigit 16 c).isSome) ∧ (toDigit 16 d).isSome := by
  by_cases hplus : c = '+'
  · subst hplus
    cases hd : toDigit 16 d with
    | none => simp [fromStrRadix, readDigits, hd]
    | some lo =>
      have hlt := lt_of_toDigit hd
      simp [fromStrRadix, readDigits, hd, show lo < 256 by omega]
  · rw [fromStrRadix_pair hplus]
    cases toDigit 16 c <;> cases toDigit 16 d <;> simp [hplus]

/-- **All of a text is read exactly if it consists of such pairs.** -/
theorem hexPairs_read_iff : (∃ bytes, hexPairs text = some (some bytes)) ↔ SignedPairs text := by
  have hsize {c : Char} (h : c = '+' ∨ (toDigit 16 c).isSome) : c.utf8Size = 1 := by
    rcases h with rfl | h
    · rfl
    · obtain ⟨n, hn⟩ := isSome_iff_exists.mp h
      exact utf8Size_of_toDigit hn
  fun_induction hexPairs text with
  | case4 c d text hc hd hnone =>
    rw [SignedPairs, ← fromStrRadix_isSome_iff, hnone]
    simp
  | case5 c d text hc hd v hv ih =>
    rw [SignedPairs, ← fromStrRadix_isSome_iff, hv]
    simp [← ih]
  | case6 c d text hc hd => exact iff_of_false nofun fun h => hd (hsize (.inr h.1.2))
  | case7 c d text hc hd => exact iff_of_false nofun fun h => hc (hsize h.1.1)
  | case8 c d text hc hd => exact iff_of_false nofun fun h => hc (hsize h.1.1)
  | _ => simp [SignedPairs]

theorem hexPairs_append (h : hexPairs front = some (some bytes)) :
    hexPairs (front ++ rest) = (hexPairs rest).map (·.map (bytes ++ ·)) := by
  fun_induction hexPairs front generalizing bytes with
  | case1 =>
    cases h
    simp
  | case5 c d text hc hd v hv ih =>
    simp only [map_eq_some_iff] at h
    obtain ⟨_, hrest, tail, rfl, rfl⟩ := h
    rw [cons_append, cons_append, hexPairs, if_pos hc, if_pos hd, hv, ih hrest]
    cases hexPairs rest with
    | none => rfl
    | some r => cases r <;> rfl
  | _ => simp_all

/-- **The reading panics exactly on a text that it cuts.** -/
theorem hexPairs_eq_none_iff : hexPairs text = none ↔ Cut text := by
  constructor
  · intro h
    fun_induction hexPairs text with
    | case3 c hc =>
      refine ⟨[], [c], rfl, trivial, by simp, fun start hstart => ?_⟩
      rcases prefix_cons_iff.mp hstart with rfl | ⟨more, rfl, hmore⟩
      · decide
      · simpa [prefix_nil.mp hmore, utf8Len] using hc
    | case5 c d text hc hd v hv ih =>
      obtain ⟨front, rest, rfl, hread, hcut⟩ := ih (by simpa using h)
      exact ⟨c :: d :: front, rest, rfl, ⟨fromStrRadix_isSome_iff.mp (isSome_of_eq_some hv), hread⟩, hcut⟩
    | case6 c d text hc hd =>
      refine ⟨[], _, rfl, trivial, by simp, fun start hstart => ?_⟩
      rcases prefix_cons_iff.mp hstart with rfl | ⟨more, rfl, hmore⟩
      · decide
      · rcases prefix_cons_iff.mp hmore with rfl | ⟨more, rfl, -⟩
        · simp [utf8Len, hc]
        · have := d.utf8Size_pos
          simp only [utf8Len, map_cons, sum_cons, hc]
          omega
    | case8 c d text hc hd =>
      refine ⟨[], _, rfl, trivial, by simp, fun start hstart => ?_⟩
      rcases prefix_cons_iff.mp hstart with rfl | ⟨more, rfl, -⟩
      · decide
      · have := c.utf8Size_pos
        simp only [utf8Len, map_cons, sum_cons]
        omega
    | _ => cases h
  · rintro ⟨front, rest, rfl, hpairs, hne, hcut⟩
    obtain ⟨bytes, hread⟩ := hexPairs_read_iff.mpr hpairs
    have hnone : hexPairs rest = none := by
      fun_cases hexPairs rest with
      | case1 => exact absurd rfl hne
      | case2 c hc => exact absurd (by simpa [utf8Len] using hc) (hcut [c] (prefix_refl _))
      | case7 c d text hc hd => exact absurd (by simpa [utf8Len] using hd) (hcut [c] ⟨_, rfl⟩)
      | case4 c d text hc hd => exact absurd (by simp [utf8Len, hc, hd]) (hcut [c, d] ⟨_, rfl⟩)
      | case5 c d text hc hd => exact absurd (by simp [utf8Len, hc, hd]) (hcut [c, d] ⟨_, rfl⟩)
      | _ => rfl
    rw [hexPairs_append hread, hnone]
    rfl

/-- What is asked for is read. -/
theorem hexPairs_of_bytesOfHex (h : bytesOfHex text = some bytes) :
    hexPairs text = some (some bytes) ∧ utf8Len text % 2 = 0 ∧ ∀ c ∈ text, (toDigit 16 c).isSome := by
  fun_induction bytesOfHex text generalizing bytes with
  | case1 => simpa [hexPairs, utf8Len] using h
  | case2 => cases h
  | case3 c d text ih =>
    simp only [bind_eq_some_iff, map_eq_some_iff] at h
    obtain ⟨hi, hc, lo, hd, tail, htail, rfl⟩ := h
    obtain ⟨hread, heven, hall⟩ := ih htail
    have hplus : c ≠ '+' := by
      rintro rfl
      cases hc
    refine ⟨?_, ?_, by simp [hc, hd]; exact hall⟩
    · rw [hexPairs, if_pos (utf8Size_of_toDigit hc), if_pos (utf8Size_of_toDigit hd),
        fromStrRadix_pair hplus, hc, hd, hread]
      rfl
    · simp only [utf8Len, map_cons, sum_cons, utf8Size_of_toDigit hc, utf8Size_of_toDigit hd] at heven ⊢
      omega

/-- **Without a sign, what is read is what was asked for.** -/
theorem bytesOfHex_of_hexPairs (hplus : '+' ∉ text) (h : hexPairs text = some (some bytes)) :
    bytesOfHex text = some bytes := by
  fun_induction hexPairs text generalizing bytes with
  | case1 => simpa [bytesOfHex] using h
  | case5 c d text hc hd v hv ih =>
    simp only [mem_cons, not_or] at hplus
    simp only [map_eq_some_iff] at h
    obtain ⟨_, hrest, tail, rfl, rfl⟩ := h
    rw [fromStrRadix_pair (Ne.symm hplus.1)] at hv
    simp only [bind_eq_some_iff, map_eq_some_iff] at hv
    obtain ⟨hi, hhi, lo, hlo, rfl⟩ := hv
    simp [bytesOfHex, hhi, hlo, ih hplus.2.2 hrest]
  | _ => simp_all

theorem trimStartMatches_digits {a x : Char} (hx : toDigit 16 x = none)
    (h : ∀ c ∈ text, (toDigit 16 c).isSome) : trimStartMatches a x text = text := by
  match text, h with
  | [], _ => rfl
  | [c], _ => rfl
  | c :: d :: text, h =>
    refine if_neg fun hcd => ?_
    have hd := h d (by simp)
    rw [hcd.2, hx] at hd
    cases hd

/-- The text that `get_bytes` takes in pairs. -/
def hexDigitsOf (text : List Char) : List Char := trimStartMatches '0' 'X' (trimStartMatches '0' 'x' text)

theorem hexDigitsOf_eq (h : ∀ c ∈ stripHexPrefix text, (toDigit 16 c).isSome) :
    hexDigitsOf text = stripHexPrefix text := by
  have hx : toDigit 16 'x' = none := by decide
  have hX : toDigit 16 'X' = none := by decide
  unfold hexDigitsOf stripHexPrefix at *
  split at h
  · rw [trimStartMatches, if_pos ⟨rfl, rfl⟩, trimStartMatches_digits hx h, trimStartMatches_digits hX h]
  · rw [trimStartMatches, if_neg (by decide), trimStartMatches, if_pos ⟨rfl, rfl⟩,
      trimStartMatches_digits hX h]
  · rw [trimStartMatches_digits hx h, trimStartMatches_digits hX h]

end Hex

/-! ## 3. What the getters give -/

/-- The integer that a parameter supplies. -/
def supplied {ω : Type} : Variant ω → Option Int
  | .u8 n => some n.toNat
  | .u16 n => some n.toNat
  | .u32 n => some n.toNat
  | .u64 n => some n.toNat
  | .i16 n => some n.toInt
  | .i32 n => some n.toInt
  | .i64 n => some n.toInt
  | _ => none

/-- What is asked of the getters for one parameter. -/
structure ParamExact {ω : Type} (params : HashTable String (Variant ω)) (key : String) : Prop where
  bytes : ∀ s, params.lookup key = some (.str s) → ∃ r, getBytes params key = some r ∧
    ∀ b, r = some b ↔ bytesOfHex (stripHexPrefix s.toList) = some b
  u8 : ∀ v n, params.lookup key = some v → getU8 params key = some n → supplied v = some (n.toNat : Int)
  u16 : ∀ v n, params.lookup key = some v → getU16 params key = some n → supplied v = some (n.toNat : Int)

/-- A text that is cut or read without being the digits that were asked for, and a number that a narrower
    getter takes. -/
def Misread {ω : Type} : Variant ω → Prop
  | .str s =>
    let text := hexDigitsOf s.toList
    utf8Len text % 2 = 0 ∧ (Cut text ∨ SignedPairs text ∧ ('+' ∈ text ∨ text ≠ stripHexPrefix s.toList))
  | .u16 n => 256 ≤ n.toNat
  | .u32 n => 65536 ≤ n.toNat
  | _ => False

section Exact

variable {ω : Type} {params : HashTable String (Variant ω)} {key : String}

theorem getBytes_str {s : String} (h : params.lookup key = some (.str s)) :
    getBytes params key =
      if utf8Len (hexDigitsOf s.toList) % 2 ≠ 0 then some none else hexPairs (hexDigitsOf s.toList) := by
  rw [getBytes, h]
  rfl

theorem bytes_exact_iff {s : String} (h : params.lookup key = some (.str s)) :
    (∃ r, getBytes params key = some r ∧ ∀ b, r = some b ↔ bytesOfHex (stripHexPrefix s.toList) = some b) ↔
    ¬ Misread (ω := ω) (.str s) := by
  rw [getBytes_str h]
  have hasked : ∀ b, bytesOfHex (stripHexPrefix s.toList) = some b →
      hexDigitsOf s.toList = stripHexPrefix s.toList := fun b hb =>
    hexDigitsOf_eq (hexPairs_of_bytesOfHex hb).2.2
  constructor
  · rintro ⟨r, hr, hiff⟩ ⟨heven, hwrong⟩
    rw [if_neg (not_not.mpr heven)] at hr
    rcases hwrong with hcut | ⟨hpairs, hwrong⟩
    · rw [hexPairs_eq_none_iff.mpr hcut] at hr
      cases hr
    · obtain ⟨b, hb⟩ := hexPairs_read_iff.mpr hpairs
      rw [hb] at hr
      have hspec := (hiff b).mp (some.inj hr).symm
      have htext := hasked b hspec
      rw [htext] at hwrong
      refine hwrong.elim (fun hplus => ?_) fun hne => hne rfl
      cases (hexPairs_of_bytesOfHex hspec).2.2 _ hplus
  · intro hgood
    by_cases heven : utf8Len (hexDigitsOf s.toList) % 2 = 0
    · rw [if_neg (not_not.mpr heven)]
      cases hread : hexPairs (hexDigitsOf s.toList) with
      | none => exact absurd ⟨heven, .inl (hexPairs_eq_none_iff.mp hread)⟩ hgood
      | some r =>
        refine ⟨r, rfl, fun b => ⟨?_, fun hb => ?_⟩⟩
        · rintro rfl
          have hright : ¬ ('+' ∈ hexDigitsOf s.toList ∨ hexDigitsOf s.toList ≠ stripHexPrefix s.toList) :=
            fun hwrong => hgood ⟨heven, .inr ⟨hexPairs_read_iff.mp ⟨b, hread⟩, hwrong⟩⟩
          rw [not_or, not_not] at hright
          rw [← hright.2]
          exact bytesOfHex_of_hexPairs hright.1 hread
        · rw [hasked b hb, (hexPairs_of_bytesOfHex hb).1] at hread
          exact (some.inj hread).symm
    · rw [if_pos heven]
      refine ⟨none, rfl, fun b => ⟨nofun, fun hb => ?_⟩⟩
      rw [hasked b hb] at heven
      exact absurd (hexPairs_of_bytesOfHex hb).2.1 heven

/-- **The getters are exact but for signs, repeated prefixes, cut characters and wide numbers.** -/
theorem params_exact_iff (params : HashTable String (Variant ω)) (key : String) :
    ParamExact params key ↔ ∀ v, params.lookup key = some v → ¬ Misread v := by
  constructor
  · intro h v hv
    cases v with
    | str s => exact (bytes_exact_iff hv).mp (h.bytes s hv)
    | u16 n =>
      have hn := h.u8 _ n.toUInt8 hv (by rw [getU8, hv])
      simp only [supplied, some.injEq, UInt16.toNat_toUInt8] at hn
      simp only [Misread]
      omega
    | u32 n =>
      have hn := h.u16 _ n.toUInt16 hv (by rw [getU16, hv])
      simp only [supplied, some.injEq, UInt32.toNat_toUInt16] at hn
      simp only [Misread]
      omega
    | _ => exact id
  · intro h
    refine ⟨fun s hs => (bytes_exact_iff hs).mpr (h _ hs), fun v n hv hn => ?_, fun v n hv hn => ?_⟩
    · rw [getU8, hv] at hn
      cases v <;> cases hn
      · rfl
      · have hsmall := h _ hv
        simp only [Misread, supplied, UInt16.toNat_toUInt8] at hsmall ⊢
        rw [Nat.mod_eq_of_lt (by omega)]
    · rw [getU16, hv] at hn
      cases v <;> cases hn
      · simp [supplied]
      · rfl
      · have hsmall := h _ hv
        simp only [Misread, supplied, UInt32.toNat_toUInt16] at hsmall ⊢
        rw [Nat.mod_eq_of_lt (by omega)]

end Exact

/-- A cut character, a sign and a wide number. -/
theorem params_misread : getBytes (ω := Empty) (AList.singleton "k" (.str "aéb")) "k" = none ∧
    getBytes (ω := Empty) (AList.singleton "k" (.str "+f")) "k" = some (some [15]) ∧
    getU8 (ω := Empty) (AList.singleton "k" (.u16 300)) "k" = some 44 := by
  decide +kernel

/-! ## 4. Payloads -/

def boolPayload (v : Bool) : List UInt8 := (PackWriter.new.writeBool v).intoBytes

def u8Payload (v : UInt8) : List UInt8 := (PackWriter.new.writeUint8 v).intoBytes

def u16Payload (v : UInt16) : List UInt8 := (PackWriter.new.writeUint16 v).intoBytes

def u32Payload (v : UInt32) : List UInt8 := (PackWriter.new.writeUint32 v).intoBytes

def utf8Payload (s : String) : List UInt8 := (PackWriter.new.writeUtf8 s).intoBytes

def bytesPayload (b : List UInt8) : List UInt8 := (PackWriter.new.writeBytes b).intoBytes

/-- `mesh_local_prefix_payload`: the first 16 bytes, filled up with zeros. -/
def meshLocalPrefixPayload (addr : List UInt8) (prefixLen : UInt8) : List UInt8 :=
  let octets := addr.take 16 ++ List.replicate (16 - addr.length) 0
  (((PackWriter.new.writeIpv6 ⟨octets, by simp [octets]; omega⟩).writeUint8 prefixLen)).intoBytes

end DcuDaemon.Tasks
