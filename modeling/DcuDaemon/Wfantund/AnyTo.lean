/-
  Numbers of a `boost::any` as texts and back (`src/util/any-to.cpp`).

  Every branch of `any_to_string` but that of 64 bits prints into `char tmp[10]`, which has room for nine
  characters. What is cut off is a digit, so the text is still a number, of another value.

  Main result: `any_round_trip_iff`.
-/
import DcuDaemon.Wfantund.ChannelList

namespace DcuDaemon.Wfantund

open Lib List Option

/-! ## 1. The conversions -/

/-- The integers of a `boost::any`, but for those of 64 bits. -/
inductive AnyInt where
  | u8 (v : UInt8)
  | i8 (v : Int8)
  | u16 (v : UInt16)
  | i16 (v : Int16)
  | u32 (v : UInt32)
  | i32 (v : Int32)

def AnyInt.value : AnyInt → Int
  | u8 v | u16 v | u32 v => v.toNat
  | i8 v | i16 v | i32 v => v.toInt

/-- `%d`, and `%u` of what is not negative. -/
def decimal (v : Int) : List Char :=
  if v < 0 then '-' :: Nat.toDigits 10 v.natAbs else Nat.toDigits 10 v.natAbs

/-- What `snprintf` leaves before the terminator. -/
def snprintf (size : Nat) (text : List Char) : List Char := text.take (size - 1)

/-- `any_to_string` of an integer. -/
def anyToString (x : AnyInt) : List Char := snprintf 10 (decimal x.value)

/-- `any_to_string` of a `uint64_t`. -/
def anyToString64 (v : UInt64) : List Char :=
  snprintf 20 (lowerHex 8 (v >>> 32).toUInt32.toNat ++ lowerHex 8 (v &&& 0xFFFFFFFF).toUInt32.toNat)

/-- `strtoull(text, NULL, 16)`. -/
def strtoullHex (text : List Char) : UInt64 :=
  let signed := text.dropWhile isSpace
  let unsigned := if signed.head? = some '-' ∨ signed.head? = some '+' then signed.tail else signed
  let digits := if (detectRadix unsigned).1 = 16 then (detectRadix unsigned).2 else unsigned
  let value := (readDigits 16 0 (digits.takeWhile fun c => (toDigit 16 c).isSome)).getD 0
  if value ≥ 2 ^ 64 then UInt64.ofNat (2 ^ 64 - 1)
  else if signed.head? = some '-' then -UInt64.ofNat value else UInt64.ofNat value

/-- `any_to_uint64` of a text, with `expect_hex_str`. -/
def anyToUint64 (text : List Char) : Option UInt64 :=
  if text.length ≠ 16 then none else some (strtoullHex text)

/-! ## 2. There and back -/

theorem AnyInt.value_bounds (x : AnyInt) : -2 ^ 31 ≤ x.value ∧ x.value < 2 ^ 32 := by
  cases x with
  | u8 v | u16 v | u32 v => have := v.toNat_lt; simp only [value]; omega
  | i8 v | i16 v | i32 v => have := v.toInt_lt; have := v.le_toInt; simp only [value]; omega

theorem anyToInt_emod (text : List Char) : anyToInt text % 2 ^ 32 = strtol text % 2 ^ 32 := Int.bmod_emod

theorem anyToInt_anyToString (x : AnyInt) : anyToInt (anyToString x) % 2 ^ 32 = x.value % 2 ^ 32 ↔
    -10 ^ 8 < x.value ∧ x.value < 10 ^ 9 := by
  have hbounds := x.value_bounds
  rw [anyToInt_emod, anyToString, snprintf, decimal]
  rcases lt_trichotomy x.value 0 with hneg | hzero | hpos
  · -- one of the nine characters is the sign
    obtain ⟨m, hlt, -, hread, hall⟩ :=
      strtol_take (k := 8) (Int.natAbs_ne_zero.mpr hneg.ne) (by decide) (by decide)
    rw [if_pos hneg, take_succ_cons, hread]
    omega
  · rw [hzero]
    decide
  · obtain ⟨m, hlt, hread, -, hall⟩ :=
      strtol_take (k := 9) (Int.natAbs_ne_zero.mpr hpos.ne') (by decide) (by decide)
    rw [if_neg (by omega), hread]
    omega

theorem toNat_high (v : UInt64) : (v >>> 32).toUInt32.toNat = v.toNat / 2 ^ 32 := by
  have hlt := v.toNat_lt
  simp [UInt64.toNat_shiftRight, Nat.shiftRight_eq_div_pow]
  omega

theorem toNat_low (v : UInt64) : (v &&& 0xFFFFFFFF).toUInt32.toNat = v.toNat % 2 ^ 32 := by
  have hand : v.toNat &&& (2 ^ 32 - 1) = v.toNat % 2 ^ 32 := Nat.and_two_pow_sub_one_eq_mod _ _
  rw [UInt64.toNat_toUInt32, UInt64.toNat_and]
  exact (congrArg (· % 2 ^ 32) hand).trans (Nat.mod_mod _ _)

theorem anyToUint64_anyToString64 (v : UInt64) : anyToUint64 (anyToString64 v) = some v := by
  have hlt := v.toNat_lt
  obtain ⟨cs, hcs⟩ : ∃ cs, cs = lowerHex 8 (v.toNat / 2 ^ 32) ++ lowerHex 8 (v.toNat % 2 ^ 32) := ⟨_, rfl⟩
  have hlen : cs.length = 16 := by simp [hcs]
  have hread : readDigits 16 0 cs = some v.toNat := by
    rw [hcs, readDigits_append, readDigits_lowerHex, readDigits_hexFixed, bind_some, readDigits_lowerHex,
      readDigits_hexFixed, some.injEq]
    omega
  have hdigits : ∀ c ∈ cs, (toDigit 16 c).isSome := by
    intro c hc
    by_contra hnone
    exact not_mem_of_readDigits (not_isSome_iff_eq_none.mp hnone) hread hc
  obtain ⟨hspace, hminus, hplus, hradix, htake⟩ := digits_plain hdigits
  rw [anyToString64, toNat_high, toNat_low, ← hcs, snprintf, take_of_length_le (by omega), anyToUint64,
    if_neg (not_not.mpr hlen)]
  simp only [strtoullHex, hspace, hminus, hplus, false_or, if_false, if_neg hradix, htake, hread, getD_some]
  rw [if_neg (Nat.not_le_of_lt hlt), UInt64.ofNat_toNat]

/-- **A number is read back** exactly if its text has at most nine characters; those of 64 bits always are. -/
theorem any_round_trip_iff (x : AnyInt) (v : UInt64) :
    (anyToInt (anyToString x) % 2 ^ 32 = x.value % 2 ^ 32 ↔ -10 ^ 8 < x.value ∧ x.value < 10 ^ 9) ∧
      anyToUint64 (anyToString64 v) = some v :=
  ⟨anyToInt_anyToString x, anyToUint64_anyToString64 v⟩

/-- The last of ten digits is cut off. -/
theorem ten_digits_cut : anyToString (.u32 1000000000) = "100000000".toList ∧
    anyToInt (anyToString (.u32 1000000000)) = 100000000 ∧
      anyToInt (anyToString (.u32 1000000000)) % 2 ^ 32 ≠ AnyInt.value (.u32 1000000000) % 2 ^ 32 := by
  decide +kernel

end DcuDaemon.Wfantund
