/-
  What `read_uint_packed` (`crates/spinel/src/pack.rs`) makes of a number of up to five bytes.

  Five bytes carry 35 bits, the `u32` they are collected in has 32. The shift of the fifth byte by 28
  drops three of its bits without a word, so the bound on the value is checked after the number has been
  reduced modulo `2 ^ 32`.

  Main result: `readUintPacked_ok_iff`.
-/
import DcuDaemon.Spinel.Pack

namespace DcuDaemon.Spinel

open Lib List

namespace PackReader

/-! ## 1. The loop -/

variable {num : List UInt8} {i : Nat} {r : PackReader}

/-- **On anything but a number** the loop answers an error. -/
theorem uintPackedLoop_no_number {bytes : List UInt8} (hi : i < 5)
    (hnot : ∀ num post, bytes = num ++ post → IsBase128 num → 5 < i + num.length)
    (result : UInt32) : ∃ e, (uintPackedLoop bytes result (7 * i)).1 = .error e := by
  induction bytes generalizing result i with
  | nil => exact ⟨.underflow, rfl⟩
  | cons byte bytes ih =>
    rw [uintPackedLoop]
    have hge : 128 ≤ byte.toNat := by
      by_contra hlt
      have := hnot [byte] bytes rfl (.last (Nat.lt_of_not_le hlt))
      rw [length_singleton] at this
      omega
    have hgo : ¬ byte &&& 0x80 = 0 := fun h => by
      have := (and_80_eq_zero_iff byte).mp h
      omega
    rw [if_neg hgo]
    by_cases hlast : 7 * i + 7 ≥ 35
    · rw [if_pos hlast]
      exact ⟨_, rfl⟩
    · rw [if_neg hlast, ← Nat.mul_succ]
      refine ih (by omega) (fun num post e hnum => ?_) _
      have := hnot (byte :: num) post (by rw [e, cons_append]) (.more hge hnum)
      rw [length_cons] at this
      omega

/-! ## 2. The reader -/

/-- The reader stands before a number of at most five bytes. -/
def StandsBefore (r : PackReader) (num : List UInt8) : Prop :=
  (∃ post, r.rest = num ++ post) ∧ IsBase128 num ∧ num.length ≤ 5

theorem StandsBefore.unique {num' : List UInt8} (h : r.StandsBefore num)
    (h' : r.StandsBefore num') : num = num' := by
  obtain ⟨⟨post, e⟩, hnum, -⟩ := h
  obtain ⟨⟨post', e'⟩, hnum', -⟩ := h'
  exact hnum.split_unique hnum' (e.symm.trans e')

theorem readUintPacked_number (h : r.StandsBefore num) :
    r.readUintPacked = (packedResult (base128Value num), ⟨r.data, r.offset + num.length⟩) := by
  obtain ⟨⟨post, e⟩, hnum, hlen⟩ := h
  have hloop := uintPackedLoop_number hnum post (by omega : 0 + num.length ≤ 5)
    (by decide : (0 : UInt32).toNat < 2 ^ (7 * 0))
  rw [UInt32.toNat_zero, Nat.mul_zero, Nat.pow_zero, Nat.one_mul, Nat.zero_add] at hloop
  rw [readUintPacked, e, hloop]

theorem readUintPacked_no_number (h : ∀ num, ¬ r.StandsBefore num) :
    ∃ e, r.readUintPacked.1 = .error e := by
  refine uintPackedLoop_no_number (i := 0) (by decide) (fun num post e hnum => ?_) 0
  by_contra hle
  exact h num ⟨⟨post, e⟩, hnum, by omega⟩

/-- The number the reader stands before is `v`, within the bound, and `r'` stands behind it. -/
def ReadsNumber (r : PackReader) (v : UInt32) (r' : PackReader) : Prop :=
  ∃ num, r.StandsBefore num ∧ base128Value num = v.toNat ∧ v ≤ spinelMaxUintPacked ∧
    r' = ⟨r.data, r.offset + num.length⟩

/-- The five-byte number in front exceeds 32 bits, and what is left of it is accepted. -/
def WrapsAround (r : PackReader) : Prop :=
  ∃ num, r.StandsBefore num ∧ num.length = 5 ∧ 2 ^ 32 ≤ base128Value num ∧
    base128Value num % 2 ^ 32 ≤ spinelMaxUintPacked.toNat

/-- **`read_uint_packed` reads the number it stands before**, within the bound, if and only if no five-byte
    number above 32 bits stands there whose rest is within the bound. -/
theorem readUintPacked_ok_iff (r : PackReader) :
    (∀ v r', r.readUintPacked = (.ok v, r') ↔ r.ReadsNumber v r') ↔ ¬ r.WrapsAround := by
  constructor
  · intro hexact ⟨num, hat, _, hbig, hsmall⟩
    -- the rest is answered, and is not the number
    have hmod : base128Value num % 2 ^ 32 = (UInt32.ofNat (base128Value num)).toNat :=
      UInt32.toNat_ofNat'.symm
    have hok := packedResult_eq_ok_iff.mpr
      ⟨hmod, UInt32.le_iff_toNat_le.mpr (le_of_eq_of_le hmod.symm hsmall)⟩
    have hread := readUintPacked_number hat
    rw [hok] at hread
    obtain ⟨num', hat', hval, -, -⟩ := (hexact _ _).mp hread
    obtain rfl := hat.unique hat'
    omega
  · intro hnowrap v r'
    by_cases hnum : ∃ num, r.StandsBefore num
    · obtain ⟨num, hat⟩ := hnum
      rw [readUintPacked_number hat, Prod.mk.injEq, packedResult_eq_ok_iff]
      constructor
      · intro ⟨⟨hmod, hle⟩, he⟩
        have hle' : v.toNat ≤ spinelMaxUintPacked.toNat := UInt32.le_iff_toNat_le.mp hle
        have hsmall : base128Value num < 2 ^ 32 := by
          by_contra hbig
          refine hnowrap ⟨num, hat, ?_, Nat.le_of_not_lt hbig, le_of_eq_of_le hmod hle'⟩
          -- four bytes stay below 32 bits
          by_contra hlen
          have hfour : num.length ≤ 4 := by
            have := hat.2.2
            omega
          have hpow : 128 ^ num.length ≤ 128 ^ 4 := Nat.pow_le_pow_right (by decide) hfour
          have hval := base128Value_lt num
          omega
        exact ⟨num, hat, (Nat.mod_eq_of_lt hsmall).symm.trans hmod, hle, he.symm⟩
      · intro ⟨num', hat', hval, hle, he⟩
        obtain rfl := hat.unique hat'
        refine ⟨⟨?_, hle⟩, he.symm⟩
        rw [hval]
        exact Nat.mod_eq_of_lt v.toNat_lt
    · have hnone : ∀ num, ¬ r.StandsBefore num := fun num h => hnum ⟨num, h⟩
      obtain ⟨e, he⟩ := readUintPacked_no_number hnone
      constructor
      · intro hread
        rw [hread] at he
        cases he
      · intro ⟨num, hat, _⟩
        exact (hnone num hat).elim

/-- `2 ^ 32` in five bytes is read as zero. -/
theorem readUintPacked_two_pow_32 : (new [0x80, 0x80, 0x80, 0x80, 0x10]).readUintPacked =
        (.ok 0, ⟨[0x80, 0x80, 0x80, 0x80, 0x10], 5⟩) ∧ IsBase128 [0x80, 0x80, 0x80, 0x80, 0x10] ∧
      base128Value [0x80, 0x80, 0x80, 0x80, 0x10] = 2 ^ 32 ∧
      ¬ (new [0x80, 0x80, 0x80, 0x80, 0x10]).ReadsNumber 0 ⟨[0x80, 0x80, 0x80, 0x80, 0x10], 5⟩ := by
  refine ⟨by decide, by decide, by decide, ?_⟩
  intro ⟨num, hat, hval, _, _⟩
  have hat' : (new [0x80, 0x80, 0x80, 0x80, 0x10]).StandsBefore [0x80, 0x80, 0x80, 0x80, 0x10] :=
    ⟨⟨[], rfl⟩, by decide, by decide⟩
  obtain rfl := hat.unique hat'
  exact absurd hval (by decide)

end PackReader

end DcuDaemon.Spinel
