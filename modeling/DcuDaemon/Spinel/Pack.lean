/-
  The Spinel pack format (`crates/spinel/src/pack.rs`): the writer, the reader and the packed unsigned
  integer (LEB128, at most 21 bits).

  A writer is its buffer; an operation that can panic (`assert!` in `write_uint_packed`) returns an
  `Option`. A reader is the data and an offset; every read returns its result AND the reader, because
  the offset moves on some failing reads too (`read_uint_packed` consumes bytes before it rejects them).

  Main result: `readUintPacked_writeUintPacked`.
-/
import DcuDaemon.Lib.Base128

namespace DcuDaemon.Spinel

open Lib List

/-- `SpinelError` (error.rs). -/
inductive SpinelError where
  | underflow
  | invalidUtf8
  | invalidPackedUint
  | invalidEscape
  | crcMismatch
  | frameTooLarge
  | invalidHeader
  | invalidValue
  deriving DecidableEq, Repr

/-- `SPINEL_MAX_UINT_PACKED`: 21 bits. -/
def spinelMaxUintPacked : UInt32 := 0x1FFFFF

/-! ## 1. The writer -/

/-- `PackWriter`: the bytes written so far. -/
structure PackWriter where
  buf : List UInt8
  deriving DecidableEq, Repr

namespace PackWriter

def new : PackWriter := ⟨[]⟩

/-- The bytes `write_uint_packed` pushes for a value it accepts. -/
def uintPackedBytes (val : UInt32) : List UInt8 :=
  if val < 0x80 then [val.toUInt8]
  else if val < 0x4000 then
    [(val &&& 0x7F).toUInt8 ||| 0x80, (val >>> 7).toUInt8]
  else
    [(val &&& 0x7F).toUInt8 ||| 0x80, ((val >>> 7) &&& 0x7F).toUInt8 ||| 0x80, (val >>> 14).toUInt8]

/-- `write_uint_packed`; `none` is the failed `assert!`. -/
def writeUintPacked (w : PackWriter) (val : UInt32) : Option PackWriter :=
  if val ≤ spinelMaxUintPacked then some ⟨w.buf ++ uintPackedBytes val⟩ else none

def writeUint8 (w : PackWriter) (val : UInt8) : PackWriter := ⟨w.buf ++ [val]⟩

def writeBytes (w : PackWriter) (data : List UInt8) : PackWriter := ⟨w.buf ++ data⟩

def intoBytes (w : PackWriter) : List UInt8 := w.buf

end PackWriter

/-! ## 2. The reader -/

/-- `PackReader`: the data and how much of it has been read. -/
structure PackReader where
  data : List UInt8
  offset : Nat
  deriving DecidableEq, Repr

namespace PackReader

def new (data : List UInt8) : PackReader := ⟨data, 0⟩

def rest (r : PackReader) : List UInt8 := r.data.drop r.offset

def remaining (r : PackReader) : Nat := r.data.length - r.offset

/-- `result |= u32::from(byte & 0x7F) << shift`. -/
def addBits (result : UInt32) (byte : UInt8) (shift : Nat) : UInt32 :=
  result ||| ((byte &&& 0x7F).toUInt32 <<< UInt32.ofNat shift)

/-- The loop of `read_uint_packed`; the second component counts the bytes consumed. -/
def uintPackedLoop : List UInt8 → UInt32 → Nat → Except SpinelError UInt32 × Nat
  | [], _, _ => (.error .underflow, 0)
  | byte :: bs, result, shift =>
    if byte &&& 0x80 = 0 then
      (if addBits result byte shift > spinelMaxUintPacked then .error .invalidPackedUint
        else .ok (addBits result byte shift), 1)
    else if shift + 7 ≥ 35 then (.error .invalidPackedUint, 1)
    else
      let (res, n) := uintPackedLoop bs (addBits result byte shift) (shift + 7)
      (res, n + 1)

def readUintPacked (r : PackReader) : Except SpinelError UInt32 × PackReader :=
  let (res, n) := uintPackedLoop r.rest 0 0
  (res, ⟨r.data, r.offset + n⟩)

def readUint8 (r : PackReader) : Except SpinelError UInt8 × PackReader :=
  match r.data[r.offset]? with
  | none => (.error .underflow, r)
  | some val => (.ok val, ⟨r.data, r.offset + 1⟩)

/-- `read_int8`, as the byte it is read from. -/
def readInt8 (r : PackReader) : Except SpinelError Int8 × PackReader :=
  let (res, r') := r.readUint8
  (res.map UInt8.toInt8, r')

/-- `read_bytes`: exactly `len` bytes. -/
def readBytes (r : PackReader) (len : Nat) : Except SpinelError (List UInt8) × PackReader :=
  if r.offset + len > r.data.length then (.error .underflow, r)
  else (.ok (r.rest.take len), ⟨r.data, r.offset + len⟩)

def leValue : List UInt8 → Nat
  | [] => 0
  | b :: bs => b.toNat + 256 * leValue bs

def readUint64 (r : PackReader) : Except SpinelError UInt64 × PackReader :=
  if r.offset + 8 > r.data.length then (.error .underflow, r)
  else (.ok (UInt64.ofNat (leValue (r.rest.take 8))), ⟨r.data, r.offset + 8⟩)

end PackReader

/-! ## 3. The packed integer, byte by byte -/

theorem toNat_and_7f (b : UInt8) : (b &&& 0x7F).toNat = b.toNat % 128 := by
  exact Nat.and_two_pow_sub_one_eq_mod b.toNat 7

theorem and_80_eq_zero_iff (b : UInt8) : b &&& 0x80 = 0 ↔ b.toNat < 128 := by
  rw [← UInt8.toNat_inj, UInt8.toNat_and]
  have h : ∀ n : Fin 256, n.val &&& 128 = 0 ↔ n.val < 128 := by decide +kernel
  exact h ⟨b.toNat, b.toNat_lt⟩

theorem and_80_cases (b : UInt8) : b &&& 0x80 = 0 ∨ b &&& 0x80 = 0x80 := by
  rw [← UInt8.toNat_inj, ← UInt8.toNat_inj, UInt8.toNat_and]
  have h : ∀ n : Fin 256, n.val &&& 128 = 0 ∨ n.val &&& 128 = 128 := by decide +kernel
  exact h ⟨b.toNat, b.toNat_lt⟩

theorem toNat_or_80 (b : UInt8) (h : b.toNat < 128) : (b ||| 0x80).toNat = b.toNat + 128 := by
  rw [UInt8.toNat_or, Nat.or_comm]
  have e : 128 + b.toNat = 128 ||| b.toNat := Nat.two_pow_add_eq_or_of_lt (i := 7) h 1
  show 128 ||| b.toNat = b.toNat + 128
  rw [← e, Nat.add_comm]

theorem toNat_low7 (v : UInt32) : ((v &&& 0x7F).toUInt8).toNat = v.toNat % 128 := by
  rw [UInt32.toNat_toUInt8, UInt32.toNat_and]
  have e : v.toNat &&& (0x7F : UInt32).toNat = v.toNat % 128 := Nat.and_two_pow_sub_one_eq_mod v.toNat 7
  omega

theorem toNat_shr (v : UInt32) (k : Nat) (hk : k < 32) :
    (v >>> UInt32.ofNat k).toNat = v.toNat / 2 ^ k := by
  rw [UInt32.toNat_shiftRight, UInt32.toNat_ofNat', Nat.shiftRight_eq_div_pow]
  congr 2
  omega

theorem toNat_continued (v : UInt32) : ((v &&& 0x7F).toUInt8 ||| 0x80).toNat = v.toNat % 128 + 128 := by
  have hlt : (v &&& 0x7F).toUInt8.toNat < 128 := by
    rw [toNat_low7]
    exact Nat.mod_lt _ (by decide)
  rw [toNat_or_80 _ hlt, toNat_low7]

theorem toNat_toUInt8_of_lt {v : UInt32} (h : v.toNat < 128) : v.toUInt8.toNat = v.toNat := by
  rw [UInt32.toNat_toUInt8]
  omega

theorem PackWriter.uintPackedBytes_spec {val : UInt32} (h : val ≤ spinelMaxUintPacked) :
    IsBase128 (uintPackedBytes val) ∧ base128Value (uintPackedBytes val) = val.toNat ∧
      (uintPackedBytes val).length ≤ 3 := by
  have hv : val.toNat < 2 ^ 21 := by
    have h' := UInt32.le_iff_toNat_le.mp h
    have e : spinelMaxUintPacked.toNat = 2 ^ 21 - 1 := rfl
    omega
  have h7 : (val >>> 7).toNat = val.toNat / 128 := toNat_shr val 7 (by decide)
  have h14 : (val >>> 14).toNat = val.toNat / 16384 := toNat_shr val 14 (by decide)
  have hmore (v : UInt32) : 128 ≤ ((v &&& 0x7F).toUInt8 ||| 0x80).toNat := by
    rw [toNat_continued]
    exact Nat.le_add_left _ _
  unfold uintPackedBytes
  split
  · next h1 =>
    have h1' : val.toNat < 128 := UInt32.lt_iff_toNat_lt.mp h1
    have hb := toNat_toUInt8_of_lt h1'
    refine ⟨.last (lt_of_eq_of_lt hb h1'), ?_, Nat.le_add_left 1 2⟩
    rw [base128Value, base128Value, hb]
    omega
  · split
    · next h2 =>
      have h2' : val.toNat < 16384 := UInt32.lt_iff_toNat_lt.mp h2
      have hlt : (val >>> 7).toNat < 128 := by omega
      have hhigh := toNat_toUInt8_of_lt hlt
      refine ⟨.more (hmore val) (.last (lt_of_eq_of_lt hhigh hlt)), ?_, Nat.le_succ 2⟩
      rw [base128Value, base128Value, base128Value, hhigh, toNat_continued]
      omega
    · have hlt : (val >>> 14).toNat < 128 := by omega
      have hhigh := toNat_toUInt8_of_lt hlt
      refine ⟨.more (hmore val) (.more (hmore _) (.last (lt_of_eq_of_lt hhigh hlt))), ?_, Nat.le_refl 3⟩
      rw [base128Value, base128Value, base128Value, base128Value, hhigh, toNat_continued, toNat_continued]
      omega

/-! ## 4. The loop of the reader -/

namespace PackReader

variable {result : UInt32} {num : List UInt8} {i : Nat}

theorem uintPackedLoop_length (bytes : List UInt8) (result : UInt32) {i : Nat} (hi : i < 5) :
    (uintPackedLoop bytes result (7 * i)).2 =
      min ((bytes.takeWhile fun b => 128 ≤ b.toNat).length + 1) (min (5 - i) bytes.length) := by
  induction bytes generalizing result i with
  | nil => simp [uintPackedLoop]
  | cons b bytes ih =>
    rw [uintPackedLoop, length_cons]
    by_cases hb : b.toNat < 128
    · rw [if_pos ((and_80_eq_zero_iff b).mpr hb), takeWhile_cons_of_neg (by simpa using hb), length_nil]
      dsimp only
      omega
    · rw [if_neg (mt (and_80_eq_zero_iff b).mp hb), takeWhile_cons_of_pos (by simpa using hb), length_cons]
      split
      · dsimp only
        omega
      · dsimp only
        rw [← Nat.mul_succ, ih _ (by omega)]
        omega

/-- One byte of the loop adds its seven bits above the bits already read, as far as the word goes. -/
theorem toNat_addBits_mod {k : Nat} (byte : UInt8) (hk : k < 32) (hr : result.toNat < 2 ^ k) :
    (addBits result byte k).toNat = (result.toNat + 2 ^ k * (byte.toNat % 128)) % 2 ^ 32 := by
  have hk' : (UInt32.ofNat k).toNat % 32 = k := by
    rw [UInt32.toNat_ofNat']
    omega
  have hpow : 2 ^ 32 = 2 ^ k * 2 ^ (32 - k) := by
    rw [← Nat.pow_add]
    congr 1
    omega
  have hsum : (result.toNat + 2 ^ k * (byte.toNat % 128)) % 2 ^ 32 =
      result.toNat + 2 ^ k * (byte.toNat % 128 % 2 ^ (32 - k)) := by
    rw [hpow, Nat.mod_mul, Nat.add_mul_mod_self_left, Nat.mod_eq_of_lt hr,
      Nat.add_mul_div_left _ _ (Nat.two_pow_pos k), Nat.div_eq_of_lt hr, Nat.zero_add]
  have hshift : byte.toNat % 128 * 2 ^ k % 2 ^ 32 = 2 ^ k * (byte.toNat % 128 % 2 ^ (32 - k)) := by
    rw [hpow, Nat.mul_comm, Nat.mul_mod_mul_left]
  rw [hsum, addBits, UInt32.toNat_or, UInt32.toNat_shiftLeft, hk', UInt8.toNat_toUInt32,
    toNat_and_7f, Nat.shiftLeft_eq, hshift, Nat.or_comm, ← Nat.two_pow_add_eq_or_of_lt hr]
  exact Nat.add_comm _ _

/-- What the loop answers when it has collected a value. -/
def packedResult (value : Nat) : Except SpinelError UInt32 :=
  if value % 2 ^ 32 > spinelMaxUintPacked.toNat then .error .invalidPackedUint
  else .ok (UInt32.ofNat value)

/-- **On a number** the loop consumes it and answers its value modulo `2 ^ 32`. -/
theorem uintPackedLoop_number (hnum : IsBase128 num) (post : List UInt8)
      (hi : i + num.length ≤ 5) (hr : result.toNat < 2 ^ (7 * i)) :
    uintPackedLoop (num ++ post) result (7 * i) =
      (packedResult (result.toNat + 2 ^ (7 * i) * base128Value num), num.length) := by
  induction num generalizing result i with
  | nil => exact hnum.elim
  | cons byte bytes ih =>
    rw [length_cons] at hi
    have hadd := toNat_addBits_mod byte (by omega : 7 * i < 32) hr
    rw [cons_append, uintPackedLoop, base128Value]
    obtain ⟨hlt, rfl⟩ | ⟨hge, hb⟩ := hnum
    · have hval : addBits result byte (7 * i) =
          UInt32.ofNat (result.toNat + 2 ^ (7 * i) * (byte.toNat % 128 + 128 * base128Value [])) := by
        rw [← UInt32.toNat_inj, hadd, UInt32.toNat_ofNat', base128Value, Nat.mul_zero, Nat.add_zero]
      rw [if_pos ((and_80_eq_zero_iff byte).mpr hlt), hval, packedResult]
      rfl
    · -- a byte that leads on is not the fifth, so nothing of it is lost
      have hpos : 0 < bytes.length := by
        cases bytes with
        | nil => exact hb.elim
        | cons b bs => exact Nat.succ_pos _
      have hbyte : byte.toNat % 128 < 128 := Nat.mod_lt _ (by decide)
      have hstep : 2 ^ (7 * (i + 1)) = 2 ^ (7 * i) * 128 := by
        rw [Nat.mul_succ, Nat.pow_add]
      have hlt : result.toNat + 2 ^ (7 * i) * (byte.toNat % 128) < 2 ^ (7 * (i + 1)) := by
        have := Nat.mul_le_mul_left (2 ^ (7 * i)) (Nat.succ_le_of_lt hbyte)
        rw [Nat.mul_succ] at this
        omega
      have hword : 2 ^ (7 * (i + 1)) ≤ 2 ^ 32 := Nat.pow_le_pow_right (by decide) (by omega)
      rw [Nat.mod_eq_of_lt (Nat.lt_of_lt_of_le hlt hword)] at hadd
      have hloop := ih hb (by omega : i + 1 + bytes.length ≤ 5) (lt_of_eq_of_lt hadd hlt)
      have hgo : ¬ byte &&& 0x80 = 0 := fun h => by
        have := (and_80_eq_zero_iff byte).mp h
        omega
      rw [if_neg hgo, if_neg (by omega), ← Nat.mul_succ, hloop, hadd, hstep, Nat.mul_add,
        Nat.mul_assoc, Nat.add_assoc, length_cons]

theorem packedResult_eq_ok_iff {value : Nat} {v : UInt32} :
    packedResult value = .ok v ↔ value % 2 ^ 32 = v.toNat ∧ v ≤ spinelMaxUintPacked := by
  rw [packedResult, UInt32.le_iff_toNat_le]
  split
  · constructor
    · intro h
      cases h
    · intro ⟨he, hle⟩
      omega
  · rw [Except.ok.injEq, ← UInt32.toNat_inj, UInt32.toNat_ofNat']
    exact ⟨fun h => ⟨h, by omega⟩, fun h => h.1⟩

end PackReader

theorem uintPackedLoop_bytes (val : UInt32) (h : val ≤ spinelMaxUintPacked) (post : List UInt8) :
    PackReader.uintPackedLoop (PackWriter.uintPackedBytes val ++ post) 0 0 =
      (.ok val, (PackWriter.uintPackedBytes val).length) := by
  obtain ⟨hnum, hval, hlen⟩ := PackWriter.uintPackedBytes_spec h
  have hloop := PackReader.uintPackedLoop_number hnum post (by omega : 0 + _ ≤ 5)
    (by decide : (0 : UInt32).toNat < 2 ^ (7 * 0))
  rw [hval, UInt32.toNat_zero, Nat.mul_zero, Nat.pow_zero, Nat.one_mul, Nat.zero_add,
    PackReader.packedResult_eq_ok_iff.mpr ⟨Nat.mod_eq_of_lt val.toNat_lt, h⟩] at hloop
  exact hloop

/-- **The reader gives back every value the writer accepts**, and stops right after the number. -/
theorem readUintPacked_writeUintPacked (pre post : List UInt8) (val : UInt32)
    (h : val ≤ spinelMaxUintPacked) :
    (PackReader.mk (pre ++ PackWriter.uintPackedBytes val ++ post) pre.length).readUintPacked =
      (.ok val, ⟨pre ++ PackWriter.uintPackedBytes val ++ post,
        pre.length + (PackWriter.uintPackedBytes val).length⟩) := by
  have hr : (PackReader.mk (pre ++ PackWriter.uintPackedBytes val ++ post) pre.length).rest =
      PackWriter.uintPackedBytes val ++ post := by
    unfold PackReader.rest
    rw [List.append_assoc, List.drop_left]
  unfold PackReader.readUintPacked
  rw [hr, uintPackedLoop_bytes val h post]

end DcuDaemon.Spinel
