/-
  The fields of the Spinel pack format (`crates/spinel/src/pack.rs`): little-endian integers, addresses,
  byte blocks and strings.

  Reads are described by the bytes the reader stands before (`PackReader.At`), whatever was read before
  them: a read of a field that is there gives its value and moves behind it, a read of one that is cut
  off fails.
-/
import DcuDaemon.Spinel.Pack
import Mathlib.Data.List.TakeWhile

namespace DcuDaemon.Spinel

open List PackReader

/-! ## 1. Little-endian bytes -/

/-- `n.to_le_bytes()`, of an integer of `w` bytes. -/
def leBytes : Nat → Nat → List UInt8
  | 0, _ => []
  | w + 1, n => UInt8.ofNat n :: leBytes w (n / 256)

@[simp] theorem length_leBytes (w n : Nat) : (leBytes w n).length = w := by
  induction w generalizing n with
  | zero => rfl
  | succ w ih => rw [leBytes, length_cons, ih]

theorem leValue_leBytes (w n : Nat) : leValue (leBytes w n) = n % 256 ^ w := by
  induction w generalizing n with
  | zero => simp [leBytes, leValue, Nat.mod_one]
  | succ w ih =>
    have hb : (UInt8.ofNat n).toNat = n % 256 := UInt8.toNat_ofNat'
    rw [leBytes, leValue, ih, hb, Nat.pow_succ', Nat.mod_mul]

theorem leValue_lt (bs : List UInt8) : leValue bs < 256 ^ bs.length := by
  induction bs with
  | nil => exact Nat.one_pos
  | cons b bs ih =>
    have hb : b.toNat < 256 := b.toNat_lt
    rw [leValue, length_cons]
    omega

theorem leBytes_leValue (bs : List UInt8) : leBytes bs.length (leValue bs) = bs := by
  induction bs with
  | nil => rfl
  | cons b bs ih =>
    have hb : b.toNat < 256 := b.toNat_lt
    have hlow : UInt8.ofNat (b.toNat + 256 * leValue bs) = b := by
      rw [← UInt8.toNat_inj, UInt8.toNat_ofNat']
      omega
    have hhigh : (b.toNat + 256 * leValue bs) / 256 = leValue bs := by
      omega
    rw [length_cons, leValue, leBytes, hlow, hhigh, ih]

theorem leValue_append (xs ys : List UInt8) : leValue (xs ++ ys) =
      leValue xs + 256 ^ xs.length * leValue ys := by
  induction xs with
  | nil => simp [leValue]
  | cons x xs ih =>
    rw [cons_append, leValue, ih, leValue, length_cons, Nat.pow_succ',
      Nat.mul_add, Nat.mul_assoc, Nat.add_assoc]

@[simp] theorem leValue_zeros (n : Nat) : leValue (replicate n 0) = 0 := by
  induction n with
  | zero => rfl
  | succ n ih => rw [replicate_succ, leValue, ih]; rfl

theorem eq_of_leValue_eq {xs ys : List UInt8} (hlen : xs.length = ys.length)
    (h : leValue xs = leValue ys) : xs = ys := by
  rw [← leBytes_leValue xs, ← leBytes_leValue ys, hlen, h]

theorem leBytes_mod (w n : Nat) : leBytes w (n % 256 ^ w) = leBytes w n := by
  refine eq_of_leValue_eq ?_ ?_
  · rw [length_leBytes, length_leBytes]
  · rw [leValue_leBytes, leValue_leBytes, Nat.mod_mod]

/-- An entry on the wire: its length, then its bytes. -/
def structEntry (entry : List UInt8) : List UInt8 := leBytes 2 entry.length ++ entry

def structEntries (entries : List (List UInt8)) : List UInt8 := entries.flatMap structEntry

/-- An entry whose length fits its two bytes. -/
def Fits (entry : List UInt8) : Prop := entry.length < 65536

def asBytes (s : String) : List UInt8 := s.toUTF8.data.toList

theorem asBytes_eq (s : String) : asBytes s = s.toList.flatMap String.utf8EncodeChar := by
  have h : s.toUTF8 = s.toList.utf8Encode := by
    rw [String.toUTF8_eq_toByteArray, ← String.toByteArray_ofList, String.ofList_toList]
  rw [asBytes, h, utf8Encode, data_toByteArray]

theorem zero_not_mem_utf8EncodeChar {c : Char} (h : c ≠ '\x00') : 0 ∉ String.utf8EncodeChar c := by
  have hv : c.val.toNat ≠ 0 := fun e => h (Char.toNat_inj.mp e)
  have hbyte (n : Nat) (hn : n % 256 ≠ 0) : (0 : UInt8) ≠ UInt8.ofNat n := by
    intro e
    have hz := congrArg UInt8.toNat e
    exact hn hz.symm
  unfold String.utf8EncodeChar
  dsimp only
  -- one to four bytes; all but a single one have their top bit set
  split
  · rw [mem_singleton]
    exact hbyte _ (by omega)
  · split
    · simp only [mem_cons, not_mem_nil, or_false, not_or]
      exact ⟨hbyte _ (by omega), hbyte _ (by omega)⟩
    · split
      · simp only [mem_cons, not_mem_nil, or_false, not_or]
        exact ⟨hbyte _ (by omega), hbyte _ (by omega), hbyte _ (by omega)⟩
      · simp only [mem_cons, not_mem_nil, or_false, not_or]
        exact ⟨hbyte _ (by omega), hbyte _ (by omega), hbyte _ (by omega), hbyte _ (by omega)⟩

theorem zero_not_mem_asBytes {s : String} (h : '\x00' ∉ s.toList) : 0 ∉ asBytes s := by
  rw [asBytes_eq]
  intro hmem
  obtain ⟨c, hc, hb⟩ := mem_flatMap.mp hmem
  exact zero_not_mem_utf8EncodeChar (fun e => h (e ▸ hc)) hb

theorem asBytes_injective {s t : String} (h : asBytes s = asBytes t) : s = t :=
  String.toByteArray_inj.mp (ByteArray.ext (Array.toList_inj.mp h))

theorem length_asBytes (s : String) : (asBytes s).length = s.utf8ByteSize := rfl

theorem length_le_utf8ByteSize (cs : List Char) : cs.length ≤ (String.ofList cs).utf8ByteSize := by
  induction cs with
  | nil => exact Nat.zero_le _
  | cons c cs ih =>
    have hc : 0 < c.utf8Size := c.utf8Size_pos
    rw [String.ofList_cons, String.utf8ByteSize_append, String.utf8ByteSize_singleton, length_cons]
    omega

/-- `{}` of a `SpinelError`. -/
def SpinelError.toText : SpinelError → String
  | underflow => "not enough data"
  | invalidUtf8 => "invalid UTF-8 string"
  | invalidPackedUint => "packed uint exceeds max value"
  | invalidEscape => "invalid HDLC escape sequence"
  | crcMismatch => "CRC mismatch"
  | frameTooLarge => "frame too large"
  | invalidHeader => "invalid header byte"
  | invalidValue => "invalid value"

/-! ## 2. Where a reader stands -/

namespace PackReader

def skip (r : PackReader) (n : Nat) : PackReader := ⟨r.data, r.offset + n⟩

/-- The reader stands before exactly these bytes. -/
def At (r : PackReader) (bytes : List UInt8) : Prop := r.offset ≤ r.data.length ∧ r.rest = bytes

theorem at_new (data : List UInt8) : (new data).At data := ⟨Nat.zero_le _, rfl⟩

variable {r : PackReader} {bytes : List UInt8}

theorem At.remaining (h : r.At bytes) : r.remaining = bytes.length := by
  rw [← h.2, rest, length_drop]
  rfl

theorem At.le_iff (h : r.At bytes) (n : Nat) : r.offset + n > r.data.length ↔ bytes.length < n := by
  have hlen : r.data.length - r.offset = bytes.length := h.remaining
  have := h.1
  omega

theorem At.skip {post : List UInt8} (h : r.At (bytes ++ post)) : (r.skip bytes.length).At post := by
  obtain ⟨hle, hrest⟩ := h
  refine ⟨?_, ?_⟩
  · have := congrArg length hrest
    rw [rest, length_drop, length_append] at this
    show r.offset + bytes.length ≤ r.data.length
    omega
  · show r.data.drop (r.offset + bytes.length) = post
    rw [← drop_drop, show r.data.drop r.offset = bytes ++ post from hrest, drop_left]

theorem At.split (h : r.At bytes) (n : Nat) : r.At (bytes.take n ++ bytes.drop n) := by
  rwa [take_append_drop]

theorem At.drop (h : r.At bytes) {n : Nat} (hn : n ≤ bytes.length) : (r.skip n).At (bytes.drop n) := by
  have hskip := (h.split n).skip
  rwa [length_take_of_le hn] at hskip

/-! ## 3. Reads -/

variable (r)

/-- `from_le_bytes` of the next `w` bytes. -/
def readLe (w : Nat) : Except SpinelError Nat × PackReader :=
  if r.offset + w > r.data.length then (.error .underflow, r)
  else (.ok (leValue (r.rest.take w)), r.skip w)

def readUint16 : Except SpinelError UInt16 × PackReader :=
  let (res, r') := r.readLe 2
  (res.map UInt16.ofNat, r')

def readUint32 : Except SpinelError UInt32 × PackReader :=
  let (res, r') := r.readLe 4
  (res.map UInt32.ofNat, r')

def readBool : Except SpinelError Bool × PackReader :=
  let (res, r') := r.readUint8
  (res.map (· ≠ 0), r')

/-- `read_ipv6`: 16 octets. -/
def readIpv6 : Except SpinelError { octets : List UInt8 // octets.length = 16 } × PackReader :=
  if h : r.offset + 16 > r.data.length then (.error .underflow, r)
  else
    (.ok ⟨r.rest.take 16, by rw [rest, List.length_take, List.length_drop]; omega⟩, r.skip 16)

def readInt16 : Except SpinelError Int16 × PackReader :=
  let (res, r') := r.readUint16
  (res.map UInt16.toInt16, r')

def readInt32 : Except SpinelError Int32 × PackReader :=
  let (res, r') := r.readUint32
  (res.map UInt32.toInt32, r')

def readInt64 : Except SpinelError Int64 × PackReader :=
  let (res, r') := r.readUint64
  (res.map UInt64.toInt64, r')

/-- An address of `n` octets. -/
def readOctets (n : Nat) (r : PackReader) :
    Except SpinelError { octets : List UInt8 // octets.length = n } × PackReader :=
  if h : r.offset + n > r.data.length then (.error .underflow, r)
  else
    (.ok ⟨r.rest.take n, by rw [rest, List.length_take, List.length_drop]; omega⟩, r.skip n)

def readEui64 : Except SpinelError { octets : List UInt8 // octets.length = 8 } × PackReader :=
  readOctets 8 r

def readEui48 : Except SpinelError { octets : List UInt8 // octets.length = 6 } × PackReader :=
  readOctets 6 r

def readDataWithLen : Except SpinelError (List UInt8) × PackReader :=
  match r.readUint16 with
  | (.error e, r) => (.error e, r)
  | (.ok len, r) => r.readBytes len.toNat

def readStruct : Except SpinelError (List UInt8) × PackReader := r.readDataWithLen

/-- `read_utf8`: the bytes before the next NUL, which has to be there. -/
def readUtf8 : Except SpinelError String × PackReader :=
  let text := r.rest.takeWhile (· ≠ 0)
  if r.offset + text.length ≥ r.data.length then (.error .underflow, r.skip text.length)
  else
    match String.fromUTF8? ⟨text.toArray⟩ with
    | none => (.error .invalidUtf8, r.skip text.length)
    | some s => (.ok s, r.skip (text.length + 1))

/-- `read()?`: go on with the value and the reader, or stop with the error. -/
def tryRead {α β : Type} (read : Except SpinelError α × PackReader)
    (next : α → PackReader → Except SpinelError β) : Except SpinelError β :=
  match read with
  | (.error e, _) => .error e
  | (.ok v, r) => next v r

section At

variable {r : PackReader} {bytes post : List UInt8}
variable {b : UInt8} {w n : Nat}

theorem readUint8_cons (h : r.At (b :: post)) : r.readUint8 = (.ok b, r.skip 1) ∧ (r.skip 1).At post := by
  have hb : r.data[r.offset]? = some b := by
    rw [← head?_drop, show r.data.drop r.offset = b :: post from h.2]
    rfl
  have h' : r.At ([b] ++ post) := h
  exact ⟨by simp only [readUint8, hb, skip], h'.skip⟩

theorem readUint8_nil (h : r.At []) : r.readUint8 = (.error .underflow, r) := by
  have hb : r.data[r.offset]? = none := by
    rw [← head?_drop, show r.data.drop r.offset = [] from h.2]
    rfl
  simp only [readUint8, hb]

theorem readLe_append (h : r.At (bytes ++ post)) (hw : bytes.length = w) :
    r.readLe w = (.ok (leValue bytes), r.skip w) ∧ (r.skip w).At post := by
  subst hw
  refine ⟨?_, h.skip⟩
  have hlen : ¬ r.offset + bytes.length > r.data.length := by
    rw [h.le_iff, length_append]
    omega
  rw [readLe, if_neg hlen, h.2, take_left]

theorem readLe_short (h : r.At bytes) (hw : bytes.length < w) : r.readLe w = (.error .underflow, r) := by
  rw [readLe, if_pos ((h.le_iff w).mpr hw)]

theorem readBytes_append (h : r.At (bytes ++ post)) (hn : bytes.length = n) :
    r.readBytes n = (.ok bytes, r.skip n) ∧ (r.skip n).At post := by
  subst hn
  refine ⟨?_, h.skip⟩
  have hlen : ¬ r.offset + bytes.length > r.data.length := by
    rw [h.le_iff, length_append]
    omega
  rw [readBytes, if_neg hlen, h.2, take_left]
  rfl

theorem readBytes_short (h : r.At bytes) (hn : bytes.length < n) :
    r.readBytes n = (.error .underflow, r) := by
  rw [readBytes, if_pos ((h.le_iff n).mpr hn)]

theorem readUintPacked_append {val : UInt32} (hv : val ≤ spinelMaxUintPacked)
    (h : r.At (PackWriter.uintPackedBytes val ++ post)) :
    r.readUintPacked = (.ok val, r.skip (PackWriter.uintPackedBytes val).length) ∧
      (r.skip (PackWriter.uintPackedBytes val).length).At post := by
  refine ⟨?_, h.skip⟩
  unfold readUintPacked
  rw [h.2, uintPackedLoop_bytes val hv post]
  rfl

theorem readUint16_append {n : UInt16} (h : r.At (leBytes 2 n.toNat ++ post)) :
    r.readUint16 = (.ok n, r.skip 2) ∧ (r.skip 2).At post := by
  obtain ⟨hread, hat⟩ := readLe_append h (length_leBytes 2 _)
  refine ⟨?_, hat⟩
  rw [readUint16, hread, leValue_leBytes]
  simp [Except.map]

theorem readUint32_append {n : UInt32} (h : r.At (leBytes 4 n.toNat ++ post)) :
    r.readUint32 = (.ok n, r.skip 4) ∧ (r.skip 4).At post := by
  obtain ⟨hread, hat⟩ := readLe_append h (length_leBytes 4 _)
  refine ⟨?_, hat⟩
  rw [readUint32, hread, leValue_leBytes]
  simp [Except.map]

theorem readInt8_cons (h : r.At (b :: post)) :
    r.readInt8 = (.ok b.toInt8, r.skip 1) ∧ (r.skip 1).At post := by
  obtain ⟨hread, hat⟩ := readUint8_cons h
  refine ⟨?_, hat⟩
  rw [readInt8, hread]
  rfl

theorem fromUTF8?_asBytes (s : String) : String.fromUTF8? ⟨(asBytes s).toArray⟩ = some s := by
  have harray : (⟨(asBytes s).toArray⟩ : ByteArray) = s.toUTF8 := rfl
  unfold String.fromUTF8?
  rw [harray, String.toUTF8_eq_toByteArray, dif_pos s.isValidUTF8]
  rfl

theorem ne_nul (h : 0 ∉ bytes) : ∀ b ∈ bytes, decide (b ≠ 0) :=
  fun _ hb => decide_eq_true fun e => h (e ▸ hb)

theorem length_of_readUtf8 {s : String} (h : r.At bytes) (hs : r.readUtf8.1 = .ok s) :
    (asBytes s).length < bytes.length := by
  unfold readUtf8 at hs
  dsimp only at hs
  split at hs
  · cases hs
  · have hrem := h.remaining
    rw [remaining] at hrem
    split at hs
    · cases hs
    · rename_i s' hdecode
      cases hs
      have htext : asBytes s = r.rest.takeWhile (· ≠ 0) := by
        unfold String.fromUTF8? at hdecode
        split at hdecode
        · cases hdecode
          rfl
        · cases hdecode
      rw [htext]
      omega

theorem readOctets_append (addr : { octets : List UInt8 // octets.length = n })
    (h : r.At (addr.val ++ post)) : readOctets n r = (.ok addr, r.skip n) ∧ (r.skip n).At post := by
  have hlen : ¬ r.offset + n > r.data.length := by
    rw [h.le_iff, length_append]
    omega
  have hat := h.skip
  rw [addr.property] at hat
  refine ⟨?_, hat⟩
  rw [readOctets, dif_neg hlen]
  congr 3
  rw [h.2, take_left' addr.property]

theorem readIpv6_append (addr : { octets : List UInt8 // octets.length = 16 })
    (h : r.At (addr.val ++ post)) : r.readIpv6 = (.ok addr, r.skip 16) ∧ (r.skip 16).At post :=
  readOctets_append addr h

theorem readIpv6_short (h : r.At bytes) (hlen : bytes.length < 16) :
    r.readIpv6 = (.error .underflow, r) := by
  rw [readIpv6, dif_pos ((h.le_iff 16).mpr hlen)]

end At

end PackReader

/-! ## 4. Writes -/

namespace PackWriter

variable (w : PackWriter)

def writeUint16 (val : UInt16) : PackWriter := ⟨w.buf ++ leBytes 2 val.toNat⟩

def writeUint32 (val : UInt32) : PackWriter := ⟨w.buf ++ leBytes 4 val.toNat⟩

def writeUint64 (val : UInt64) : PackWriter := ⟨w.buf ++ leBytes 8 val.toNat⟩

def writeIpv6 (addr : { octets : List UInt8 // octets.length = 16 }) : PackWriter := ⟨w.buf ++ addr.val⟩

def writeBool (val : Bool) : PackWriter := ⟨w.buf ++ [if val then 1 else 0]⟩

def writeInt8 (val : Int8) : PackWriter := ⟨w.buf ++ [val.toUInt8]⟩

def writeInt16 (val : Int16) : PackWriter := ⟨w.buf ++ leBytes 2 val.toUInt16.toNat⟩

def writeInt32 (val : Int32) : PackWriter := ⟨w.buf ++ leBytes 4 val.toUInt32.toNat⟩

def writeInt64 (val : Int64) : PackWriter := ⟨w.buf ++ leBytes 8 val.toUInt64.toNat⟩

def writeEui64 (addr : { octets : List UInt8 // octets.length = 8 }) : PackWriter := ⟨w.buf ++ addr.val⟩

def writeEui48 (addr : { octets : List UInt8 // octets.length = 6 }) : PackWriter := ⟨w.buf ++ addr.val⟩

/-- `write_data_with_len`: the length, cut to 16 bits, and the data. -/
def writeDataWithLen (data : List UInt8) : PackWriter :=
  (w.writeUint16 (UInt16.ofNat data.length)).writeBytes data

/-- `write_utf8`: the text and a NUL. -/
def writeUtf8 (s : String) : PackWriter := ⟨w.buf ++ asBytes s ++ [0]⟩

/-- `write_struct_start`: two bytes for the length, and their place. -/
def writeStructStart : PackWriter × Nat := (⟨w.buf ++ [0, 0]⟩, w.buf.length)

/-- `write_struct_end`: the length, cut to 16 bits, replaces the two bytes. -/
def writeStructEnd (startPos : Nat) : PackWriter :=
  let totalLen := UInt16.ofNat (w.buf.length - startPos - 2)
  ⟨w.buf.take startPos ++ leBytes 2 totalLen.toNat ++ w.buf.drop (startPos + 2)⟩

theorem writeStructEnd_start (content : List UInt8) :
    writeStructEnd ⟨w.writeStructStart.1.buf ++ content⟩ w.writeStructStart.2 =
      ⟨w.buf ++ structEntry content⟩ := by
  have hlen : (w.buf ++ [0, 0] ++ content).length - w.buf.length - 2 = content.length := by
    simp only [length_append, length_cons, length_nil]
    omega
  have hmod : leBytes 2 (UInt16.ofNat content.length).toNat = leBytes 2 content.length := by
    rw [UInt16.toNat_ofNat']
    exact leBytes_mod 2 content.length
  have hdrop : (w.buf ++ [0, 0] ++ content).drop (w.buf.length + 2) = content :=
    drop_left' (by rw [length_append]; rfl)
  have htake : (w.buf ++ [0, 0] ++ content).take w.buf.length = w.buf := by
    rw [append_assoc, take_left]
  simp only [writeStructStart, writeStructEnd]
  rw [hlen, hmod, hdrop, htake, append_assoc]
  rfl

end PackWriter

end DcuDaemon.Spinel
