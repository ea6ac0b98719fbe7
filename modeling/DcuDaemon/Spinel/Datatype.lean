/-
  The documented pack format (`third_party/openthread/src/ncp/spinel.h`, "Data Packing"), and the reader
  of `crates/spinel/src/pack.rs` against it.

  Unpacking takes a value off the front of some bytes. Multi-byte integers are little-endian, an address
  is its 16 bytes, a string is valid UTF-8 up to a zero byte, "d" is a block behind its 16-bit length,
  "D" is all that is left. A packed integer collects 7-bit chunks until an octet with the top bit clear,
  at most as many as 32 bits take (`spinel_packed_uint_decode`), and is at most 2,097,151.

  Main results: `reads_uintPacked`, `reads_utf8`, `reads_dataWithLen`.
-/
import DcuDaemon.Spinel.Fields

namespace DcuDaemon.Spinel

open List Option

/-! ## 1. Unpacking -/

/-- What `spinel_datatype_vunpack_` takes at most. -/
def spinelMaxPackLength : Nat := 32767

namespace Datatype

/-- The next `n` bytes. -/
def unpackBytes (n : Nat) (data : List UInt8) : Option (List UInt8 × List UInt8) :=
  if data.length < n then none else some (data.take n, data.drop n)

/-- "C". -/
def unpackUint8 : List UInt8 → Option (UInt8 × List UInt8)
  | [] => none
  | b :: post => some (b, post)

/-- A little-endian integer of `w` bytes. -/
def unpackLe (w : Nat) (data : List UInt8) : Option (Nat × List UInt8) :=
  (unpackBytes w data).map (Prod.map PackReader.leValue id)

variable (data : List UInt8)

/-- "S". -/
def unpackUint16 : Option (UInt16 × List UInt8) := (unpackLe 2 data).map (Prod.map UInt16.ofNat id)

/-- "L". -/
def unpackUint32 : Option (UInt32 × List UInt8) := (unpackLe 4 data).map (Prod.map UInt32.ofNat id)

/-- "X". -/
def unpackUint64 : Option (UInt64 × List UInt8) := (unpackLe 8 data).map (Prod.map UInt64.ofNat id)

/-- "6". -/
def unpackIpv6 : Option ({ octets : List UInt8 // octets.length = 16 } × List UInt8) :=
  if h : data.length < 16 then none
  else some (⟨data.take 16, List.length_take_of_le (Nat.le_of_not_lt h)⟩, data.drop 16)

/-- "U": valid UTF-8, and the zero byte that ends it. -/
def unpackUtf8 : Option (String × List UInt8) :=
  let text := data.takeWhile (· ≠ 0)
  if data.length ≤ text.length then none
  else (String.fromUTF8? ⟨text.toArray⟩).map fun s => (s, data.drop (text.length + 1))

/-- "d". -/
def unpackDataWlen : Option (List UInt8 × List UInt8) :=
  (unpackUint16 data).bind fun x => unpackBytes x.1.toNat x.2

/-- The loop of `spinel_packed_uint_decode`. -/
def packedUintDecode : List UInt8 → UInt32 → Nat → Option (UInt32 × List UInt8)
  | [], _, _ => none
  | byte :: data, value, i =>
    if i ≥ 32 then none
    else if byte &&& 0x80 = 0x80 then packedUintDecode data (PackReader.addBits value byte i) (i + 7)
    else some (PackReader.addBits value byte i, data)

/-- "i". -/
def unpackUintPacked : Option (UInt32 × List UInt8) :=
  (packedUintDecode data 0 0).filter fun x => x.1 ≤ spinelMaxUintPacked

/-- `spinel_packed_uint_size`. -/
def packedUintSize (value : UInt32) : Nat :=
  if value.toNat < 1 <<< 7 then 1
  else if value.toNat < 1 <<< 14 then 2
  else if value.toNat < 1 <<< 21 then 3
  else if value.toNat < 1 <<< 28 then 4
  else 5

/-- The loop of `spinel_packed_uint_encode`, over the octets before the last one. -/
def packedUintEncode : Nat → UInt32 → List UInt8
  | 0, value => [(value &&& 0x7F).toUInt8]
  | n + 1, value => ((value &&& 0x7F).toUInt8 ||| 0x80) :: packedUintEncode n (value >>> 7)

/-- "i", packed. -/
def packUintPacked (value : UInt32) : List UInt8 := packedUintEncode (packedUintSize value - 1) value

/-! ## 2. What was packed is unpacked -/

variable {bytes entry data post : List UInt8} {n w : Nat}

theorem unpackBytes_append (hn : bytes.length = n)
    (post : List UInt8) : unpackBytes n (bytes ++ post) = some (bytes, post) := by
  subst hn
  rw [unpackBytes, if_neg (by rw [length_append]; omega), take_left, drop_left]

theorem unpackLe_leBytes (hn : n < 256 ^ w) (post : List UInt8) :
    unpackLe w (leBytes w n ++ post) = some (n, post) := by
  rw [unpackLe, unpackBytes_append (length_leBytes w n) post, map_some,
    Prod.map_apply, leValue_leBytes, Nat.mod_eq_of_lt hn, id]

theorem unpackUint16_leBytes (n : UInt16) (post : List UInt8) :
    unpackUint16 (leBytes 2 n.toNat ++ post) = some (n, post) := by
  rw [unpackUint16, unpackLe_leBytes (n.toNat_lt.trans_eq (by decide)) post, map_some,
    Prod.map_apply, UInt16.ofNat_toNat, id]

theorem unpackUint32_leBytes (n : UInt32) (post : List UInt8) :
    unpackUint32 (leBytes 4 n.toNat ++ post) = some (n, post) := by
  rw [unpackUint32, unpackLe_leBytes (n.toNat_lt.trans_eq (by decide)) post, map_some,
    Prod.map_apply, UInt32.ofNat_toNat, id]

theorem unpackUint64_leBytes (n : UInt64) (post : List UInt8) :
    unpackUint64 (leBytes 8 n.toNat ++ post) = some (n, post) := by
  rw [unpackUint64, unpackLe_leBytes (n.toNat_lt.trans_eq (by decide)) post, map_some,
    Prod.map_apply, UInt64.ofNat_toNat, id]

theorem unpackIpv6_append (addr : { octets : List UInt8 // octets.length = 16 })
    (post : List UInt8) : unpackIpv6 (addr.val ++ post) = some (addr, post) := by
  have hlen : ¬ (addr.val ++ post).length < 16 := by
    rw [length_append]
    omega
  rw [unpackIpv6, dif_neg hlen]
  congr 2
  · exact Subtype.ext (take_left' addr.property)
  · exact drop_left' addr.property

theorem unpackDataWlen_structEntry (hfit : Fits entry) (post : List UInt8) :
    unpackDataWlen (structEntry entry ++ post) = some (entry, post) := by
  have hn : (UInt16.ofNat entry.length).toNat = entry.length := by
    have hlt : entry.length < 65536 := hfit
    rw [UInt16.toNat_ofNat']
    omega
  have hlen := unpackUint16_leBytes (UInt16.ofNat entry.length) (entry ++ post)
  rw [hn] at hlen
  rw [unpackDataWlen, structEntry, append_assoc, hlen, bind_some, hn]
  exact unpackBytes_append rfl post

/-! The same the other way round: what is unpacked stands in front. -/

theorem eq_append_of_unpackBytes
    (h : unpackBytes n data = some (bytes, post)) : bytes.length = n ∧ data = bytes ++ post := by
  rw [unpackBytes] at h
  split at h
  · cases h
  · rename_i hlen
    cases h
    exact ⟨length_take_of_le (Nat.le_of_not_lt hlen), (take_append_drop n data).symm⟩

theorem eq_append_of_unpackLe
    (h : unpackLe w data = some (n, post)) : n < 256 ^ w ∧ data = leBytes w n ++ post := by
  obtain ⟨⟨bytes, post'⟩, hbytes, hn⟩ := map_eq_some_iff.mp h
  cases hn
  obtain ⟨rfl, rfl⟩ := eq_append_of_unpackBytes hbytes
  exact ⟨leValue_lt bytes, by rw [leBytes_leValue]; rfl⟩

theorem eq_append_of_unpackUint16 {n : UInt16}
    (h : unpackUint16 data = some (n, post)) : data = leBytes 2 n.toNat ++ post := by
  obtain ⟨⟨m, post'⟩, hle, hn⟩ := map_eq_some_iff.mp h
  cases hn
  obtain ⟨hlt, rfl⟩ := eq_append_of_unpackLe hle
  rw [UInt16.toNat_ofNat_of_lt' (hlt.trans_eq (by decide))]
  rfl

theorem eq_append_of_unpackUint32 {n : UInt32}
    (h : unpackUint32 data = some (n, post)) : data = leBytes 4 n.toNat ++ post := by
  obtain ⟨⟨m, post'⟩, hle, hn⟩ := map_eq_some_iff.mp h
  cases hn
  obtain ⟨hlt, rfl⟩ := eq_append_of_unpackLe hle
  rw [UInt32.toNat_ofNat_of_lt' (hlt.trans_eq (by decide))]
  rfl

theorem unpackDataWlen_eq_some :
    unpackDataWlen data = some (entry, post) ↔ Fits entry ∧ data = structEntry entry ++ post := by
  constructor
  · intro h
    obtain ⟨⟨n, rest⟩, hn, hbytes⟩ := bind_eq_some_iff.mp h
    obtain rfl := eq_append_of_unpackUint16 hn
    obtain ⟨hlen, hrest⟩ := eq_append_of_unpackBytes hbytes
    dsimp only at hlen hrest
    refine ⟨?_, ?_⟩
    · rw [Fits, hlen]
      exact n.toNat_lt
    · rw [structEntry, hlen, hrest, append_assoc]
  · intro ⟨hfit, e⟩
    rw [e, unpackDataWlen_structEntry hfit]

theorem unpackUtf8_append {s : String} (hs : 0 ∉ asBytes s) (post : List UInt8) :
    unpackUtf8 (asBytes s ++ 0 :: post) = some (s, post) := by
  have htext : (asBytes s ++ 0 :: post).takeWhile (· ≠ 0) = asBytes s := by
    rw [takeWhile_append_of_pos (PackReader.ne_nul hs)]
    simp
  have hlen : ¬ (asBytes s ++ 0 :: post).length ≤ (asBytes s).length := by
    rw [length_append, length_cons]
    omega
  have hdrop : (asBytes s ++ 0 :: post).drop ((asBytes s).length + 1) = post := by
    rw [← drop_drop, drop_left]
    rfl
  unfold unpackUtf8
  rw [htext]
  rw [if_neg hlen, PackReader.fromUTF8?_asBytes, map_some, hdrop]

theorem exists_leBytes_two (a b : UInt8) : ∃ n : UInt16, leBytes 2 n.toNat = [a, b] := by
  have hlt : PackReader.leValue [a, b] < 2 ^ 16 := Nat.lt_of_lt_of_eq (leValue_lt [a, b]) (by simp)
  refine ⟨UInt16.ofNat (PackReader.leValue [a, b]), ?_⟩
  rw [UInt16.toNat_ofNat_of_lt' hlt]
  exact leBytes_leValue [a, b]

/-! Unpacking succeeds on enough bytes. -/

theorem isSome_unpackUint8 (data : List UInt8) : (unpackUint8 data).isSome ↔ 1 ≤ data.length := by
  cases data <;> simp [unpackUint8]

theorem isSome_unpackLe (w : Nat) (data : List UInt8) : (unpackLe w data).isSome ↔ w ≤ data.length := by
  rw [unpackLe, unpackBytes]
  split <;> simp <;> omega

theorem isSome_unpackUint16 (data : List UInt8) : (unpackUint16 data).isSome ↔ 2 ≤ data.length := by
  rw [unpackUint16, isSome_map, isSome_unpackLe]

theorem isSome_unpackUint32 (data : List UInt8) : (unpackUint32 data).isSome ↔ 4 ≤ data.length := by
  rw [unpackUint32, isSome_map, isSome_unpackLe]

theorem isSome_unpackUint64 (data : List UInt8) : (unpackUint64 data).isSome ↔ 8 ≤ data.length := by
  rw [unpackUint64, isSome_map, isSome_unpackLe]

theorem isSome_unpackIpv6 (data : List UInt8) : (unpackIpv6 data).isSome ↔ 16 ≤ data.length := by
  rw [unpackIpv6]
  split <;> simp <;> omega

theorem isSome_unpackUtf8 (data : List UInt8) :
    (unpackUtf8 data).isSome ↔ ∃ s post, 0 ∉ asBytes s ∧ data = asBytes s ++ 0 :: post := by
  constructor
  · intro h
    have hsplit := takeWhile_append_dropWhile (p := fun b : UInt8 => decide (b ≠ 0)) (l := data)
    unfold unpackUtf8 at h
    dsimp only at h
    split at h
    · cases h
    · rename_i hlen
      rw [isSome_map] at h
      obtain ⟨s, hs⟩ := isSome_iff_exists.mp h
      have htext : asBytes s = data.takeWhile (· ≠ 0) := by
        unfold String.fromUTF8? at hs
        split at hs
        · cases hs
          rfl
        · cases hs
      cases hdrop : data.dropWhile (· ≠ 0) with
      | nil =>
        rw [hdrop, append_nil] at hsplit
        exact absurd (congrArg length hsplit).ge hlen
      | cons b post =>
        obtain rfl : b = 0 := by
          have := head?_dropWhile_not (fun b : UInt8 => decide (b ≠ 0)) data
          rw [hdrop] at this
          simpa using this
        refine ⟨s, post, ?_, ?_⟩
        · rw [htext]
          intro h0
          simpa using mem_takeWhile_imp h0
        · rw [htext, ← hdrop, hsplit]
  · rintro ⟨s, post, hs, e⟩
    rw [e, unpackUtf8_append hs]
    rfl

end Datatype

/-! ## 3. The reader -/

namespace PackReader

open Datatype

/-- A read gives what unpacking gives and leaves the reader where unpacking stops. -/
def Reads {α : Type} (read : Except SpinelError α × PackReader) : Option (α × List UInt8) → Prop
  | none => ∃ e r, read = (.error e, r)
  | some (v, post) => ∃ r, read = (.ok v, r) ∧ r.At post

section Reads

variable {α β : Type} {r : PackReader} {data : List UInt8}

variable {read : Except SpinelError α × PackReader} {u : Option (α × List UInt8)} {v : α}
  {post : List UInt8}

theorem Reads.toOption (h : Reads read u) : read.1.toOption = u.map Prod.fst := by
  cases u with
  | none =>
    obtain ⟨e, r, rfl⟩ := h
    rfl
  | some x =>
    obtain ⟨r, rfl, -⟩ := h
    rfl

theorem Reads.isSome_map (h : Reads read u) (f : α → β) : (read.1.map f).toOption.isSome = u.isSome := by
  cases u with
  | none =>
    obtain ⟨e, r, rfl⟩ := h
    rfl
  | some x =>
    obtain ⟨r, rfl, -⟩ := h
    rfl

theorem Reads.eq_ok (h : Reads read (some (v, post))) : read.1 = .ok v := by
  obtain ⟨r, rfl, -⟩ := h
  rfl

theorem Reads.map (f : α → β) (h : Reads read u) : Reads (read.1.map f, read.2) (u.map (Prod.map f id)) := by
  cases u with
  | none =>
    obtain ⟨e, r, rfl⟩ := h
    exact ⟨e, r, rfl⟩
  | some x =>
    obtain ⟨r, rfl, hat⟩ := h
    exact ⟨r, rfl, hat⟩

theorem Reads.tryRead (h : Reads read u) {next : α → PackReader → Except SpinelError β}
    {unpackNext : α × List UInt8 → Option β}
    (hnext : ∀ v r post, r.At post → (next v r).toOption = unpackNext (v, post)) :
    (tryRead read next).toOption = u.bind unpackNext := by
  cases u with
  | none =>
    obtain ⟨e, r, rfl⟩ := h
    rfl
  | some x =>
    obtain ⟨r, rfl, hat⟩ := h
    exact hnext x.1 r x.2 hat

theorem reads_uint8 (h : r.At data) : Reads r.readUint8 (unpackUint8 data) := by
  cases data with
  | nil => exact ⟨.underflow, r, readUint8_nil h⟩
  | cons b post => exact ⟨r.skip 1, readUint8_cons h⟩

theorem reads_bytes (n : Nat) (h : r.At data) : Reads (r.readBytes n) (unpackBytes n data) := by
  by_cases hlen : data.length < n
  · rw [unpackBytes, if_pos hlen]
    exact ⟨.underflow, r, readBytes_short h hlen⟩
  · rw [unpackBytes, if_neg hlen]
    exact ⟨r.skip n, readBytes_append (h.split n) (length_take_of_le (Nat.le_of_not_lt hlen))⟩

theorem reads_le (w : Nat) (h : r.At data) : Reads (r.readLe w) (unpackLe w data) := by
  rw [unpackLe, unpackBytes]
  by_cases hlen : data.length < w
  · rw [if_pos hlen]
    exact ⟨.underflow, r, readLe_short h hlen⟩
  · rw [if_neg hlen]
    exact ⟨r.skip w, readLe_append (h.split w) (length_take_of_le (Nat.le_of_not_lt hlen))⟩

theorem reads_uint16 (h : r.At data) : Reads r.readUint16 (unpackUint16 data) :=
  (reads_le 2 h).map UInt16.ofNat

theorem reads_uint32 (h : r.At data) : Reads r.readUint32 (unpackUint32 data) :=
  (reads_le 4 h).map UInt32.ofNat

theorem readUint64_eq (r : PackReader) :
    r.readUint64 = ((r.readLe 8).1.map UInt64.ofNat, (r.readLe 8).2) := by
  rw [readUint64, readLe]
  split <;> rfl

theorem reads_uint64 (h : r.At data) : Reads r.readUint64 (unpackUint64 data) := by
  rw [readUint64_eq]
  exact (reads_le 8 h).map UInt64.ofNat

theorem reads_ipv6 (h : r.At data) : Reads r.readIpv6 (unpackIpv6 data) := by
  by_cases hlen : data.length < 16
  · rw [unpackIpv6, dif_pos hlen]
    exact ⟨.underflow, r, readIpv6_short h hlen⟩
  · rw [unpackIpv6, dif_neg hlen]
    exact ⟨r.skip 16, readIpv6_append ⟨data.take 16, _⟩ (h.split 16)⟩

theorem reads_dataWithLen (h : r.At data) : Reads r.readDataWithLen (unpackDataWlen data) := by
  have hlen := reads_uint16 h
  rw [readDataWithLen, unpackDataWlen]
  cases hu : unpackUint16 data with
  | none =>
    rw [hu] at hlen
    obtain ⟨e, r', hread⟩ := hlen
    rw [hread]
    exact ⟨e, r', rfl⟩
  | some x =>
    rw [hu] at hlen
    obtain ⟨r', hread, hat⟩ := hlen
    rw [hread]
    exact reads_bytes x.1.toNat hat

theorem reads_utf8 (h : r.At data) : Reads r.readUtf8 (unpackUtf8 data) := by
  have hrem : r.data.length - r.offset = data.length := h.remaining
  unfold readUtf8 unpackUtf8
  rw [h.2]
  by_cases hlen : data.length ≤ (data.takeWhile (· ≠ 0)).length
  · rw [if_pos hlen, if_pos (by omega)]
    exact ⟨.underflow, _, rfl⟩
  · rw [if_neg hlen, if_neg (by have := h.1; omega)]
    cases String.fromUTF8? ⟨(data.takeWhile (· ≠ 0)).toArray⟩ with
    | none => exact ⟨.invalidUtf8, _, rfl⟩
    | some s => exact ⟨_, rfl, h.drop (Nat.lt_of_not_le hlen)⟩

/-- The two loops over the chunks. Where the reader rejects the fifth continued octet, decoding rejects what
    comes after. -/
theorem uintPackedLoop_decode (data : List UInt8) (value : UInt32) (k : Nat) (hk : k ≤ 4) :
    match packedUintDecode data value (7 * k) with
    | none => ∃ e n, uintPackedLoop data value (7 * k) = (.error e, n)
    | some (v, post) => ∃ n, uintPackedLoop data value (7 * k) =
          (if v > spinelMaxUintPacked then .error .invalidPackedUint else .ok v, n) ∧
        n ≤ data.length ∧ data.drop n = post := by
  induction data generalizing value k with
  | nil => exact ⟨.underflow, 0, rfl⟩
  | cons byte data ih =>
    rw [packedUintDecode, uintPackedLoop, if_neg (show ¬ 7 * k ≥ 32 by omega)]
    by_cases hmore : byte &&& 0x80 = 0x80
    · have hne : ¬ byte &&& 0x80 = 0 := by
        rw [hmore]
        decide
      rw [if_pos hmore, if_neg hne]
      rcases lt_or_ge k 4 with hlt | hge
      · rw [if_neg (show ¬ 7 * k + 7 ≥ 35 by omega)]
        have ih := ih (addBits value byte (7 * k)) (k + 1) hlt
        rw [Nat.mul_succ] at ih
        cases hd : packedUintDecode data (addBits value byte (7 * k)) (7 * k + 7) with
        | none =>
          rw [hd] at ih
          obtain ⟨e, n, hloop⟩ := ih
          exact ⟨e, n + 1, by rw [hloop]⟩
        | some x =>
          rw [hd] at ih
          obtain ⟨n, hloop, hn, hdrop⟩ := ih
          exact ⟨n + 1, by rw [hloop], Nat.succ_le_succ hn, hdrop⟩
      · obtain rfl : k = 4 := le_antisymm hk hge
        have hnone : packedUintDecode data (addBits value byte 28) 35 = none := by
          cases data <;> rfl
        rw [hnone]
        exact ⟨.invalidPackedUint, 1, rfl⟩
    · have hstop : byte &&& 0x80 = 0 := (and_80_cases byte).resolve_right hmore
      rw [if_neg hmore, if_pos hstop]
      exact ⟨1, rfl, Nat.succ_le_succ (Nat.zero_le _), rfl⟩

theorem reads_uintPacked (h : r.At data) : Reads r.readUintPacked (unpackUintPacked data) := by
  have hloop := uintPackedLoop_decode data 0 0 (Nat.zero_le _)
  unfold readUintPacked unpackUintPacked
  rw [h.2]
  cases hd : packedUintDecode data 0 0 with
  | none =>
    rw [hd] at hloop
    obtain ⟨e, n, hloop⟩ := hloop
    rw [hloop]
    exact ⟨e, _, rfl⟩
  | some x =>
    rw [hd] at hloop
    obtain ⟨n, hloop, hn, hdrop⟩ := hloop
    rw [hloop]
    by_cases hle : x.1 ≤ spinelMaxUintPacked
    · rw [filter_some, if_pos (decide_eq_true hle), if_neg (UInt32.not_lt.mpr hle)]
      exact ⟨r.skip n, rfl, hdrop ▸ h.drop hn⟩
    · rw [if_pos (UInt32.not_le.mp hle), filter_some, if_neg (by simpa using hle)]
      exact ⟨.invalidPackedUint, _, rfl⟩

theorem Reads.eq_some (h : Reads (.ok v, r) u) (hat : r.At post) : u = some (v, post) := by
  cases u with
  | none =>
    obtain ⟨e, r', hread⟩ := h
    cases hread
  | some x =>
    obtain ⟨r', hread, hat'⟩ := h
    cases hread
    rw [← hat.2, hat'.2]

theorem unpackUintPacked_append {val : UInt32} (hv : val ≤ spinelMaxUintPacked) (post : List UInt8) :
    unpackUintPacked (PackWriter.uintPackedBytes val ++ post) = some (val, post) := by
  have hnew := at_new (PackWriter.uintPackedBytes val ++ post)
  obtain ⟨hread, hat⟩ := readUintPacked_append hv hnew
  have hreads := reads_uintPacked hnew
  rw [hread] at hreads
  exact hreads.eq_some hat

end Reads

end PackReader

/-! ## 4. Keyed entries, "A(t(iD))" -/

namespace Datatype

/-- A sequence of structs, each a key and the value behind it. -/
inductive Keyed : List UInt8 → List (UInt32 × List UInt8) → Prop
  | nil : Keyed [] []
  | cons {data entry post value : List UInt8} {key : UInt32} {es : List (UInt32 × List UInt8)} :
      unpackDataWlen data = some (entry, post) → unpackUintPacked entry = some (key, value) →
      Keyed post es → Keyed data ((key, value) :: es)

/-- The entries, one after the other. Every turn takes two bytes at least. -/
def foldEntries {σ : Type} (step : σ → UInt32 × List UInt8 → Option σ) :
    Nat → List UInt8 → σ → Option σ
  | 0, _, s => some s
  | fuel + 1, data, s =>
    if data.length = 0 then some s
    else
      (unpackDataWlen data).bind fun x => (unpackUintPacked x.1).bind fun e =>
        (step s e).bind fun s => foldEntries step fuel x.2 s

theorem length_of_unpackDataWlen {data entry post : List UInt8}
    (h : unpackDataWlen data = some (entry, post)) : post.length < data.length := by
  obtain ⟨-, rfl⟩ := unpackDataWlen_eq_some.mp h
  rw [length_append, structEntry, length_append, length_leBytes]
  omega

theorem keyed_nil_iff {es : List (UInt32 × List UInt8)} : Keyed [] es ↔ es = [] := by
  refine ⟨fun h => ?_, fun h => h ▸ .nil⟩
  cases h with
  | nil => rfl
  | cons h _ _ => exact nomatch length_of_unpackDataWlen h

theorem Keyed.unique {data : List UInt8} {es es' : List (UInt32 × List UInt8)} (h : Keyed data es)
    (h' : Keyed data es') : es = es' := by
  induction h generalizing es' with
  | nil => exact (keyed_nil_iff.mp h').symm
  | cons hdata hentry _ ih =>
    cases h' with
    | nil => exact nomatch length_of_unpackDataWlen hdata
    | cons hdata' hentry' hpost' =>
      rw [hdata] at hdata'
      cases hdata'
      rw [hentry] at hentry'
      cases hentry'
      rw [ih hpost']

/-- **Going over the entries is going over the list of them.** -/
theorem foldEntries_eq_some {σ : Type} {step : σ → UInt32 × List UInt8 → Option σ} {fuel : Nat}
    {data : List UInt8} {s s' : σ} (hfuel : data.length ≤ fuel) :
    foldEntries step fuel data s = some s' ↔ ∃ es, Keyed data es ∧ es.foldlM step s = some s' := by
  induction fuel generalizing data s with
  | zero =>
    obtain rfl : data = [] := length_eq_zero_iff.mp (Nat.le_zero.mp hfuel)
    simp [foldEntries, keyed_nil_iff]
  | succ fuel ih =>
    rw [foldEntries]
    split
    · rename_i hnil
      obtain rfl := length_eq_zero_iff.mp hnil
      simp [keyed_nil_iff]
    · rename_i hnil
      simp only [bind_eq_some_iff]
      constructor
      · intro ⟨⟨entry, post⟩, hdata, e, hentry, s₁, hstep, hrest⟩
        have hlt := length_of_unpackDataWlen hdata
        obtain ⟨es, hes, hfold⟩ := (ih (show post.length ≤ fuel by omega)).mp hrest
        refine ⟨e :: es, .cons hdata hentry hes, ?_⟩
        rw [foldlM_cons, hstep]
        exact hfold
      · intro ⟨es, hes, hfold⟩
        cases hes with
        | nil => exact absurd rfl hnil
        | @cons _ entry post value key es hdata hentry hpost =>
          have hlt := length_of_unpackDataWlen hdata
          rw [foldlM_cons] at hfold
          obtain ⟨s₁, hstep, hfold⟩ := bind_eq_some_iff.mp hfold
          exact ⟨(entry, post), hdata, (key, value), hentry, s₁, hstep,
            (ih (show post.length ≤ fuel by omega)).mpr ⟨es, hpost, hfold⟩⟩

theorem keyed_structEntries (es : List (UInt32 × List UInt8))
    (hkey : ∀ e ∈ es, e.1 ≤ spinelMaxUintPacked)
    (hfit : ∀ e ∈ es, Fits (PackWriter.uintPackedBytes e.1 ++ e.2)) :
    Keyed (structEntries (es.map fun e => PackWriter.uintPackedBytes e.1 ++ e.2)) es := by
  induction es with
  | nil => exact .nil
  | cons e es ih =>
    obtain ⟨hk, hks⟩ := forall_mem_cons.mp hkey
    obtain ⟨hf, hfs⟩ := forall_mem_cons.mp hfit
    exact .cons (unpackDataWlen_structEntry hf _) (PackReader.unpackUintPacked_append hk _) (ih hks hfs)

end Datatype

end DcuDaemon.Spinel
