/-
  Values on their way to the NCP and back (`SpinelNCPInstance.cpp`): `convert_value_channel_mask` and
  `unpack_channel_mask`, `convert_value_dodag_route_dest` and `unpack_dodag_route_dest`.

  A channel mask is sent as the list of its channels. The destination of a DODAG route is a text of eight
  groups of four digits, and the converter takes five characters off for each group but the last.

  Main results: `channelMask_round_trip`, `dodagRouteDest_round_trip`.
-/
import DcuDaemon.Instance.Dataset
import DcuDaemon.Wfantund.ValueDecoders

namespace DcuDaemon.Wfantund

open Instance (channelBit toNat_channelBit and_channelBit_ne_zero)
open Spinel (spinelMaxPackLength)
open Lib List Option

/-! ## 1. Channel masks -/

/-- `convert_value_channel_mask`, of the word that `any_to_int` makes of the value. -/
def convertValueChannelMask (channelMask : UInt32) : List UInt8 :=
  ((List.range 32).map UInt8.ofNat).filter fun channel => channelMask &&& channelBit channel ≠ 0

/-- The loop of `unpack_channel_mask`: a byte is unpacked from what is left, if that is not too long. -/
def unpackChannels (channelMask : UInt32) : List UInt8 → Option UInt32
  | [] => some channelMask
  | channel :: data =>
    if data.length + 1 > spinelMaxPackLength ∨ channel ≥ 32 then none
    else unpackChannels (channelMask ||| channelBit channel) data

def unpackChannelMask (data : List UInt8) : Option UInt32 := unpackChannels 0 data

variable (mask : UInt32) {data : List UInt8}

theorem unpackChannels_eq_some {out : UInt32} : unpackChannels mask data = some out ↔
    (data.length ≤ spinelMaxPackLength ∧ ∀ c ∈ data, c < 32) ∧
      data.foldl (fun mask c => mask ||| channelBit c) mask = out := by
  induction data generalizing mask with
  | nil => simp [unpackChannels]
  | cons c data ih =>
    rw [unpackChannels, length_cons, forall_mem_cons, foldl_cons]
    by_cases hbad : data.length + 1 > spinelMaxPackLength ∨ c ≥ 32
    · rw [if_pos hbad]
      refine iff_of_false nofun ?_
      rintro ⟨⟨hlen, hc, -⟩, -⟩
      exact hbad.elim hlen.not_gt (UInt8.not_le.mpr hc)
    · obtain ⟨hlen, hc⟩ := not_or.mp hbad
      have hfits : data.length + 1 ≤ spinelMaxPackLength := Nat.not_lt.mp hlen
      rw [if_neg hbad, ih]
      simp only [hfits, Nat.le_of_succ_le hfits, UInt8.not_le.mp hc, true_and]

theorem testBit_channels (h : ∀ c ∈ data, c < 32) (i : Nat) :
    (data.foldl (fun mask c => mask ||| channelBit c) mask).toNat.testBit i ↔
      mask.toNat.testBit i ∨ ∃ c ∈ data, c.toNat = i := by
  induction data generalizing mask with
  | nil => simp
  | cons c data ih =>
    obtain ⟨hc, hdata⟩ := forall_mem_cons.mp h
    rw [ foldl_cons, ih _ hdata, UInt32.toNat_or, Nat.testBit_or, toNat_channelBit (Nat.le_of_lt_succ hc),
      Nat.testBit_two_pow]
    simp only [Bool.or_eq_true, decide_eq_true_eq, exists_mem_cons_iff]
    tauto

theorem mem_convertValueChannelMask (c : UInt8) :
    c ∈ convertValueChannelMask mask ↔ c < 32 ∧ mask.toNat.testBit c.toNat := by
  have hrange : c ∈ (List.range 32).map UInt8.ofNat ↔ c < 32 := by
    rw [List.mem_map]
    constructor
    · rintro ⟨n, hn, rfl⟩
      exact (by decide : ∀ n < 32, UInt8.ofNat n < 32) n (mem_range.mp hn)
    · intro hc
      exact ⟨c.toNat, mem_range.mpr hc, UInt8.ofNat_toNat⟩
  rw [convertValueChannelMask, mem_filter, hrange, decide_eq_true_eq]
  exact and_congr_right fun hc => and_channelBit_ne_zero (Nat.le_of_lt_succ hc) mask

/-- **The channels of a mask are unpacked to the mask**, and a list of bytes is unpacked exactly if it is not
    too long for the library and has channels only. -/
theorem channelMask_round_trip (mask : UInt32) (data : List UInt8) :
    unpackChannelMask (convertValueChannelMask mask) = some mask ∧
      ((unpackChannelMask data).isSome = true ↔ data.length ≤ spinelMaxPackLength ∧ ∀ c ∈ data, c < 32) ∧
      ∀ out, unpackChannelMask data = some out →
        ∀ i, out.toNat.testBit i = true ↔ ∃ c ∈ data, c.toNat = i := by
  refine ⟨?_, ?_, fun out hout i => ?_⟩
  · have hall : ∀ c ∈ convertValueChannelMask mask, c < 32 := fun c hc =>
      ((mem_convertValueChannelMask mask c).mp hc).1
    have hlen : (convertValueChannelMask mask).length ≤ 32 := length_filter_le _ _
    refine (unpackChannels_eq_some 0).mpr ⟨⟨hlen.trans (by decide), hall⟩, ?_⟩
    refine UInt32.toNat_inj.mp (Nat.eq_of_testBit_eq fun i => Bool.eq_iff_iff.mpr ?_)
    rw [testBit_channels 0 hall, UInt32.toNat_zero, Nat.zero_testBit]
    simp only [Bool.false_eq_true, false_or, mem_convertValueChannelMask]
    constructor
    · rintro ⟨c, ⟨-, hbit⟩, rfl⟩
      exact hbit
    · intro hbit
      have hi : i < 32 := by
        by_contra hge
        rw [Nat.testBit_lt_two_pow (mask.toNat_lt.trans_le
          (Nat.pow_le_pow_right (by decide) (Nat.le_of_not_lt hge)))] at hbit
        exact absurd hbit (by decide)
      have hto : (UInt8.ofNat i).toNat = i := UInt8.toNat_ofNat_of_lt (hi.trans (by decide))
      refine ⟨UInt8.ofNat i, ⟨?_, by rwa [hto]⟩, hto⟩
      exact UInt8.lt_iff_toNat_lt.mpr (by rwa [hto])
  · simp only [unpackChannelMask, isSome_iff_exists, unpackChannels_eq_some, exists_and_left, exists_eq',
      and_true]
  · obtain ⟨hok, rfl⟩ := (unpackChannels_eq_some 0).mp hout
    rw [testBit_channels 0 hok.2]
    simp

/-- One byte more than the library unpacks at once. -/
theorem long_channel_list_rejected :
    (∀ c ∈ replicate 32768 (0 : UInt8), c < 32) ∧ unpackChannelMask (replicate 32768 0) = none := by
  have hall : ∀ c ∈ replicate 32768 (0 : UInt8), c < 32 := by
    intro c hc
    rw [eq_of_mem_replicate hc]
    decide
  refine ⟨hall, ?_⟩
  refine eq_none_iff_forall_ne_some.mpr fun out hout => ?_
  have hlen := ((unpackChannels_eq_some 0).mp hout).1.1
  rw [length_replicate] at hlen
  exact absurd hlen (by decide)

/-! ## 2. The destination of a DODAG route -/

/-- `std::stoi` in radix 16; `none` stands for an exception. -/
def stoiHex (text : List Char) : Option Int :=
  let signed := text.dropWhile isSpace
  let unsigned := if signed.head? = some '-' ∨ signed.head? = some '+' then signed.tail else signed
  if (unsigned.head?.bind (toDigit 16)).isSome = true ∧ strtolHex text < 2 ^ 31 ∧
      -2 ^ 31 ≤ strtolHex text then
    some (strtolHex text)
  else none

/-- The two numbers at the front of `new_value`. -/
def stoiPair (newValue : List Char) : Option (List UInt8) := do
  let high ← (substr newValue 0 2).bind stoiHex
  let low ← (substr newValue 2 2).bind stoiHex
  some [UInt8.ofInt high, UInt8.ofInt low]

/-- The loop of `convert_value_dodag_route_dest`, with `n` rounds left, and the two bytes behind it. -/
def convertDest : Nat → List Char → Option (List UInt8)
  | 0, newValue => stoiPair newValue
  | n + 1, newValue => do
    let pair ← stoiPair newValue
    let newValue ← substr newValue 5 newValue.length
    let rest ← convertDest n newValue
    some (pair ++ rest)

def convertValueDodagRouteDest (value : List Char) : Option (List UInt8) :=
  convertDest (dodagRouteSize / 2 - 1) value

theorem stoiHex_lowerHex : ∀ n < 256, stoiHex (lowerHex 2 n) = some n ∧ UInt8.ofInt n = UInt8.ofNat n := by
  decide +kernel

theorem substr_append {front rest : List Char} {pos n : Nat} (h : front.length = pos) :
    substr (front ++ rest) pos n = some (rest.take n) := by
  rw [substr, if_neg (by rw [length_append]; omega), drop_left' h]

theorem stoiPair_hexByte (a b : UInt8) (rest : List Char) :
    stoiPair (hexByte a ++ hexByte b ++ rest) = some [a, b] := by
  have hread : ∀ x : UInt8, stoiHex (hexByte x) = some (x.toNat : Int) ∧ UInt8.ofInt x.toNat = x := by
    intro x
    obtain ⟨hnum, hbyte⟩ := stoiHex_lowerHex x.toNat x.toNat_lt
    exact ⟨hnum, hbyte.trans UInt8.ofNat_toNat⟩
  have hlen : ∀ x : UInt8, (hexByte x).length = 2 := fun x => length_lowerHex 2 _
  have hfirst : substr (hexByte a ++ (hexByte b ++ rest)) 0 2 = some (hexByte a) := by
    rw [← nil_append (hexByte a ++ _), substr_append length_nil, take_left' (hlen a)]
  rw [stoiPair, append_assoc, hfirst, substr_append (hlen a), take_left' (hlen b)]
  simp [hread]

theorem read_append (k : Nat) (front dest : List UInt8) (i : Nat) :
    Entry.read (front ++ dest) (some k) (front.length + i : Nat) = dest[i]? := by
  rw [Entry.read, bind_some, if_pos (by omega), Int.toNat_natCast, getElem?_append_right (by omega),
    Nat.add_sub_cancel_left]

/-- **The rounds that are left agree**: the text that the decoder appends for the bytes behind `front` is
    converted to these bytes. -/
theorem exists_dest_tail (k n : Nat) (front dest : List UInt8) (acc : List Char)
    (h : dest.length = 2 * n + 2) :
    ∃ ret tail, (range' front.length n 2).foldlM (appendPair (front ++ dest) (some k)) acc = some ret ∧
      (∀ high ∈ dest[2 * n]?, ∀ low ∈ dest[2 * n + 1]?, ret ++ hexByte high ++ hexByte low = acc ++ tail) ∧
      convertDest n tail = some dest := by
  induction n generalizing front dest acc with
  | zero =>
    obtain ⟨a, b, rfl⟩ := length_eq_two.mp h
    refine ⟨acc, hexByte a ++ hexByte b, rfl, by simp, ?_⟩
    simpa [convertDest] using stoiPair_hexByte a b []
  | succ n ih =>
    obtain ⟨a, b, rest, rfl⟩ : ∃ a b rest, dest = a :: b :: rest := by
      match dest, h with
      | a :: b :: rest, _ => exact ⟨a, b, rest, rfl⟩
    have hpair : appendPair (front ++ a :: b :: rest) (some k) acc front.length =
        some (acc ++ hexByte a ++ hexByte b ++ [':']) := by
      have hread := read_append k front (a :: b :: rest)
      have hhigh := hread 0
      have hlow := hread 1
      simp_all [appendPair]
    have hlen : rest.length = 2 * n + 2 := by simpa [Nat.mul_succ] using h
    obtain ⟨ret, tail, hret, hlast, hconv⟩ :=
      ih (front ++ [a, b]) rest (acc ++ hexByte a ++ hexByte b ++ [':']) hlen
    refine ⟨ret, hexByte a ++ hexByte b ++ ':' :: tail, ?_, ?_, ?_⟩
    · rw [range'_succ, foldlM_cons, hpair, ← hret]
      simp
    · simpa [Nat.mul_succ] using hlast
    · rw [convertDest, stoiPair_hexByte, append_cons, substr_append (by simp [hexByte]),
        take_of_length_le (by rw [length_append]; omega)]
      simp [hconv]

/-- **A destination is converted back**, whatever its sixteen bytes. -/
theorem dodagRouteDest_round_trip (dest : Fin 16 → UInt8) :
    (unpackDodagRouteDest (ofFn dest) 16).bind convertValueDodagRouteDest = some (ofFn dest) := by
  have hlen : (ofFn dest).length = 16 := length_ofFn
  obtain ⟨ret, tail, hret, hlast, hconv⟩ := exists_dest_tail 16 7 [] (ofFn dest) [] hlen
  have hloop : (range' 0 (dodagRouteSize / 2 - 1) 2).foldlM (appendPair (ofFn dest) (unpackData 16)) [] =
      some ret := hret
  have htext : unpackDodagRouteDest (ofFn dest) 16 =
      some (ret ++ hexByte (dest 14) ++ hexByte (dest 15)) := by
    simp only [unpackDodagRouteDest, hloop, bind_eq_bind, bind_some]
    rfl
  rw [htext, bind_some, hlast (dest 14) rfl (dest 15) rfl]
  exact hconv

end DcuDaemon.Wfantund
