/-
  Channel lists (`NCPInstanceBase::convert_to_bitmask`,
  `SpinelNCPInstance::convert_value_channel_list`).

  A list of channels and ranges becomes an array of 129 flags, and the flags become 17 bytes. A byte is
  stored when the first flag of the next one comes, so the last byte is never stored; the numbers of the
  text are used as indices as they are.

  Main results: `convert_isSome_iff`, `convertValueChannelList_iff`.
-/
import DcuDaemon.Lib.Block
import DcuDaemon.Lib.Radix
import DcuDaemon.Lib.Run

namespace DcuDaemon.Wfantund

open Lib List Option

/-! ## 1. The conversion -/

def maxNumChannels : Nat := 129

def channelListSize : Nat := 17

/-- An `int`, of a value that may not be one. -/
def toInt (v : Int) : Int := v.bmod (2 ^ 32)

/-- `any_to_int` of a text. -/
def anyToInt (text : List Char) : Int := toInt (strtol text)

/-- `start_channel` and `end_channel` of a part of the text: a `-` splits it, wherever it stands. -/
def channelRange (item : List Char) : Int × Int :=
  if '-' ∈ item then
    (anyToInt (item.takeWhile (· ≠ '-')), anyToInt ((item.dropWhile (· ≠ '-')).drop 1))
  else (anyToInt item, anyToInt item)

/-- The flags from `channel` on. -/
def markChannels (channel : Int) :
    Nat → Block UInt8 maxNumChannels → Option (Block UInt8 maxNumChannels)
  | 0, bits => some bits
  | n + 1, bits => (bits.store channel 1).bind (markChannels (channel + 1) n)

/-- How often the loop over a range runs. -/
def channelCount (range : Int × Int) : Nat := (toInt (range.2 - range.1) + 1).toNat

variable (bits : Block UInt8 maxNumChannels)

def markItem (item : List Char) : Option (Block UInt8 maxNumChannels) :=
  markChannels (channelRange item).1 (channelCount (channelRange item)) bits

structure Packing where
  eightMultiple : Nat
  count : Nat
  valueToStore : Nat
  bytes : Block Nat channelListSize

def packStep (p : Packing) (x : Nat) : Option Packing :=
  let bit := (bits.cells.getD x 0).toNat
  if x < p.eightMultiple then
    some { p with valueToStore := p.valueToStore + bit <<< p.count, count := p.count + 1 }
  else
    (p.bytes.store ((p.eightMultiple / 8 : Nat) - 1) p.valueToStore).map fun bytes =>
      ⟨p.eightMultiple + 8, 1, bit <<< 0, bytes⟩

def packBits (bytes : Block Nat channelListSize) : Option (Block Nat channelListSize) :=
  ((List.range maxNumChannels).foldlM (packStep bits) ⟨8, 0, 0, bytes⟩).map (·.bytes)

def convertToBitmask (value : List Char) (chArray : Block UInt8 maxNumChannels)
    (chBytesArray : Block Nat channelListSize) :
    Option (Block UInt8 maxNumChannels × Block Nat channelListSize) :=
  ((value.splitOn ':').foldlM markItem chArray).bind fun bits =>
    (packBits bits chBytesArray).map fun bytes => (bits, bytes)

/-- `convert_value_channel_list`, which has the same three steps. -/
def convertValueChannelList (value : List Char) : Option (List UInt8) :=
  (convertToBitmask value (Block.fill _ 0) (Block.fill _ 0)).map fun (_, bytes) =>
    0 :: 0 :: bytes.cells.map UInt8.ofNat

/-! ## 2. Where it writes -/

/-- The channels of a part are channels, or there are none. -/
def InRange (item : List Char) : Prop :=
  let (first, last) := channelRange item
  toInt (last - first) < 0 ∨ 0 ≤ first ∧ first + toInt (last - first) < maxNumChannels

theorem markChannels_isSome (channel : Int) (n : Nat) (bits : Block UInt8 maxNumChannels) :
    (markChannels channel n bits).isSome ↔ n = 0 ∨ 0 ≤ channel ∧ channel + n ≤ maxNumChannels := by
  induction n generalizing channel bits with
  | zero => simp [markChannels]
  | succ n ih =>
    rw [markChannels]
    have hstore := Block.store_isSome (a := bits) (i := channel) (v := 1)
    cases hb : bits.store channel 1 with
    | none =>
      rw [hb] at hstore
      simp only [isSome_none, Bool.false_eq_true, false_iff] at hstore
      simp only [bind_none, isSome_none, Bool.false_eq_true, false_iff]
      omega
    | some b =>
      rw [hb] at hstore
      simp only [isSome_some, true_iff] at hstore
      rw [bind_some, ih]
      omega

theorem markItem_isSome (item : List Char) : (markItem bits item).isSome ↔ InRange item := by
  rw [markItem, markChannels_isSome, channelCount, InRange]
  dsimp only
  omega

variable {bits out : Block UInt8 maxNumChannels} {items : List ChannelItem}

theorem getElem?_markChannels {channel : Int} {n : Nat}
    (h : markChannels channel n bits = some out) (x : Nat) :
    out.cells[x]? = if channel ≤ x ∧ (x : Int) < channel + n then some 1 else bits.cells[x]? := by
  induction n generalizing channel bits with
  | zero =>
    cases h
    rw [if_neg (by omega)]
  | succ n ih =>
    obtain ⟨b, hb, hrest⟩ := bind_eq_some_iff.mp h
    rw [ih hrest, Block.getElem?_store hb]
    by_cases hx : (x : Int) = channel
    · rw [if_pos hx, ite_self, if_pos (by omega)]
    · rw [if_neg hx]
      exact if_congr (by omega) rfl rfl

/-! ## 3. What it packs -/

/-- The sum of the first `r` flags of byte `q`. -/
def partialByte (bits : Block UInt8 maxNumChannels) (q : Nat) : Nat → Nat
  | 0 => 0
  | r + 1 => partialByte bits q r + (bits.cells.getD (8 * q + r) 0).toNat <<< r

/-- What the packing has made of the flags before `x`: `q` bytes are stored, and `r` flags of the
    next one are summed up. -/
structure Packed (bits : Block UInt8 maxNumChannels) (bytes : Block Nat channelListSize) (x : Nat)
    (p : Packing) (q r : Nat) : Prop where
  split : x = 8 * q + r
  le_eight : r ≤ 8
  multiple : p.eightMultiple = 8 * (q + 1)
  counted : p.count = r
  summed : p.valueToStore = partialByte bits q r
  stored : ∀ j : Nat, p.bytes.cells[j]? = if j < q then some (partialByte bits j 8) else bytes.cells[j]?

section Packing

variable {bits : Block UInt8 maxNumChannels} {bytes : Block Nat channelListSize}
variable {x q r : Nat} {p : Packing}

theorem Packed.add (h : Packed bits bytes x p q r) (hr : r < 8) :
    ∃ p', packStep bits p x = some p' ∧ Packed bits bytes (x + 1) p' q (r + 1) := by
  have hx := h.split
  have hmul := h.multiple
  refine ⟨_, by rw [packStep, if_pos (by omega)], ?_⟩
  exact {
    split := by omega
    le_eight := hr
    multiple := hmul
    counted := by rw [h.counted]
    summed := by rw [h.summed, h.counted, hx, partialByte]
    stored := h.stored }

theorem Packed.next (h : Packed bits bytes x p q 8) (hx : x < maxNumChannels) :
    ∃ p', packStep bits p x = some p' ∧ Packed bits bytes (x + 1) p' (q + 1) 1 := by
  have hsplit := h.split
  have hmul := h.multiple
  have hbound : q < channelListSize := by
    simp only [maxNumChannels] at hx
    simp only [channelListSize]
    omega
  have hindex : ((p.eightMultiple / 8 : Nat) - 1 : Int) = (q : Int) := by omega
  obtain ⟨b, hb⟩ := isSome_iff_exists.mp
    ((Block.store_isSome (a := p.bytes) (i := q) (v := p.valueToStore)).mpr (by omega))
  refine ⟨⟨p.eightMultiple + 8, 1, (bits.cells.getD x 0).toNat <<< 0, b⟩, ?_, ?_⟩
  · rw [packStep, if_neg (by omega), hindex, hb]
    rfl
  · exact {
      split := by omega
      le_eight := by decide
      multiple := by simp only [hmul]; omega
      counted := rfl
      summed := by simp [partialByte, hsplit, mul_add]
      stored := fun j => by
        rw [Block.getElem?_store hb, h.stored, h.summed]
        by_cases hj : (j : Int) = q
        · rw [if_pos hj, if_pos (by omega), show j = q by omega]
        · rw [if_neg hj]
          exact if_congr (by omega) rfl rfl }

/-- **The packing stores sixteen bytes**; the last one stays as it was. -/
theorem packBits_eq (bits : Block UInt8 maxNumChannels) (bytes : Block Nat channelListSize) :
    ∃ out, packBits bits bytes = some out ∧
      ∀ j : Nat, out.cells[j]? = if j < 16 then some (partialByte bits j 8) else bytes.cells[j]? := by
  have hstart : Packed bits bytes 0 ⟨8, 0, 0, bytes⟩ 0 0 :=
    ⟨rfl, by decide, rfl, rfl, rfl, fun j => by rw [if_neg (Nat.not_lt_zero j)]⟩
  have hloop : ∀ x < maxNumChannels, ∀ p, (∃ q r, Packed bits bytes x p q r) →
      ∃ p', packStep bits p x = some p' ∧ ∃ q r, Packed bits bytes (x + 1) p' q r := by
    intro x hx p ⟨q, r, h⟩
    have hle := h.le_eight
    rcases lt_or_ge r 8 with hr | hr
    · obtain ⟨p', hp', h'⟩ := h.add hr
      exact ⟨p', hp', q, r + 1, h'⟩
    · obtain rfl : r = 8 := by omega
      obtain ⟨p', hp', h'⟩ := h.next hx
      exact ⟨p', hp', q + 1, 1, h'⟩
  obtain ⟨p, hp, q, r, hpacked⟩ :=
    foldlM_range (fun x p => ∃ q r, Packed bits bytes x p q r) ⟨0, 0, hstart⟩ hloop
  refine ⟨p.bytes, by rw [packBits, hp]; rfl, ?_⟩
  have hsplit := hpacked.split
  have hle := hpacked.le_eight
  simp only [maxNumChannels] at hsplit
  -- 129 flags are sixteen bytes and one flag, which is summed up and not stored
  have hq : q = 16 := by omega
  subst hq
  exact hpacked.stored

theorem testBit_flag {v : UInt8} (h : v ≤ 1) (k : Nat) : v.toNat.testBit k ↔ k = 0 ∧ v = 1 := by
  have hle : v.toNat ≤ 1 := UInt8.le_iff_toNat_le.mp h
  rcases Nat.le_one_iff_eq_zero_or_eq_one.mp hle with hv | hv
  · have hzero : v = 0 := UInt8.toNat_inj.mp hv
    simp [hzero]
  · have hone : v = 1 := UInt8.toNat_inj.mp hv
    cases k with
    | zero => simp [hone]
    | succ k => simp [hone, Nat.testBit_succ]

/-- **The bits of a sum of flags are the flags.** -/
theorem testBit_partialByte (hflag : ∀ i < r, bits.cells.getD (8 * q + i) 0 ≤ 1) :
    partialByte bits q r < 2 ^ r ∧
      ∀ i, (partialByte bits q r).testBit i ↔ i < r ∧ bits.cells.getD (8 * q + i) 0 = 1 := by
  induction r with
  | zero => exact ⟨Nat.one_pos, fun i => by simp [partialByte]⟩
  | succ r ih =>
    obtain ⟨hlt, hbit⟩ := ih fun i hi => hflag i (Nat.lt_succ_of_lt hi)
    have hlast := hflag r (Nat.lt_succ_self r)
    have hsum : partialByte bits q (r + 1) =
        2 ^ r * (bits.cells.getD (8 * q + r) 0).toNat + partialByte bits q r := by
      rw [partialByte, Nat.shiftLeft_eq, Nat.mul_comm, Nat.add_comm]
    refine ⟨?_, fun i => ?_⟩
    · have hle := Nat.mul_le_mul_left (2 ^ r) (UInt8.le_iff_toNat_le.mp hlast)
      rw [UInt8.toNat_one] at hle
      omega
    · rw [hsum, Nat.testBit_two_pow_mul_add _ hlt]
      by_cases hi : i < r
      · rw [if_pos hi, hbit, and_iff_right hi, and_iff_right (Nat.lt_succ_of_lt hi)]
      · rw [if_neg hi, testBit_flag hlast]
        constructor
        · intro ⟨hzero, hone⟩
          obtain rfl : i = r := by omega
          exact ⟨Nat.lt_succ_self i, hone⟩
        · intro ⟨hlt, hone⟩
          obtain rfl : i = r := by omega
          exact ⟨Nat.sub_self i, hone⟩

end Packing

/-! ## 4. Safety -/

theorem convertToBitmask_isSome (value : List Char) (chArray : Block UInt8 maxNumChannels)
    (chBytesArray : Block Nat channelListSize) : (convertToBitmask value chArray chBytesArray).isSome ↔
      ∀ item ∈ value.splitOn ':', InRange item := by
  rw [← foldlM_isSome_iff markItem_isSome (s := chArray), convertToBitmask]
  cases (value.splitOn ':').foldlM markItem chArray with
  | none => rfl
  | some bits =>
    obtain ⟨out, hout, -⟩ := packBits_eq bits chBytesArray
    simp [hout]

/-- **Both functions write inside their arrays** exactly if every part names channels of the array or an empty
    range. -/
theorem convert_isSome_iff (value : List Char) :
    ((∀ chArray chBytesArray, (convertToBitmask value chArray chBytesArray).isSome = true) ∧
        (convertValueChannelList value).isSome = true) ↔ ∀ item ∈ value.splitOn ':', InRange item := by
  simp only [convertToBitmask_isSome, convertValueChannelList, isSome_map]
  exact ⟨fun h => h.2, fun h => ⟨fun _ _ => h, h⟩⟩

/-- Channel 200 is not one of the array. -/
theorem channel_200_outside :
    (convertToBitmask "200".toList (Block.fill _ 0) (Block.fill _ 0)).isSome = false ∧
      (convertValueChannelList "200".toList).isSome = false := by
  decide +kernel

/-! ## 5. The mask of a list -/

/-- A channel as it is written: a number that C reads, without the characters that separate. -/
structure Channel where
  text : List Char
  value : Nat
  reads : anyToInt text = value
  no_colon : ':' ∉ text
  no_dash : '-' ∉ text
  le_max : value ≤ 128

theorem decimal_reads : ∀ n < 129, anyToInt (Nat.toDigits 10 n) = n ∧
    ':' ∉ Nat.toDigits 10 n ∧ '-' ∉ Nat.toDigits 10 n := by
  decide +kernel

/-- The decimal numbers are among them. -/
def Channel.decimal (n : Fin 129) : Channel where
  text := Nat.toDigits 10 n
  value := n
  reads := (decimal_reads n n.isLt).1
  no_colon := (decimal_reads n n.isLt).2.1
  no_dash := (decimal_reads n n.isLt).2.2
  le_max := Nat.le_of_lt_succ n.isLt

inductive ChannelItem where
  | single (c : Channel)
  | range (a b : Channel) (ordered : a.value ≤ b.value)

namespace ChannelItem

def text : ChannelItem → List Char
  | single c => c.text
  | range a b _ => a.text ++ '-' :: b.text

def first : ChannelItem → Nat
  | single c => c.value
  | range a _ _ => a.value

def last : ChannelItem → Nat
  | single c => c.value
  | range _ b _ => b.value

variable (item : ChannelItem)

theorem first_le_last : item.first ≤ item.last := by
  cases item with
  | single c => exact le_rfl
  | range a b ordered => exact ordered

theorem last_le_max : item.last ≤ 128 := by
  cases item with
  | single c => exact c.le_max
  | range a b ordered => exact b.le_max

theorem no_colon : ':' ∉ item.text := by
  cases item with
  | single c => exact c.no_colon
  | range a b ordered => simp [text, a.no_colon, b.no_colon]

theorem channelRange_text : channelRange item.text = ((item.first : Int), (item.last : Int)) := by
  cases item with
  | single c => rw [text, channelRange, if_neg c.no_dash, c.reads, first, last]
  | range a b ordered =>
    have hstop : ∀ c ∈ a.text, decide (c ≠ '-') := by
      intro c hc
      exact decide_eq_true fun e => a.no_dash (e ▸ hc)
    rw [text, channelRange, if_pos (by simp), takeWhile_append_of_pos hstop,
      dropWhile_append_of_pos hstop, takeWhile_cons_of_neg (by simp),
      dropWhile_cons_of_neg (by simp), append_nil, drop_succ_cons, drop_zero,
      a.reads, b.reads, first, last]

theorem toInt_width : toInt ((item.last : Int) - item.first) = (item.last : Int) - item.first := by
  have hle := item.first_le_last
  have hmax := item.last_le_max
  exact Int.bmod_eq_of_le (by omega) (by omega)

theorem inRange : InRange item.text := by
  have hmax := item.last_le_max
  rw [InRange, item.channelRange_text]
  dsimp only
  rw [item.toInt_width, maxNumChannels]
  omega

def Covers (item : ChannelItem) (c : Nat) : Prop := item.first ≤ c ∧ c ≤ item.last

instance (item : ChannelItem) (c : Nat) : Decidable (item.Covers c) := inferInstanceAs (Decidable (_ ∧ _))

theorem getElem?_markItem {item : ChannelItem} {bits out : Block UInt8 maxNumChannels}
    (h : markItem bits item.text = some out) (x : Nat) :
    out.cells[x]? = if item.Covers x then some 1 else bits.cells[x]? := by
  rw [markItem, item.channelRange_text, channelCount, item.toInt_width] at h
  rw [getElem?_markChannels h]
  exact if_congr (by unfold Covers; omega) rfl rfl

end ChannelItem

def Covered (items : List ChannelItem) (c : Nat) : Prop := ∃ item ∈ items, item.Covers c

instance (items : List ChannelItem) (c : Nat) : Decidable (Covered items c) :=
  inferInstanceAs (Decidable (∃ item ∈ items, item.Covers c))

def listText (items : List ChannelItem) : List Char := [':'].intercalate (items.map (·.text))

theorem splitOn_listText (hne : items ≠ []) : (listText items).splitOn ':' = items.map (·.text) := by
  refine splitOn_intercalate ':' ?_ (by simpa using hne)
  intro text htext
  obtain ⟨item, -, rfl⟩ := mem_map.mp htext
  exact item.no_colon

theorem getElem?_markItems (h : (items.map (·.text)).foldlM markItem bits = some out) (x : Nat) :
    out.cells[x]? = if Covered items x then some 1 else bits.cells[x]? := by
  induction items generalizing bits with
  | nil =>
    cases h
    rw [if_neg (by simp [Covered])]
  | cons item items ih =>
    obtain ⟨b, hb, hrest⟩ := bind_eq_some_iff.mp h
    rw [ih hrest, ChannelItem.getElem?_markItem hb]
    by_cases hcov : Covered items x
    · rw [if_pos hcov, if_pos]
      obtain ⟨item', hmem, hx⟩ := hcov
      exact ⟨item', mem_cons_of_mem item hmem, hx⟩
    · rw [if_neg hcov]
      refine if_congr ?_ rfl rfl
      unfold Covered at hcov ⊢
      rw [exists_mem_cons_iff, or_iff_left hcov]

/-- Two zero bytes, and 17 bytes with the bits of the channels that are covered. -/
def IsMask (items : List ChannelItem) (out : List UInt8) : Prop :=
  ∃ mask : List UInt8, out = 0 :: 0 :: mask ∧ mask.length = 17 ∧
    ∀ c ≤ 128, ((mask.getD (c / 8) 0).toNat.testBit (c % 8) = true ↔ Covered items c)

/-- The flags of a list, packed: right for every channel but the last, which is never sent. -/
theorem convertValueChannelList_listText (hne : items ≠ []) :
    ∃ mask : List UInt8, convertValueChannelList (listText items) = some (0 :: 0 :: mask) ∧
      mask.length = 17 ∧ ∀ c ≤ 128, ((mask.getD (c / 8) 0).toNat.testBit (c % 8) ↔
        c < 128 ∧ Covered items c) := by
  have hrange : ∀ text ∈ items.map (·.text), InRange text := by
    intro text htext
    obtain ⟨item, -, rfl⟩ := mem_map.mp htext
    exact item.inRange
  obtain ⟨bits, hbits⟩ := isSome_iff_exists.mp
    ((foldlM_isSome_iff markItem_isSome (s := Block.fill _ 0) _).mpr hrange)
  obtain ⟨bytes, hbytes, hcells⟩ := packBits_eq bits (Block.fill _ 0)
  have hflag : ∀ x < maxNumChannels, bits.cells.getD x 0 = if Covered items x then 1 else 0 := by
    intro x hx
    rw [getD_eq_getElem?_getD, getElem?_markItems hbits, Block.getElem?_fill, if_pos hx]
    by_cases hcov : Covered items x
    · rw [if_pos hcov, if_pos hcov, getD_some]
    · rw [if_neg hcov, if_neg hcov, getD_some]
  refine ⟨bytes.cells.map UInt8.ofNat, ?_, ?_, ?_⟩
  · rw [convertValueChannelList, convertToBitmask, splitOn_listText hne, hbits, bind_some, hbytes]
    rfl
  · rw [length_map, bytes.length_cells, channelListSize]
  · intro c hc
    rw [getD_eq_getElem?_getD, getElem?_map, hcells]
    by_cases hlast : c < 128
    · have hflags : ∀ i < 8, bits.cells.getD (8 * (c / 8) + i) 0 ≤ 1 := by
        intro i hi
        rw [hflag _ (show _ < 129 by omega)]
        split <;> decide
      obtain ⟨hlt, hbit⟩ := testBit_partialByte hflags
      rw [if_pos (by omega), map_some, getD_some, UInt8.toNat_ofNat',
        Nat.mod_eq_of_lt hlt, hbit, Nat.div_add_mod, hflag c (show _ < 129 by omega),
        and_iff_right (Nat.mod_lt c (by decide)), and_iff_right hlast]
      by_cases hcov : Covered items c
      · simp [hcov]
      · simp [hcov]
    · obtain rfl : c = 128 := by omega
      rw [if_neg (by decide), Block.getElem?_fill, if_pos (by decide)]
      exact iff_of_false (by decide) (fun h => hlast h.1)

theorem convertValueChannelList_nil :
    convertValueChannelList [] = some (0 :: 0 :: 1 :: replicate 16 0) := by
  decide +kernel

/-- **The output is the mask of the list** exactly if there is a list and channel 128 is not on it. -/
theorem convertValueChannelList_iff (items : List ChannelItem) :
    (∃ out, convertValueChannelList (listText items) = some out ∧ IsMask items out) ↔
      items ≠ [] ∧ ¬ Covered items 128 := by
  by_cases hne : items = []
  · subst hne
    refine iff_of_false ?_ (fun h => h.1 rfl)
    intro ⟨out, hout, mask, hmask, _, hbits⟩
    have hnil : listText [] = [] := rfl
    rw [hnil, convertValueChannelList_nil, some.injEq, hmask, cons.injEq, cons.injEq] at hout
    have hzero : Covered [] 0 := by
      rw [← hbits 0 (by decide), ← hout.2.2]
      decide
    obtain ⟨item, hmem, -⟩ := hzero
    exact not_mem_nil hmem
  · obtain ⟨mask, hmask, hlen, hbits⟩ := convertValueChannelList_listText hne
    rw [and_iff_right hne]
    constructor
    · intro ⟨out, hout, mask', hmask', _, hbits'⟩ hcov
      rw [hmask, some.injEq, hmask', cons.injEq, cons.injEq] at hout
      obtain rfl := hout.2.2
      have hsent := (hbits 128 le_rfl).mp ((hbits' 128 le_rfl).mpr hcov)
      exact lt_irrefl 128 hsent.1
    · intro hcov
      refine ⟨_, hmask, mask, rfl, hlen, fun c hc => ?_⟩
      rw [hbits c hc]
      refine ⟨fun h => h.2, fun h => ⟨?_, h⟩⟩
      rcases Nat.lt_or_eq_of_le hc with hlt | rfl
      · exact hlt
      · exact absurd h hcov

/-- Channel 128 is covered, and no bit of it is sent. -/
theorem channel_128_not_sent : listText [.single (.decimal 128)] = "128".toList ∧
      convertValueChannelList "128".toList = some (List.replicate 19 0) ∧
      ¬ IsMask [.single (.decimal 128)] (List.replicate 19 0) := by
  refine ⟨by decide +kernel, by decide +kernel, ?_⟩
  intro ⟨mask, hmask, _, hbits⟩
  have hzero : mask = replicate 17 0 := by
    have htail := congrArg (drop 2) hmask
    exact htail.symm
  have hsent := (hbits 128 le_rfl).mpr (by decide +kernel)
  rw [hzero] at hsent
  exact absurd hsent (by decide)

end DcuDaemon.Wfantund
