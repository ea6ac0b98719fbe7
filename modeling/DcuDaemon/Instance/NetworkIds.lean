/-
  The numbers of the network ids and of the CCA threshold, from `set_property_locked` to
  `get_property_locked` and from the NCP to `DaemonState`.

  Every id goes through a text. A number is printed in decimal and read in hexadecimal; the extended PAN
  id is stored in the order of the text and printed as a little-endian number; the threshold keeps its
  low byte.

  Main result: `network_ids_iff`.
-/
import DcuDaemon.Instance.PropertyValues

namespace DcuDaemon.Instance

open Dbus Lib Spinel List Option
open Spinel.PackReader (leValue)

/-! ## 1. Numbers of values -/

/-- The hexadecimal number that a text writes, with or without `0x` and colons. -/
def textNumber (s : String) : Option Nat := fromStrRadix 16 (2 ^ 64) (xpanidDigits s)

def numericValue {ω : Type} : Variant ω → Option Int
  | .u8 n => some n.toNat
  | .u16 n => some n.toNat
  | .u32 n => some n.toNat
  | .u64 n => some n.toNat
  | .i16 n => some n.toInt
  | .i32 n => some n.toInt
  | .i64 n => some n.toInt
  | .str s => (textNumber s).map Int.ofNat
  | _ => none

/-- The properties in question. -/
inductive NumericKey where
  | panId
  | xpanId
  | ccaThreshold
  deriving DecidableEq, Repr

namespace NumericKey

def name : NumericKey → String
  | panId => "Network:PANID"
  | xpanId => "Network:XPANID"
  | ccaThreshold => "NCP:CCAThreshold"

/-- The values whose number comes back: a PAN id as a text or below ten; an extended one whose bytes read the
    same both ways, or whose decimal digits are those of its bytes from the lowest up; a threshold of a
    byte. -/
def Keeps {ω : Type} : NumericKey → Variant ω → Prop
  | panId, value => (∃ s, value = .str s) ∨ ∃ n < 10, numericValue value = some n
  | xpanId, value =>
    (∃ s n, value = .str s ∧ textNumber s = some n ∧
      (leBytes ((xpanidDigits s).length / 2) n).reverse = leBytes ((xpanidDigits s).length / 2) n) ∨
    (∀ s, value ≠ .str s) ∧ ∃ n : Nat, numericValue value = some (n : Int) ∧
      ∃ k, Nat.toDigits 10 n = hexBytes (leBytes k n)
  | ccaThreshold, value => ∃ n, numericValue value = some n ∧ -128 ≤ n ∧ n ≤ 127

end NumericKey

/-! ## 2. Texts -/

theorem isHex_spec {c : Char} (h : IsHex c) :
    isWhitespace c = false ∧ c ≠ 'x' ∧ c ≠ 'X' ∧ c ≠ '+' ∧ c ≠ ':' := by
  obtain ⟨d, hd, rfl⟩ := h
  exact (hexChar_spec d hd).2

variable {cs : List Char} {n : Nat} {s : String} {bytes : List UInt8}

theorem stripHexPrefix_trim (h : ∀ c ∈ cs, IsHex c) : stripHexPrefix (trim cs) = cs := by
  rw [trim_eq_self fun c hc => (isHex_spec (h c hc)).1]
  unfold stripHexPrefix
  split
  · exact absurd rfl (isHex_spec (h 'x' (by simp))).2.1
  · exact absurd rfl (isHex_spec (h 'X' (by simp))).2.2.1
  · rfl

theorem xpanidDigits_eq_self (h : ∀ c ∈ cs, IsHex c) : xpanidDigits (String.ofList cs) = cs := by
  rw [xpanidDigits, String.toList_ofList, stripHexPrefix_trim h]
  exact filter_eq_self.mpr fun c hc => decide_eq_true (isHex_spec (h c hc)).2.2.2.2

theorem textNumber_eq (hne : cs ≠ []) (h : ∀ c ∈ cs, IsHex c) :
    textNumber (String.ofList cs) = (readDigits 16 0 cs).filter (· < 2 ^ 64) := by
  have hplus : '+' ∉ cs := fun hmem => (isHex_spec (h '+' hmem)).2.2.2.1 rfl
  rw [textNumber, xpanidDigits_eq_self h, fromStrRadix_eq hne hplus]

theorem textNumber_hexFixed {w : Nat} (hw : 0 < w) (hw' : w ≤ 16) (hn : n < 16 ^ w) :
    textNumber (String.ofList (hexFixed w n)) = some n := by
  have hne : hexFixed w n ≠ [] := fun e => by
    have := congrArg length e
    rw [length_hexFixed, length_nil] at this
    omega
  have hlt : n < 2 ^ 64 := hn.trans_le ((Nat.pow_le_pow_right (by decide) hw').trans (by decide))
  rw [textNumber_eq hne (isHex_hexFixed w n), readDigits_hexFixed, Nat.mod_eq_of_lt hn]
  simpa using hlt

theorem textNumber_panIdToString (panId : UInt16) :
    textNumber (panIdToString panId) = some panId.toNat := by
  have hws : ∀ c ∈ '0' :: 'x' :: hexFixed 4 panId.toNat, isWhitespace c = false := by
    intro c hc
    rcases mem_cons.mp hc with rfl | hc
    · decide
    · rcases mem_cons.mp hc with rfl | hc
      · decide
      · exact (isHex_spec (isHex_hexFixed 4 _ c hc)).1
  have hdigits : xpanidDigits (panIdToString panId) =
      xpanidDigits (String.ofList (hexFixed 4 panId.toNat)) := by
    rw [xpanidDigits_eq_self (isHex_hexFixed 4 _), xpanidDigits, panIdToString, String.toList_ofList,
      trim_eq_self hws]
    show (hexFixed 4 panId.toNat).filter _ = _
    exact filter_eq_self.mpr fun c hc =>
      decide_eq_true (isHex_spec (isHex_hexFixed 4 _ c hc)).2.2.2.2
  rw [textNumber, hdigits]
  exact textNumber_hexFixed (by decide) (by decide) (panId.toNat_lt.trans_eq (by norm_num))

theorem isHex_decimal (n : Nat) : ∀ c ∈ Nat.toDigits 10 n, IsHex c := by
  intro c hc
  obtain ⟨hge, hle⟩ := Char.isDigit_iff_toNat.mp (isDigit_toDigits hc)
  have hlt : c.toNat - '0'.toNat < 10 := Nat.lt_succ_of_le (Nat.sub_le_sub_right hle _)
  refine ⟨c.toNat - '0'.toNat, hlt.trans (by decide), ?_⟩
  rw [hexChar, if_pos hlt, Nat.add_sub_cancel' hge, Char.ofNat_toNat]

theorem toString_eq_decimal (n : Nat) : toString (n : Int) = String.ofList (Nat.toDigits 10 n) :=
  Nat.toString_eq_ofList_toDigits

theorem stripHexPrefix_neg {n : Int} (hn : n < 0) :
    ∃ c cs, stripHexPrefix (trim (toString n).toList) = '-' :: c :: cs ∧ ∀ c' ∈ c :: cs, IsHex c' := by
  obtain ⟨m, rfl⟩ := Int.eq_negSucc_of_lt_zero hn
  have htext : (toString (Int.negSucc m)).toList = '-' :: Nat.toDigits 10 (m + 1) := by
    show ("-" ++ toString (m + 1)).toList = _
    simp only [Nat.toString_eq_ofList_toDigits, String.toList_append, String.toList_ofList]
    rfl
  have hall := isHex_decimal (m + 1)
  cases hdigits : Nat.toDigits 10 (m + 1) with
  | nil => exact absurd hdigits Nat.toDigits_ne_nil
  | cons c cs =>
    rw [hdigits] at hall htext
    have hws : ∀ c' ∈ '-' :: c :: cs, isWhitespace c' = false := by
      intro c' hc'
      rcases mem_cons.mp hc' with rfl | hc'
      · decide
      · exact (isHex_spec (hall c' hc')).1
    refine ⟨c, cs, ?_, hall⟩
    rw [htext, trim_eq_self hws]
    rfl

/-! ## 3. The PAN id -/

theorem fromStrRadix_neg (size : Nat) (cs : List Char) : fromStrRadix 16 size ('-' :: cs) = none := by
  have hdigit : toDigit 16 '-' = none := by decide
  simp [fromStrRadix, readDigits, hdigit]

/-- **A decimal number as a PAN id**: its digits are read as hexadecimal, up to four of them. -/
theorem panIdFromStr_decimal (n : Nat) :
    ∃ v, (v = n ↔ n < 10) ∧ (n < 10000 → v < 65536) ∧
      panIdFromStr (toString (n : Int)) =
        if n < 10000 then .ok (UInt16.ofNat v) else .error "invalid PAN ID hex string" := by
  obtain ⟨v, hv, -, hiff, hpow⟩ := readDigits_decimal n
  have hsize : n < 10000 ↔ v < 65536 := by
    have := hpow 4
    omega
  refine ⟨v, hiff, hsize.mp, ?_⟩
  have hplus : '+' ∉ Nat.toDigits 10 n := fun hmem => (isHex_spec (isHex_decimal n '+' hmem)).2.2.2.1 rfl
  unfold panIdFromStr
  rw [toString_eq_decimal, String.toList_ofList, stripHexPrefix_trim (isHex_decimal n),
    fromStrRadix_eq Nat.toDigits_ne_nil hplus, hv]
  by_cases h : n < 10000
  · simp [Option.filter, if_pos h, hsize.mp h]
  · simp [Option.filter, if_neg h, hsize.not.mp h]

theorem panIdFromStr_neg {n : Int} (hn : n < 0) :
    panIdFromStr (toString n) = .error "invalid PAN ID hex string" := by
  obtain ⟨c, cs, htext, -⟩ := stripHexPrefix_neg hn
  unfold panIdFromStr
  rw [htext, fromStrRadix_neg]

theorem textNumber_of_panIdFromStr {panId : UInt16} (h : panIdFromStr s = .ok panId) :
    textNumber s = some panId.toNat := by
  unfold panIdFromStr at h
  split at h
  · rename_i n hn
    cases h
    obtain ⟨digits, hne, htext, hread, hlt⟩ := fromStrRadix_eq_some.mp hn
    -- a colon is no digit, so that none is taken out
    have hcolon : ':' ∉ stripHexPrefix (trim s.toList) := by
      have hdigits := not_mem_of_readDigits (show toDigit 16 ':' = none by decide) hread
      rcases htext with e | ⟨-, e⟩
      · rw [e, mem_cons, not_or]
        exact ⟨by decide, hdigits⟩
      · rw [e]
        exact hdigits
    have hsame : xpanidDigits s = stripHexPrefix (trim s.toList) :=
      filter_eq_self.mpr fun c hc => decide_eq_true fun e => hcolon (e ▸ hc)
    rw [textNumber, hsame, UInt16.toNat_ofNat_of_lt' hlt]
    exact fromStrRadix_eq_some.mpr ⟨digits, hne, htext, hread, hlt.trans (by decide)⟩
  · cases h

section Results

variable {ε α β : Type}

theorem bind_eq_ok {x : Except ε α} {f : α → Except ε β} {b : β} (h : x.bind f = .ok b) :
    ∃ a, x = .ok a ∧ f a = .ok b := by
  cases x with
  | error e => cases h
  | ok a => exact ⟨a, rfl, h⟩

theorem eq_ok_of_decoded {x : Except String α} {a : α} (h : decoded x = .ok a) : x = .ok a := by
  cases x with
  | error e => cases h
  | ok b => exact congrArg Except.ok (Except.ok.inj h)

end Results

section Keys

variable {ω : Type} (lib : Externals ω)

theorem stringFrom_cases {value : Variant ω} {text : String} (h : stringFrom lib value = .ok text) :
    value = .str text ∨ (∀ s, value ≠ .str s) ∧ ∃ n, numericValue value = some n ∧ text = toString n := by
  cases value with
  | str s =>
    cases h
    exact .inl rfl
  | i16 _ | f64 _ | bool _ | other _ => cases h
  | _ =>
    cases h
    exact .inr ⟨fun s e => (nomatch e), _, rfl, rfl⟩

variable {value : Variant ω} {ds ds' : DaemonState}

/-- What a property returns has the number of a value. -/
def Returns (name : String) (ds : DaemonState) (value : Variant ω) : Prop :=
  ∃ v, getPropertyLocked lib name ds = .ok v ∧ numericValue v = numericValue value

theorem returns_iff {name : String} {v : Variant ω} {n : Int}
    (hget : getPropertyLocked lib name ds = .ok v) (hn : numericValue v = some n) :
    Returns lib name ds value ↔ numericValue value = some n := by
  unfold Returns
  rw [hget, ← hn]
  constructor
  · intro h
    obtain ⟨v', e, hv⟩ := h
    rw [← hv, ← Except.ok.inj e]
  · intro e
    exact ⟨_, rfl, e.symm⟩

theorem returns_panId :
    Returns lib "Network:PANID" ds value ↔ numericValue value = some (ds.panId.toNat : Int) :=
  returns_iff (v := .str (panIdToString ds.panId)) lib rfl
    (by rw [numericValue, textNumber_panIdToString]; rfl)

theorem setPropertyLocked_panId (h : setPropertyLocked lib "Network:PANID" value ds = .ok ds') :
    ∃ text panId, stringFrom lib value = .ok text ∧ panIdFromStr text = .ok panId ∧
      ds' = { ds with panId := panId } := by
  obtain ⟨text, htext, h⟩ := bind_eq_ok h
  obtain ⟨panId, hpan, h⟩ := bind_eq_ok h
  exact ⟨text, panId, htext, eq_ok_of_decoded hpan, (Except.ok.inj h).symm⟩

/-- **A PAN id comes back** as a text, or as a number below ten. -/
theorem panId_returned_iff (h : setPropertyLocked lib "Network:PANID" value ds = .ok ds') :
    Returns lib "Network:PANID" ds' value ↔ NumericKey.panId.Keeps value := by
  obtain ⟨text, panId, htext, hpan, rfl⟩ := setPropertyLocked_panId lib h
  rw [returns_panId]
  rcases stringFrom_cases lib htext with rfl | ⟨hstr, n, hn, rfl⟩
  · refine iff_of_true ?_ (.inl ⟨text, rfl⟩)
    rw [numericValue, textNumber_of_panIdFromStr hpan]
    rfl
  · have hkeeps : NumericKey.panId.Keeps value ↔ n < 10 := by
      constructor
      · intro hkeeps
        rcases hkeeps with ⟨s, e⟩ | ⟨m, hm, e⟩
        · exact absurd e (hstr s)
        · rw [hn] at e
          cases e
          exact hm
      · intro hlt
        exact .inr ⟨n, hlt, hn⟩
    rw [hkeeps, hn]
    rcases lt_or_ge n 0 with hneg | hpos
    · rw [panIdFromStr_neg hneg] at hpan
      cases hpan
    · obtain ⟨m, rfl⟩ := Int.eq_ofNat_of_zero_le hpos
      obtain ⟨v, hv, hsize, heq⟩ := panIdFromStr_decimal m
      rw [heq] at hpan
      split at hpan
      · rename_i hm
        cases hpan
        rw [UInt16.toNat_ofNat_of_lt' (hsize hm), some.injEq, Int.ofNat_inj, eq_comm]
        omega
      · cases hpan

/-! ## 4. The PAN id of the NCP -/

/-- **A PAN id that the NCP reports** is stored if it is below ten, or if its decimal digits do not fit and it
    was there. -/
theorem queried_panId_iff {sendPropGet : UInt32 → Except DaemonError SpinelFrame} {h : PropHandler}
    {frame : SpinelFrame} {p : UInt16} (hl : lookup "Network:PANID" = some h)
    (hsend : sendPropGet h.propId = .ok frame) (hframe : frame.payload = h.payload (leBytes 2 p.toNat)) :
    ∃ ds', queryAndUpdateDaemonState lib sendPropGet "Network:PANID" ds = .ok ds' ∧
      (ds'.panId = p ↔ p < 10 ∨ 10000 ≤ p ∧ ds.panId = p) := by
  have hparse : parsePropResponse lib "Network:PANID" frame.payload = .ok (.u16 p) := by
    rw [hframe]
    obtain ⟨r, hat, e⟩ := parsePropResponse_payload lib "Network:PANID" h (leBytes 2 p.toNat)
    have hat' : r.At (leBytes 2 p.toNat ++ []) := by simpa using hat
    rw [e]
    exact readValue_of_ok (PackReader.readUint16_append hat').1
  obtain ⟨v, hv, hsize, hpan⟩ := panIdFromStr_decimal p.toNat
  have hquery : queryAndUpdateDaemonState lib sendPropGet "Network:PANID" ds =
      .ok (updateDaemonState lib "Network:PANID" (.u16 p) ds) := by
    unfold queryAndUpdateDaemonState
    rw [hl]
    dsimp only
    rw [hsend]
    dsimp only
    rw [hparse]
    rfl
  have hupdate : updateDaemonState lib "Network:PANID" (.u16 p) ds =
      ifOk (panIdFromStr (toString (p.toNat : Int))) ds fun pan => { ds with panId := pan } := rfl
  rw [hupdate] at hquery
  refine ⟨_, hquery, ?_⟩
  have hlt : p < 10 ↔ p.toNat < 10 := UInt16.lt_iff_toNat_lt
  have hle : 10000 ≤ p ↔ 10000 ≤ p.toNat := UInt16.le_iff_toNat_le
  rw [hpan, hlt, hle]
  by_cases hp : p.toNat < 10000
  · rw [if_pos hp, ← UInt16.toNat_inj]
    dsimp only [ifOk]
    rw [UInt16.toNat_ofNat_of_lt' (hsize hp)]
    omega
  · rw [if_neg hp]
    dsimp only [ifOk]
    rw [← UInt16.toNat_inj]
    omega

end Keys

/-! ## 5. The extended PAN id -/

theorem xpanidPairs_cons {hi lo : Char} (h : xpanidPairs (hi :: lo :: cs) = .ok bytes) :
    ∃ byte rest, fromStrRadix 16 256 [hi, lo] = some byte ∧ xpanidPairs cs = .ok rest ∧
      bytes = UInt8.ofNat byte :: rest := by
  rw [xpanidPairs] at h
  cases hbyte : fromStrRadix 16 256 [hi, lo] with
  | none =>
    rw [hbyte] at h
    cases h
  | some byte =>
    rw [hbyte] at h
    obtain ⟨rest, hrest, h⟩ := bind_eq_ok h
    exact ⟨byte, rest, rfl, hrest, (Except.ok.inj h).symm⟩

/-- **Induction along `parse_xpanid`.** -/
theorem xpanidPairs_induction {P : List Char → List UInt8 → Prop} (nil : P [] [])
    (pair : ∀ hi lo cs byte bytes, fromStrRadix 16 256 [hi, lo] = some byte → P cs bytes →
      P (hi :: lo :: cs) (UInt8.ofNat byte :: bytes)) :
    ∀ {cs : List Char} {bytes : List UInt8}, xpanidPairs cs = .ok bytes → P cs bytes
  | [], _, h => by
      cases h
      exact nil
  | [_], _, h => by cases h
  | hi :: lo :: cs, _, h => by
      obtain ⟨byte, rest, hbyte, hrest, rfl⟩ := xpanidPairs_cons h
      exact pair hi lo cs byte rest hbyte (xpanidPairs_induction nil pair hrest)

theorem length_of_xpanidPairs (h : xpanidPairs cs = .ok bytes) : cs.length = 2 * bytes.length := by
  refine xpanidPairs_induction (P := fun cs bytes => cs.length = 2 * bytes.length) rfl
    (fun hi lo cs byte bytes _ ih => ?_) h
  rw [length_cons, length_cons, length_cons]
  omega

theorem readDigits_of_xpanidPairs (h : xpanidPairs cs = .ok bytes) :
    ∀ acc n, readDigits 16 acc cs = some n → n = acc * 256 ^ bytes.length + leValue bytes.reverse := by
  refine xpanidPairs_induction (P := fun cs bytes => ∀ acc n, readDigits 16 acc cs = some n →
    n = acc * 256 ^ bytes.length + leValue bytes.reverse) (fun acc n hn => ?_)
    (fun hi lo cs byte bytes hbyte ih acc n hn => ?_) h
  · cases hn
    simp [leValue]
  · obtain ⟨dh, hdh, hn⟩ := bind_eq_some_iff.mp hn
    obtain ⟨dl, hdl, hn⟩ := bind_eq_some_iff.mp hn
    obtain ⟨digits, -, hpair, hread, hlt⟩ := fromStrRadix_eq_some.mp hbyte
    rcases hpair with e | ⟨-, rfl⟩
    · -- a sign is no digit
      rw [(cons.inj e).1] at hdh
      cases hdh
    · simp only [readDigits, hdh, hdl, bind_some, some.injEq] at hread
      rw [ih _ n hn, length_cons, reverse_cons, leValue_append, length_reverse, leValue,
        leValue, UInt8.toNat_ofNat_of_lt' hlt, ← hread]
      ring

theorem textNumber_of_xpanidPairs
    (h : xpanidPairs cs = .ok bytes) (hn : fromStrRadix 16 (2 ^ 64) cs = some n) :
    n = leValue bytes.reverse := by
  obtain ⟨digits, hne, hcs, hread, -⟩ := fromStrRadix_eq_some.mp hn
  rcases hcs with rfl | ⟨-, rfl⟩
  · cases digits with
    | nil => exact absurd rfl hne
    | cons lo cs =>
      obtain ⟨byte, rest, hbyte, hrest, rfl⟩ := xpanidPairs_cons h
      obtain ⟨d, hd, hread⟩ := bind_eq_some_iff.mp hread
      obtain ⟨digits, -, hpair, hbyte', hlt⟩ := fromStrRadix_eq_some.mp hbyte
      rcases hpair with e | ⟨hhead, -⟩
      · rw [← (cons.inj e).2] at hbyte'
        simp only [readDigits, hd, bind_some, some.injEq] at hbyte'
        rw [readDigits_of_xpanidPairs hrest _ n hread, reverse_cons, leValue_append,
          length_reverse, leValue, leValue, UInt8.toNat_ofNat_of_lt' hlt, ← hbyte']
        ring
      · exact absurd rfl hhead
  · rw [readDigits_of_xpanidPairs h 0 n hread, zero_mul, zero_add]

theorem hexBytes_of_xpanidPairs (h : xpanidPairs cs = .ok bytes) :
    (∀ c ∈ cs, IsHex c) → hexBytes bytes = cs := by
  refine xpanidPairs_induction (P := fun cs bytes => (∀ c ∈ cs, IsHex c) → hexBytes bytes = cs)
    (fun _ => rfl) (fun hi lo cs byte bytes hbyte ih hcs => ?_) h
  obtain ⟨a, ha, rfl⟩ := hcs hi (by simp)
  obtain ⟨b, hb, rfl⟩ := hcs lo (by simp)
  have hne : hexChar a ≠ '+' := (hexChar_spec a ha).2.2.2.2.1
  obtain ⟨digits, -, hpair, hread, hlt⟩ := fromStrRadix_eq_some.mp hbyte
  rcases hpair with e | ⟨-, rfl⟩
  · exact absurd (cons.inj e).1 hne
  · simp only [readDigits, (hexChar_spec a ha).1, (hexChar_spec b hb).1, bind_some, some.injEq] at hread
    have hdigits : hexFixed 2 byte = [hexChar a, hexChar b] := by
      have hhigh : byte / 16 % 16 = a := by omega
      have hlow : byte % 16 = b := by omega
      simp [hexFixed, hhigh, hlow]
    rw [hexBytes_cons, UInt8.toNat_ofNat_of_lt' hlt, hdigits, ih fun c hc => hcs c (by simp [hc])]
    rfl

theorem xpanidU64_eq (h : bytes.length ≤ 8) : xpanidU64 bytes = leValue bytes := by
  rw [xpanidU64, take_of_length_le h, leValue_append, leValue_zeros, mul_zero, add_zero]

theorem xpanidU64_lt (bytes : List UInt8) : xpanidU64 bytes < 16 ^ 16 := by
  have hlen : (bytes.take 8 ++ replicate (8 - min bytes.length 8) 0).length = 8 := by
    rw [length_append, length_take, length_replicate]
    omega
  have hlt := leValue_lt (bytes.take 8 ++ replicate (8 - min bytes.length 8) 0)
  rw [hlen] at hlt
  exact hlt.trans_eq (by norm_num)

theorem parseXpanid_eq_ok (h : parseXpanid s = .ok bytes) :
    xpanidPairs (xpanidDigits s) = .ok bytes ∧ bytes.length ≤ 8 := by
  unfold parseXpanid at h
  split at h
  · cases h
  · refine ⟨h, ?_⟩
    have hlen := length_of_xpanidPairs h
    have hle := length_le_utf8ByteSize (xpanidDigits s)
    omega

section Keys

variable {ω : Type} (lib : Externals ω) {value : Variant ω} {ds ds' : DaemonState}

theorem returns_xpanId : Returns lib "Network:XPANID" ds value ↔
      numericValue value = some (xpanidU64 ds.xpanId : Int) := by
  refine returns_iff (v := .str (String.ofList (hexFixed 16 (xpanidU64 ds.xpanId)))) lib rfl ?_
  rw [numericValue, textNumber_hexFixed (by decide) le_rfl (xpanidU64_lt _)]
  rfl

theorem setPropertyLocked_xpanId (h : setPropertyLocked lib "Network:XPANID" value ds = .ok ds') :
    ∃ text bytes, stringFrom lib value = .ok text ∧ parseXpanid text = .ok bytes ∧
      ds' = { ds with xpanId := bytes } := by
  obtain ⟨text, htext, h⟩ := bind_eq_ok h
  obtain ⟨bytes, hbytes, h⟩ := bind_eq_ok h
  exact ⟨text, bytes, htext, hbytes, (Except.ok.inj h).symm⟩

variable {bytes : List UInt8}

theorem xpanId_text_iff {s : String} (h : parseXpanid s = .ok bytes) :
    (textNumber s).map Int.ofNat = some (leValue bytes : Int) ↔ ∃ n, textNumber s = some n ∧
        (leBytes ((xpanidDigits s).length / 2) n).reverse = leBytes ((xpanidDigits s).length / 2) n := by
  obtain ⟨hpairs, -⟩ := parseXpanid_eq_ok h
  have hlen : (xpanidDigits s).length / 2 = bytes.length := by
    have := length_of_xpanidPairs hpairs
    omega
  rw [hlen]
  cases hn : textNumber s with
  | none => simp
  | some n =>
    have hvalue : n = leValue bytes.reverse := textNumber_of_xpanidPairs hpairs hn
    have hbytes : leBytes bytes.length n = bytes.reverse := by
      have := leBytes_leValue bytes.reverse
      rwa [length_reverse, ← hvalue] at this
    constructor
    · intro e
      have he : n = leValue bytes := Int.ofNat_inj.mp (some.inj e)
      have hrev : bytes.reverse = bytes := eq_of_leValue_eq length_reverse (hvalue.symm.trans he)
      exact ⟨n, rfl, by rw [hbytes, hrev, hrev]⟩
    · intro e
      obtain ⟨m, hm, hrev⟩ := e
      cases hm
      rw [hbytes, reverse_reverse] at hrev
      rw [hvalue, ← hrev]
      rfl

theorem xpanId_decimal_iff {n : Nat} (h : parseXpanid (toString (n : Int)) = .ok bytes) :
    n = leValue bytes ↔ ∃ k, Nat.toDigits 10 n = hexBytes (leBytes k n) := by
  obtain ⟨hpairs, -⟩ := parseXpanid_eq_ok h
  rw [toString_eq_decimal, xpanidDigits_eq_self (isHex_decimal n)] at hpairs
  have hdigits : hexBytes bytes = Nat.toDigits 10 n := hexBytes_of_xpanidPairs hpairs (isHex_decimal n)
  constructor
  · intro e
    refine ⟨bytes.length, ?_⟩
    rw [e, leBytes_leValue, ← e, hdigits]
  · intro e
    obtain ⟨k, hk⟩ := e
    have hbytes : bytes = leBytes k n := hexBytes_injective (hdigits.trans hk)
    -- the digits read as hexadecimal are no less than the number, and they fit the bytes
    obtain ⟨v, hv, hle, -⟩ := readDigits_decimal n
    have hvalue := readDigits_of_xpanidPairs hpairs 0 v hv
    have hlt := leValue_lt bytes.reverse
    rw [zero_mul, zero_add] at hvalue
    rw [← hvalue, length_reverse, hbytes, length_leBytes] at hlt
    rw [hbytes, leValue_leBytes, Nat.mod_eq_of_lt (hle.trans_lt hlt)]

example : Nat.toDigits 10 545108 = hexBytes (leBytes 3 545108) := by decide

theorem parseXpanid_neg {n : Int} (hn : n < 0) (bytes : List UInt8) :
    parseXpanid (toString n) ≠ .ok bytes := by
  intro h
  obtain ⟨c, cs, htext, hcs⟩ := stripHexPrefix_neg hn
  obtain ⟨hpairs, -⟩ := parseXpanid_eq_ok h
  have hc : c ≠ ':' := (isHex_spec (hcs c mem_cons_self)).2.2.2.2
  rw [xpanidDigits, htext, filter_cons_of_pos (by decide), filter_cons_of_pos (by simpa using hc)] at hpairs
  cases hpairs

/-- **An extended PAN id comes back** if its bytes read the same both ways, or its decimal digits are those of
    its bytes. -/
theorem xpanId_returned_iff (h : setPropertyLocked lib "Network:XPANID" value ds = .ok ds') :
    Returns lib "Network:XPANID" ds' value ↔ NumericKey.xpanId.Keeps value := by
  obtain ⟨text, bytes, htext, hparse, rfl⟩ := setPropertyLocked_xpanId lib h
  rw [returns_xpanId, xpanidU64_eq (parseXpanid_eq_ok hparse).2]
  rcases stringFrom_cases lib htext with rfl | ⟨hstr, n, hn, rfl⟩
  · rw [numericValue, xpanId_text_iff hparse]
    constructor
    · intro e
      obtain ⟨n, hn, hrev⟩ := e
      exact .inl ⟨text, n, rfl, hn, hrev⟩
    · intro hkeeps
      rcases hkeeps with ⟨s, n, e, hn, hrev⟩ | ⟨hno, -⟩
      · cases e
        exact ⟨n, hn, hrev⟩
      · exact absurd rfl (hno text)
  · rcases lt_or_ge n 0 with hneg | hpos
    · exact absurd hparse (parseXpanid_neg hneg bytes)
    · obtain ⟨m, rfl⟩ := Int.eq_ofNat_of_zero_le hpos
      rw [hn, some.injEq, Int.ofNat_inj, xpanId_decimal_iff hparse]
      constructor
      · intro e
        exact .inr ⟨hstr, m, hn, e⟩
      · intro hkeeps
        rcases hkeeps with ⟨s, n, e, -⟩ | ⟨-, m', hm', e⟩
        · exact absurd e (hstr s)
        · rw [hn, some.injEq, Int.ofNat_inj] at hm'
          rw [hm']
          exact e

/-! ## 6. The threshold, and all of them -/

theorem bmod_byte_iff (n : Int) : n.bmod (2 ^ 8) = n ↔ -128 ≤ n ∧ n ≤ 127 := by
  rw [Int.bmod_def]
  omega

theorem i8From_eq_ok {b : Int8} (h : i8From lib value = .ok b) :
    ∃ n, numericValue value = some n ∧ b.toInt = n.bmod (2 ^ 8) := by
  cases value with
  | i16 n =>
    cases h
    exact ⟨n.toInt, rfl, Int16.toInt_toInt8 n⟩
  | i32 n =>
    cases h
    exact ⟨n.toInt, rfl, Int32.toInt_toInt8 n⟩
  | i64 n =>
    cases h
    exact ⟨n.toInt, rfl, Int64.toInt_toInt8 n⟩
  | u8 n =>
    cases h
    exact ⟨n.toNat, rfl, BitVec.toInt_eq_toNat_bmod n.toBitVec⟩
  | _ => cases h

/-- **A threshold comes back** if it fits a byte. -/
theorem ccaThreshold_returned_iff (h : setPropertyLocked lib "NCP:CCAThreshold" value ds = .ok ds') :
    Returns lib "NCP:CCAThreshold" ds' value ↔ NumericKey.ccaThreshold.Keeps value := by
  obtain ⟨b, hb, h⟩ := bind_eq_ok h
  cases h
  obtain ⟨n, hn, hbmod⟩ := i8From_eq_ok lib hb
  have hnumber : numericValue (.i16 b.toInt16 : Variant ω) = some b.toInt :=
    congrArg some (Int8.toInt_toInt16 b)
  rw [returns_iff (v := .i16 b.toInt16) lib rfl hnumber, hn, hbmod, some.injEq, eq_comm, bmod_byte_iff]
  constructor
  · intro hrange
    exact ⟨n, hn, hrange⟩
  · intro hkeeps
    obtain ⟨m, hm, hrange⟩ := hkeeps
    rw [hn] at hm
    cases hm
    exact hrange

/-- **Which numbers come back**: of the values that are set, those that `Keeps` says; of the reported PAN ids,
    those below ten and those of five digits that the state had. -/
theorem network_ids_iff : (∀ (key : NumericKey) (value : Variant ω) (ds ds' : DaemonState),
      setPropertyLocked lib key.name value ds = .ok ds' →
        (Returns lib key.name ds' value ↔ key.Keeps value)) ∧
    ∀ (sendPropGet : UInt32 → Except DaemonError SpinelFrame) (h : PropHandler) (frame : SpinelFrame)
      (p : UInt16) (ds : DaemonState), lookup "Network:PANID" = some h →
      sendPropGet h.propId = .ok frame → frame.payload = h.payload (leBytes 2 p.toNat) →
      ∃ ds', queryAndUpdateDaemonState lib sendPropGet "Network:PANID" ds = .ok ds' ∧
        (ds'.panId = p ↔ p < 10 ∨ 10000 ≤ p ∧ ds.panId = p) := by
  refine ⟨fun key value ds ds' h => ?_, fun sendPropGet h frame p ds hl hsend hframe =>
    queried_panId_iff lib hl hsend hframe⟩
  cases key with
  | panId => exact panId_returned_iff lib h
  | xpanId => exact xpanId_returned_iff lib h
  | ccaThreshold => exact ccaThreshold_returned_iff lib h

end Keys

/-- The PAN id `0xABCD` as a text comes back, and so does 7 from the NCP. -/
theorem network_ids_come_back :
    Returns noExternals "Network:PANID" { DaemonState.default with panId := 0xABCD } (.str "0xABCD") ∧
    ∃ ds', queryAndUpdateDaemonState noExternals
      (fun _ => .ok ⟨0x81, cmdPropValueIs, [0x36, 7, 0]⟩) "Network:PANID" DaemonState.default = .ok ds' ∧
        ds'.panId = 7 := by
  refine ⟨((network_ids_iff noExternals).1 .panId (.str "0xABCD") DaemonState.default _ rfl).mpr
    (.inl ⟨_, rfl⟩), ?_⟩
  obtain ⟨ds', hds', hiff⟩ := (network_ids_iff noExternals).2
    (fun _ => .ok ⟨0x81, cmdPropValueIs, [0x36, 7, 0]⟩) { propId := 0x36, access := .readWrite } _ 7
    DaemonState.default rfl rfl rfl
  exact ⟨ds', hds', hiff.mpr (.inl (by decide))⟩

/-- 4660 comes back as `0x4660`, `00AB` as `AB00`, 200 as -56; and 4660 of the NCP is stored as `0x4660`. -/
theorem network_ids_differ :
    (setPropertyLocked noExternals "Network:PANID" (.u16 4660) DaemonState.default).bind
        (getPropertyLocked noExternals "Network:PANID") = .ok (.str "0x4660") ∧
      (setPropertyLocked noExternals "Network:XPANID" (.str "00AB") DaemonState.default).bind
        (getPropertyLocked noExternals "Network:XPANID") = .ok (.str "000000000000AB00") ∧
      (setPropertyLocked noExternals "NCP:CCAThreshold" (.i16 200) DaemonState.default).bind
        (getPropertyLocked noExternals "NCP:CCAThreshold") = .ok (.i16 (-56)) ∧
      (queryAndUpdateDaemonState noExternals
        (fun _ => .ok ⟨0x81, cmdPropValueIs, [0x36, 0x34, 0x12]⟩) "Network:PANID"
        DaemonState.default).map (·.panId) = .ok 0x4660 ∧
      numericValue (.str "0x4660" : Variant Empty) = some 18016 ∧
      numericValue (.str "00AB" : Variant Empty) = some 0xAB ∧
      numericValue (.str "000000000000AB00" : Variant Empty) = some 0xAB00 := by
  decide +kernel

end DcuDaemon.Instance
