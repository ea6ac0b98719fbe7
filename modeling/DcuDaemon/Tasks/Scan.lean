/-
  The beacons of a scan (`crates/dcu-tunnel-daemon/src/tasks/scan.rs`: `from_beacon`, against
  `src/ncp-spinel/SpinelNCPTaskScan.cpp`).

  A beacon is packed as "Cct(ESSC)t(iCUd)". Each of the two structs stands behind its length. The C++
  task unpacks them so; `from_beacon` reads the fields one after the other and takes the two lengths for
  data, so that from the MAC address on every field is read two bytes too early, and behind the first
  struct four.

  Main result: `fromBeacon_iff`.
-/
import DcuDaemon.Lib.Words
import DcuDaemon.Spinel.Datatype
import DcuDaemon.Spinel.Frame

namespace DcuDaemon.Tasks

open Lib Spinel Spinel.Datatype List Option PackReader

/-! ## 1. `from_beacon` -/

structure ScanResult where
  channel : UInt8
  rssi : Int8
  laddr : { octets : List UInt8 // octets.length = 8 }
  saddr : UInt16
  panid : UInt16
  lqi : UInt8
  proto : UInt32
  flags : UInt8
  networkName : String
  xpanid : List UInt8
  deriving DecidableEq

/-- `read().ok()?`. -/
def tryOk {α β : Type} (read : Except SpinelError α × PackReader) (next : α → PackReader → Option β) :
    Option β :=
  match read with
  | (.error _, _) => none
  | (.ok v, r) => next v r

/-- `read().unwrap_or(default)`. -/
def unwrapOr {α : Type} (read : Except SpinelError α × PackReader) (default : α) : α × PackReader :=
  (read.1.toOption.getD default, read.2)

/-- The last two fields; one that cannot be read is empty. -/
def nameAndXpanid (reader : PackReader) : String × List UInt8 :=
  let (name, reader) := reader.readUtf8
  let (xpanid, _) := reader.readDataWithLen
  (name.toOption.getD "", xpanid.toOption.getD [])

/-- The fields that the comment of the source names (iCUd). -/
def netFields (reader : PackReader) : Option (UInt32 × UInt8 × String × List UInt8) :=
  tryOk reader.readUintPacked fun proto reader =>
    tryOk reader.readUint8 fun flags reader => some (proto, flags, nameAndXpanid reader)

/-- `from_beacon`, on the payload of the frame. -/
def fromBeacon (payload : List UInt8) : Option ScanResult :=
  tryOk (PackReader.new payload).readUintPacked fun _ reader =>
    tryOk reader.readUint8 fun channel reader =>
      tryOk reader.readInt8 fun rssi reader =>
        tryOk reader.readEui64 fun laddr reader =>
          tryOk reader.readUint16 fun saddr reader =>
            tryOk reader.readUint16 fun panid reader =>
              tryOk reader.readUint8 fun lqi reader =>
                (netFields reader).map fun (proto, flags, networkName, xpanid) =>
                  ⟨channel, rssi, laddr, saddr, panid, lqi, proto, flags, networkName, xpanid⟩

/-! ## 2. The layout -/

namespace ScanResult

/-- "(ESSC)". -/
def linkStruct (b : ScanResult) : List UInt8 :=
  b.laddr.val ++ (leBytes 2 b.saddr.toNat ++ (leBytes 2 b.panid.toNat ++ [b.lqi]))

/-- "(iCUd)". -/
def netStruct (b : ScanResult) : List UInt8 :=
  PackWriter.uintPackedBytes b.proto ++ (b.flags :: (asBytes b.networkName ++ 0 :: structEntry b.xpanid))

/-- "Cct(ESSC)t(iCUd)". -/
def beaconValue (b : ScanResult) : List UInt8 :=
  b.channel :: b.rssi.toUInt8 :: (structEntry b.linkStruct ++ structEntry b.netStruct)

/-- The payload of `PROP_VALUE_IS(MAC_SCAN_BEACON)`. -/
def beaconPayload (b : ScanResult) : List UInt8 :=
  PackWriter.uintPackedBytes propMacScanBeacon ++ b.beaconValue

end ScanResult

open ScanResult

/-! ## 3. The fields up to the LQI -/

theorem tryOk_ok {α β : Type} {read : Except SpinelError α × PackReader} {v : α} {r : PackReader}
    (h : read = (.ok v, r)) (next : α → PackReader → Option β) : tryOk read next = next v r := by
  rw [h]
  rfl

theorem fromBeacon_fields (channel : UInt8) (rssi : Int8)
    (laddr : { octets : List UInt8 // octets.length = 8 }) (saddr panid : UInt16) (lqi : UInt8)
    (net : List UInt8) :
    ∃ reader : PackReader, reader.At net ∧
      fromBeacon (PackWriter.uintPackedBytes propMacScanBeacon ++ (channel :: rssi.toUInt8 ::
          (laddr.val ++ (leBytes 2 saddr.toNat ++ (leBytes 2 panid.toNat ++ lqi :: net))))) =
        (netFields reader).map fun x => ⟨channel, rssi, laddr, saddr, panid, lqi, x.1, x.2.1, x.2.2.1, x.2.2.2⟩ := by
  obtain ⟨hkey, hat⟩ := readUintPacked_append (by decide) (at_new
    (PackWriter.uintPackedBytes propMacScanBeacon ++ (channel :: rssi.toUInt8 ::
      (laddr.val ++ (leBytes 2 saddr.toNat ++ (leBytes 2 panid.toNat ++ lqi :: net))))))
  obtain ⟨hchannel, hat⟩ := readUint8_cons hat
  obtain ⟨hrssi, hat⟩ := readInt8_cons hat
  obtain ⟨hladdr, hat⟩ := readOctets_append laddr hat
  obtain ⟨hsaddr, hat⟩ := readUint16_append hat
  obtain ⟨hpanid, hat⟩ := readUint16_append hat
  obtain ⟨hlqi, hat⟩ := readUint8_cons hat
  refine ⟨_, hat, ?_⟩
  rw [fromBeacon, tryOk_ok hkey, tryOk_ok hchannel, tryOk_ok hrssi, readEui64,
    tryOk_ok hladdr, tryOk_ok hsaddr, tryOk_ok hpanid, tryOk_ok hlqi]
  rfl

/-! ## 4. The network name and the extended PAN id -/

/-- Data behind a length; if they are cut off they are empty. -/
def dataOrEmpty (bytes : List UInt8) : List UInt8 := ((unpackDataWlen bytes).map Prod.fst).getD []

theorem dataOrEmpty_cons (lo hi : UInt8) (data : List UInt8) :
    dataOrEmpty (lo :: hi :: data) =
      if data.length < lo.toNat + 256 * hi.toNat then [] else data.take (lo.toNat + 256 * hi.toNat) := by
  have hvalue : (UInt16.ofNat (leValue [lo, hi])).toNat = lo.toNat + 256 * hi.toNat := by
    have hlo := lo.toNat_lt
    have hhi := hi.toNat_lt
    simp only [leValue, UInt16.toNat_ofNat']
    omega
  have hunpack : unpackDataWlen (lo :: hi :: data) =
      unpackBytes (UInt16.ofNat (leValue [lo, hi])).toNat data := rfl
  rw [dataOrEmpty, hunpack, hvalue, unpackBytes]
  split
  · rfl
  · rfl

theorem dataOrEmpty_cases {lo hi : UInt8} {data xpanid : List UInt8}
    (h : dataOrEmpty (lo :: hi :: data) = xpanid) :
    xpanid = [] ∨ (xpanid = data.take (lo.toNat + 256 * hi.toNat) ∧
      xpanid.length = lo.toNat + 256 * hi.toNat) := by
  rw [dataOrEmpty_cons] at h
  split at h
  · exact .inl h.symm
  · rename_i hlen
    rw [← h]
    exact .inr ⟨rfl, length_take_of_le (Nat.le_of_not_lt hlen)⟩

/-- **The two fields**: the bytes before the next zero are a text, or the name is empty and the data
    begin with the zero. -/
theorem nameAndXpanid_text {reader : PackReader} {text post : List UInt8} (h0 : 0 ∉ text)
    (h : reader.At (text ++ 0 :: post)) :
    (∃ name, asBytes name = text ∧ nameAndXpanid reader = (name, dataOrEmpty post)) ∨
      (String.fromUTF8? ⟨text.toArray⟩ = none ∧ nameAndXpanid reader = ("", dataOrEmpty (0 :: post))) := by
  have htext : reader.rest.takeWhile (· ≠ 0) = text := by
    rw [h.2, takeWhile_append_of_pos (ne_nul h0)]
    simp
  have hlen : ¬ reader.offset + text.length ≥ reader.data.length := by
    have hrem := h.remaining
    rw [remaining, length_append, length_cons] at hrem
    omega
  rw [nameAndXpanid, readUtf8, htext, if_neg hlen]
  cases hdecode : String.fromUTF8? ⟨text.toArray⟩ with
  | none =>
    right
    have hdata := (reads_dataWithLen h.skip).toOption
    exact ⟨rfl, congrArg (fun o => ("", getD o [])) hdata⟩
  | some name =>
    left
    have hat : reader.At ((text ++ [0]) ++ post) := by
      rwa [append_assoc]
    have hdata := (reads_dataWithLen hat.skip).toOption
    rw [length_append] at hdata
    refine ⟨name, ?_, congrArg (fun o => (name, getD o [])) hdata⟩
    unfold String.fromUTF8? at hdecode
    split at hdecode
    · cases hdecode
      rfl
    · cases hdecode

section Misread

/-- Where the name is looked for: the length of the second struct, the protocol 0, the flags 13, and then the
    name. -/
def misread (name xpanid : List UInt8) (lo hi : UInt8) : List UInt8 :=
  lo :: hi :: 0 :: 13 :: (name ++ 0 :: structEntry xpanid)

variable {reader : PackReader} {name : String} {xpanid : List UInt8} {lo hi : UInt8}

theorem not_fromUTF8?_none (s : String) : String.fromUTF8? ⟨(asBytes s).toArray⟩ ≠ none := by
  rw [fromUTF8?_asBytes]
  exact some_ne_none s

theorem nameAndXpanid_asBytes {text : String} {rest : List UInt8} (h0 : 0 ∉ asBytes text)
    (h : reader.At (asBytes text ++ 0 :: rest)) : nameAndXpanid reader = (text, dataOrEmpty rest) := by
  obtain ⟨found, hfound, hread⟩ | ⟨hnone, -⟩ := nameAndXpanid_text h0 h
  · rw [hread, asBytes_injective hfound]
  · exact (not_fromUTF8?_none text hnone).elim

/-- A length with a zero in front: an empty name, and too few bytes for the extended PAN id. -/
theorem misread_zero (hlen : 256 * hi.toNat = 5 + (asBytes name).length + xpanid.length)
    (h : reader.At (misread (asBytes name) xpanid 0 hi)) : nameAndXpanid reader ≠ (name, xpanid) := by
  intro heq
  have hat : reader.At (asBytes "" ++ 0 :: (hi :: 0 :: 13 :: (asBytes name ++ 0 :: structEntry xpanid))) := h
  rw [nameAndXpanid_asBytes not_mem_nil hat] at heq
  obtain ⟨rfl, hx⟩ := Prod.mk.inj heq
  have hempty : (asBytes "").length = 0 := rfl
  have hzero : (0 : UInt8).toNat = 0 := rfl
  obtain rfl | ⟨-, hlength⟩ := dataOrEmpty_cases hx
  · rw [length_nil] at hlen
    omega
  · omega

theorem misread_one (hlo : lo ≠ 0) (hlen : lo.toNat = 5 + (asBytes name).length + xpanid.length)
    (h : reader.At (misread (asBytes name) xpanid lo 0))
    (heq : nameAndXpanid reader = (name, xpanid)) : name = "\x06" ∧ xpanid = [] := by
  have hat : reader.At ([lo] ++ 0 :: (0 :: 13 :: (asBytes name ++ 0 :: structEntry xpanid))) := h
  have h0 : 0 ∉ [lo] := fun hmem => hlo (mem_singleton.mp hmem).symm
  have hlt := lo.toNat_lt
  obtain ⟨text, htext, hread⟩ | ⟨hnone, hread⟩ := nameAndXpanid_text h0 hat
  · rw [hread] at heq
    obtain ⟨rfl, hx⟩ := Prod.mk.inj heq
    rw [htext] at hlen
    -- the protocol and the flags are taken for a length of 3328
    have h13 : (13 : UInt8).toNat = 13 := rfl
    obtain rfl | ⟨-, hlength⟩ := dataOrEmpty_cases hx
    · obtain rfl : lo = 6 := UInt8.toNat_inj.mp hlen
      exact ⟨asBytes_injective (htext.trans (by decide)), rfl⟩
    · omega
  · rw [hread] at heq
    obtain ⟨rfl, hx⟩ := Prod.mk.inj heq
    -- the zero that is still there is taken for a length of 0
    obtain rfl : xpanid = [] := by
      obtain hempty | ⟨-, hlength⟩ := dataOrEmpty_cases hx
      · exact hempty
      · exact eq_nil_of_length_eq_zero hlength
    obtain rfl : lo = 5 := UInt8.toNat_inj.mp hlen
    exact (not_fromUTF8?_none "\x05" hnone).elim

theorem misread_two (hlo : lo ≠ 0) (hhi : hi ≠ 0)
    (hlen : lo.toNat + 256 * hi.toNat = 5 + (asBytes name).length + xpanid.length)
    (h : reader.At (misread (asBytes name) xpanid lo hi))
    (heq : nameAndXpanid reader = (name, xpanid)) :
    name = "\x14\x14" ∧ xpanid = repeated [0x14, 0, 0x0D, 0x14] 5133 := by
  have hat : reader.At ([lo, hi] ++ 0 :: (13 :: (asBytes name ++ 0 :: structEntry xpanid))) := h
  have h0 : 0 ∉ [lo, hi] := by simp [hlo.symm, hhi.symm]
  have hlt := lo.toNat_lt
  have hpos : 0 < hi.toNat := Nat.pos_of_ne_zero fun e => hhi (UInt8.toNat_inj.mp e)
  have h13 : (13 : UInt8).toNat = 13 := rfl
  obtain ⟨text, htext, hread⟩ | ⟨hnone, hread⟩ := nameAndXpanid_text h0 hat
  · rw [hread] at heq
    obtain ⟨rfl, hx⟩ := Prod.mk.inj heq
    rw [htext] at hlen hx
    rw [length_cons, length_singleton] at hlen
    -- the flags and the first byte of the name are taken for the length
    obtain rfl | ⟨hx, hlength⟩ := dataOrEmpty_cases hx
    · rw [length_nil] at hlen
      omega
    · obtain ⟨rfl, rfl⟩ : lo = 0x14 ∧ hi = 0x14 := by
        constructor
        · exact UInt8.toNat_inj.mp (show lo.toNat = 20 by omega)
        · exact UInt8.toNat_inj.mp (show hi.toNat = 20 by omega)
      have hbytes : leBytes 2 xpanid.length = [0x0D, 0x14] := by
        rw [hlength]
        decide
      rw [structEntry, hbytes] at hx
      exact ⟨asBytes_injective (htext.trans (by decide)), (eq_repeated_iff (by simp)).mpr hx⟩
  · rw [hread] at heq
    obtain ⟨rfl, hx⟩ := Prod.mk.inj heq
    have hzero : (0 : UInt8).toNat = 0 := rfl
    have hempty : (asBytes "").length = 0 := rfl
    rw [hempty] at hlen
    obtain rfl | ⟨-, hlength⟩ := dataOrEmpty_cases hx
    · rw [length_nil] at hlen
      omega
    · obtain ⟨rfl, rfl⟩ : lo = 0x05 ∧ hi = 0x0D := by
        constructor
        · exact UInt8.toNat_inj.mp (show lo.toNat = 5 by omega)
        · exact UInt8.toNat_inj.mp (show hi.toNat = 13 by omega)
      exact (not_fromUTF8?_none "\x05\x0D" hnone).elim

theorem nameAndXpanid_six (hlen : lo.toNat + 256 * hi.toNat = 5 + (asBytes "\x06").length + 0)
    (h : reader.At (misread (asBytes "\x06") [] lo hi)) : nameAndXpanid reader = ("\x06", []) := by
  have hname : asBytes "\x06" = [0x06] := by decide
  rw [hname, length_singleton] at hlen
  obtain rfl : lo = 0x06 := UInt8.toNat_inj.mp (show lo.toNat = 6 by omega)
  obtain rfl : hi = 0 := UInt8.toNat_inj.mp (show hi.toNat = 0 by omega)
  rw [hname] at h
  exact nameAndXpanid_asBytes (by decide) (show
    reader.At (asBytes "\x06" ++ 0 :: (0 :: 13 :: ([0x06] ++ 0 :: structEntry []))) from h)

theorem nameAndXpanid_repeated (hlen : lo.toNat + 256 * hi.toNat =
      5 + (asBytes "\x14\x14").length + (repeated [0x14, 0, 0x0D, 0x14] 5133 : List UInt8).length)
    (h : reader.At (misread (asBytes "\x14\x14") (repeated [0x14, 0, 0x0D, 0x14] 5133) lo hi)) :
    nameAndXpanid reader = ("\x14\x14", repeated [0x14, 0, 0x0D, 0x14] 5133) := by
  have hname : asBytes "\x14\x14" = [0x14, 0x14] := by decide
  have hu : ([0x14, 0, 0x0D, 0x14] : List UInt8) ≠ [] := by simp
  have hlt := lo.toNat_lt
  rw [hname, length_repeated hu, length_cons, length_singleton] at hlen
  obtain rfl : lo = 0x14 := UInt8.toNat_inj.mp (show lo.toNat = 20 by omega)
  obtain rfl : hi = 0x14 := UInt8.toNat_inj.mp (show hi.toNat = 20 by omega)
  have hdata : dataOrEmpty (13 :: 0x14 :: 0x14 :: 0 ::
      structEntry (repeated [0x14, 0, 0x0D, 0x14] 5133)) = repeated [0x14, 0, 0x0D, 0x14] 5133 := by
    rw [dataOrEmpty_cons, structEntry, length_repeated hu, if_neg ?_]
    · exact (repeated_eq_take hu).symm
    · simp [length_repeated]
  rw [hname] at h
  refine (nameAndXpanid_asBytes (by decide) (show
    reader.At (asBytes "\x14\x14" ++ 0 :: (13 :: 0x14 :: 0x14 :: 0 ::
      structEntry (repeated [0x14, 0, 0x0D, 0x14] 5133))) from ?_)).trans (by rw [hdata])
  rw [hname]
  exact h

/-- **The fields that are found where they are not.** -/
theorem nameAndXpanid_iff (hlen : lo.toNat + 256 * hi.toNat = 5 + (asBytes name).length + xpanid.length)
    (h : reader.At (misread (asBytes name) xpanid lo hi)) : nameAndXpanid reader = (name, xpanid) ↔
      (name = "\x06" ∧ xpanid = []) ∨
        (name = "\x14\x14" ∧ xpanid = repeated [0x14, 0, 0x0D, 0x14] 5133) := by
  constructor
  · intro heq
    by_cases hlo : lo = 0
    · subst hlo
      exact (misread_zero (by simpa using hlen) h heq).elim
    · by_cases hhi : hi = 0
      · subst hhi
        exact .inl (misread_one hlo hlen h heq)
      · exact .inr (misread_two hlo hhi hlen h heq)
  · intro hfields
    obtain ⟨rfl, rfl⟩ | ⟨rfl, rfl⟩ := hfields
    · exact nameAndXpanid_six hlen h
    · exact nameAndXpanid_repeated hlen h

end Misread

/-! ## 5. Which beacons are given back -/

/-- What `from_beacon` finds: the addresses two bytes earlier, the short one in place of the PAN id, and the
    rest behind its first byte. -/
theorem fromBeacon_beaconPayload (b : ScanResult) :
    ∃ (laddr : { octets : List UInt8 // octets.length = 8 }) (saddr : UInt16) (p0 p1 : UInt8)
      (reader : PackReader),
      laddr.val ++ leBytes 2 saddr.toNat = 13 :: 0 :: b.laddr.val ∧
        leBytes 2 b.panid.toNat = [p0, p1] ∧
        reader.At (p1 :: b.lqi :: structEntry b.netStruct) ∧
        fromBeacon b.beaconPayload = (netFields reader).map fun x =>
          ⟨b.channel, b.rssi, laddr, saddr, b.saddr, p0, x.1, x.2.1, x.2.2.1, x.2.2.2⟩ := by
  obtain ⟨p0, p1, hpanid⟩ : ∃ p0 p1, leBytes 2 b.panid.toNat = [p0, p1] := ⟨_, _, rfl⟩
  obtain ⟨laddr, saddr, hshift⟩ : ∃ (laddr : { octets : List UInt8 // octets.length = 8 })
      (saddr : UInt16), laddr.val ++ leBytes 2 saddr.toNat = 13 :: 0 :: b.laddr.val := by
    obtain ⟨octets, hoctets⟩ := b.laddr
    match octets, hoctets with
    | [a, b, c, d, e, f, g, h], hoctets =>
      obtain ⟨saddr, hsaddr⟩ := exists_leBytes_two g h
      exact ⟨⟨[13, 0, a, b, c, d, e, f], rfl⟩, saddr, by rw [hsaddr]; rfl⟩
  obtain ⟨reader, hat, hread⟩ := fromBeacon_fields b.channel b.rssi laddr saddr b.saddr p0
    (p1 :: b.lqi :: structEntry b.netStruct)
  refine ⟨laddr, saddr, p0, p1, reader, hshift, hpanid, hat, ?_⟩
  rw [← hread, beaconPayload, beaconValue]
  have hlength : b.linkStruct.length = 13 := by
    simp [linkStruct, b.laddr.property]
  have hlink : structEntry b.linkStruct = 13 :: 0 :: b.linkStruct := by
    rw [structEntry, hlength]
    rfl
  rw [hlink, ← append_assoc laddr.val, hshift, linkStruct, hpanid]
  simp

theorem netFields_zero {reader : PackReader} {q : UInt8} {rest : List UInt8}
    (h : reader.At (0 :: q :: rest)) : ∃ reader' : PackReader, reader'.At rest ∧
      netFields reader = some (0, q, nameAndXpanid reader') := by
  obtain ⟨hproto, hat⟩ := readUintPacked_append (by decide) (show
    reader.At (PackWriter.uintPackedBytes 0 ++ q :: rest) from h)
  obtain ⟨hflags, hat⟩ := readUint8_cons hat
  exact ⟨_, hat, by rw [netFields, tryOk_ok hproto, tryOk_ok hflags]⟩

/-- The contents that are given back, whatever channel and RSSI are. -/
structure ReadsBack (b : ScanResult) : Prop where
  laddr : b.laddr.val = [0x0D, 0, 0x0D, 0, 0x0D, 0, 0x0D, 0]
  saddr : b.saddr = 0x0D
  panid : b.panid = 0x0D
  lqi : b.lqi = 0x0D
  proto : b.proto = 0
  flags : b.flags = 0x0D
  net : (b.networkName = "\x06" ∧ b.xpanid = []) ∨
    (b.networkName = "\x14\x14" ∧ b.xpanid = repeated [0x14, 0, 0x0D, 0x14] 5133)

theorem structEntry_netStruct {b : ScanResult} (hproto : b.proto = 0) (hflags : b.flags = 0x0D)
    (hfit : Fits b.netStruct) : ∃ lo hi : UInt8,
      lo.toNat + 256 * hi.toNat = 5 + (asBytes b.networkName).length + b.xpanid.length ∧
        structEntry b.netStruct = misread (asBytes b.networkName) b.xpanid lo hi := by
  have hnet : b.netStruct = 0 :: 13 :: (asBytes b.networkName ++ 0 :: structEntry b.xpanid) := by
    rw [netStruct, hproto, hflags]
    rfl
  have hlength : b.netStruct.length = 5 + (asBytes b.networkName).length + b.xpanid.length := by
    rw [hnet, structEntry]
    simp
    omega
  have hlt : b.netStruct.length < 65536 := hfit
  refine ⟨UInt8.ofNat b.netStruct.length, UInt8.ofNat (b.netStruct.length / 256), ?_, ?_⟩
  · rw [← hlength, UInt8.toNat_ofNat', UInt8.toNat_ofNat']
    omega
  · exact congrArg (leBytes 2 b.netStruct.length ++ ·) hnet

theorem eq_of_leBytes_two {m n : UInt16} (h : leBytes 2 m.toNat = leBytes 2 n.toNat) : m = n := by
  have hvalue := congrArg leValue h
  have hm := m.toNat_lt
  have hn := n.toNat_lt
  rw [leValue_leBytes, leValue_leBytes] at hvalue
  exact UInt16.toNat_inj.mp (by omega)

theorem laddr_of_shift {octets : List UInt8} (hlen : octets.length = 8) {saddr : UInt16}
    (h : octets ++ leBytes 2 saddr.toNat = 13 :: 0 :: octets) :
    octets = [0x0D, 0, 0x0D, 0, 0x0D, 0, 0x0D, 0] ∧ saddr = 0x0D := by
  match octets, hlen with
  | [a, b, c, d, e, f, g, i], _ =>
    simp only [cons_append, cons.injEq] at h
    obtain ⟨rfl, rfl, rfl, rfl, rfl, rfl, rfl, rfl, hsaddr⟩ := h
    exact ⟨rfl, eq_of_leBytes_two hsaddr⟩

/-- **Which beacons `from_beacon` gives back.** Of all beacons that the layout can hold, exactly
    those with these contents. -/
theorem fromBeacon_iff (b : ScanResult) (hfit : Fits b.netStruct) :
    fromBeacon b.beaconPayload = some b ↔ ReadsBack b := by
  obtain ⟨laddr, saddr, p0, p1, reader, hshift, hpanid, hat, hread⟩ := fromBeacon_beaconPayload b
  have hthirteen : leBytes 2 (0x0D : UInt16).toNat = [0x0D, 0] := by decide
  rw [hread]
  constructor
  · intro h
    obtain ⟨x, hx, hb⟩ := map_eq_some_iff.mp h
    rw [show laddr = b.laddr from congrArg ScanResult.laddr hb] at hshift
    obtain ⟨hladdr, hsaddr⟩ := laddr_of_shift b.laddr.property hshift
    rw [show saddr = b.saddr from congrArg ScanResult.saddr hb] at hsaddr
    have hpan : b.panid = 0x0D := (congrArg ScanResult.panid hb).symm.trans hsaddr
    rw [hpan, hthirteen] at hpanid
    obtain ⟨rfl, rfl⟩ : 0x0D = p0 ∧ 0 = p1 := by simpa using hpanid
    have hlqi : 0x0D = b.lqi := congrArg ScanResult.lqi hb
    -- the LQI stands where the flags are looked for, a zero where the protocol is
    obtain ⟨reader', hat', hfields⟩ := netFields_zero hat
    rw [hx] at hfields
    cases hfields
    have hzero : b.proto = 0 := (congrArg ScanResult.proto hb).symm
    have hflags : b.flags = 0x0D := (congrArg ScanResult.flags hb).symm.trans hlqi.symm
    obtain ⟨lo, hi, hlen, hentry⟩ := structEntry_netStruct hzero hflags hfit
    rw [hentry] at hat'
    have hnet : nameAndXpanid reader' = (b.networkName, b.xpanid) :=
      Prod.ext (congrArg ScanResult.networkName hb) (congrArg ScanResult.xpanid hb)
    exact ⟨hladdr, hsaddr, hpan, hlqi.symm, hzero, hflags, (nameAndXpanid_iff hlen hat').mp hnet⟩
  · intro h
    obtain ⟨lo, hi, hlen, hentry⟩ := structEntry_netStruct h.proto h.flags hfit
    rw [h.panid, hthirteen] at hpanid
    obtain ⟨rfl, rfl⟩ : 0x0D = p0 ∧ 0 = p1 := by simpa using hpanid
    obtain ⟨reader', hat', hfields⟩ := netFields_zero hat
    rw [hentry] at hat'
    have hnet := (nameAndXpanid_iff hlen hat').mpr h.net
    have hsplit : laddr.val ++ leBytes 2 saddr.toNat = b.laddr.val ++ leBytes 2 (0x0D : UInt16).toNat := by
      rw [hshift, h.laddr]
      rfl
    obtain ⟨hladdr, hsaddr⟩ := append_inj hsplit (laddr.property.trans b.laddr.property.symm)
    rw [hfields, hnet, Subtype.ext hladdr, eq_of_leBytes_two hsaddr, map_some, h.lqi]
    have hb : b = ⟨b.channel, b.rssi, b.laddr, b.saddr, b.panid, b.lqi, b.proto, b.flags, b.networkName,
      b.xpanid⟩ := rfl
    rw [hb, h.saddr, h.panid, h.lqi, h.proto, h.flags]

def zeroBeacon : ScanResult := ⟨11, -40, ⟨[0, 0, 0, 0, 0, 0, 0, 0], rfl⟩, 0, 0, 0, 0, 0, "WiSUN", []⟩

/-- The length of the first struct is taken for the beginning of the address. -/
theorem fromBeacon_zeroBeacon :
    zeroBeacon.proto ≤ spinelMaxUintPacked ∧ '\x00' ∉ zeroBeacon.networkName.toList ∧
      zeroBeacon.netStruct.length < 65536 ∧ fromBeacon zeroBeacon.beaconPayload ≠ some zeroBeacon := by
  decide

def survivingBeacon : ScanResult :=
  ⟨11, -40, ⟨[0x0D, 0, 0x0D, 0, 0x0D, 0, 0x0D, 0], rfl⟩, 0x0D, 0x0D, 0x0D, 0, 0x0D, "\x06", []⟩

theorem fromBeacon_survivingBeacon : fromBeacon survivingBeacon.beaconPayload = some survivingBeacon :=
  (fromBeacon_iff survivingBeacon (by unfold Fits; decide)).mpr
    ⟨rfl, rfl, rfl, rfl, rfl, rfl, .inl ⟨rfl, rfl⟩⟩

end DcuDaemon.Tasks
