/-
  The operational dataset of the two daemons (`dataset.rs` and `SpinelNCPThreadDataset.cpp`).

  Reading, the C++ daemon makes two checks that the Rust daemon does not make: a key, an extended PAN
  ID, a PSKc and raw TLVs must not be empty, and a channel must not be above 31. Writing keys only, it
  still writes the value of the raw TLVs and of the destination.

  Main results: `datasets_agree_iff`, `frames_agree_iff`.
-/
import DcuDaemon.Wfantund.ThreadDataset

namespace DcuDaemon.Wfantund

open Addresses (Ipv6Addr Ipv6Net newIpv6Net)
open Instance List Option ThreadDataset DatasetField
open Spinel Spinel.Datatype Spinel.PackReader

/-! ## 1. The same fields -/

/-- The fields of a dataset, as the C++ daemon holds them. -/
def threadDataset (d : OperationalDataset) : ThreadDataset where
  mActiveTimestamp := d.activeTimestamp
  mPendingTimestamp := d.pendingTimestamp
  mMasterKey := d.masterKey
  mNetworkName := d.networkName.map asBytes
  mExtendedPanId := d.extendedPanId
  mMeshLocalPrefix := d.meshLocalPrefix.map Ipv6Net.addr
  mDelay := d.delay
  mPanId := d.panId
  mChannel := d.channel
  mPSKc := d.pskc
  mChannelMaskPage0 := d.channelMaskPage0
  mSecurityPolicy := d.securityPolicy
  mRawTlvs := d.rawTlvs
  mDestIpAddress := d.destIpAddress

/-- The same fields with the same values; the length of a prefix, which the C++ daemon does not hold, is the
    one there. -/
structure SameFields (d : OperationalDataset) (c : ThreadDataset) : Prop where
  fields : c = threadDataset d
  prefixLen : ∀ net, d.meshLocalPrefix = some net → net.prefixLen = kMeshLocalPrefixLen

theorem spinelProp_eq (field : DatasetField) : spinelProp field = field.key := by
  cases field <;> rfl

/-! ## 2. One entry -/

/-- The checks of the C++ daemon that the Rust daemon does not make. -/
def Guarded (field : DatasetField) (value : List UInt8) : Prop :=
  match field with
  | .masterKey | .extendedPanId | .pskc | .rawTlvs => value ≠ []
  | .channelMaskPage0 => ∀ ch ∈ value, ch ≤ 31
  | _ => True

theorem toOption_map {ε α β : Type} (f : α → β) (x : Except ε α) :
    (x.map f).toOption = x.toOption.map f := by
  cases x <;> rfl

theorem requireData_eq (value : List UInt8) :
    requireData value = if value ≠ [] then some value else none := by
  simp only [requireData, length_pos_iff]

theorem channelMaskLoop_of_le {value : List UInt8} (h : ∀ ch ∈ value, ch ≤ 31) (mask : UInt32) :
    channelMaskLoop value mask =
      some (value.foldl (fun mask ch => if ch ≤ 31 then mask ||| channelBit ch else mask) mask) := by
  induction value generalizing mask with
  | nil => rfl
  | cons ch value ih =>
    obtain ⟨hle, hall⟩ := forall_mem_cons.mp h
    rw [channelMaskLoop, foldl_cons, if_pos hle, if_pos hle, ih hall]
    rfl

theorem channelMaskLoop_eq_none {value : List UInt8} (h : ¬ ∀ ch ∈ value, ch ≤ 31) (mask : UInt32) :
    channelMaskLoop value mask = none := by
  induction value generalizing mask with
  | nil => exact absurd (forall_mem_nil _) h
  | cons ch value ih =>
    rw [channelMaskLoop]
    by_cases hle : ch ≤ 31
    · rw [if_pos hle, ih fun hall => h (forall_mem_cons.mpr ⟨hle, hall⟩)]
    · rw [if_neg hle]

theorem toOption_parseMeshLocalPrefix (value : List UInt8) :
    (parseMeshLocalPrefix (PackReader.new value)).toOption =
      (unpackIpv6 value).bind fun x => (unpackUint8 x.2).bind fun y =>
        if y.1 = 64 then newIpv6Net x.1 y.1 else none := by
  refine (reads_ipv6 (at_new value)).tryRead fun addr r post hat => ?_
  refine (reads_uint8 hat).tryRead fun prefixLen _ _ _ => ?_
  by_cases h64 : prefixLen = 64
  · rw [if_neg (not_not.mpr h64), if_pos h64]
    cases newIpv6Net addr prefixLen <;> rfl
  · rw [if_pos h64, if_neg h64]
    rfl

theorem toOption_parseSecurityPolicy (value : List UInt8) :
    (parseSecurityPolicy (PackReader.new value)).toOption =
      (unpackUint16 value).bind fun x => (unpackUint8 x.2).bind fun y => some ⟨x.1, y.1⟩ := by
  refine (reads_uint16 (at_new value)).tryRead fun time r post hat => ?_
  exact (reads_uint8 hat).tryRead fun _ _ _ _ => rfl

section Entry

variable {field : DatasetField} {value : List UInt8}

theorem toOption_read {α : Type} {read : Except SpinelError α × PackReader}
    {u : Option (α × List UInt8)} (h : Reads read u) (f : α → OperationalDataset) :
    ((read.1.map f).toOption).map threadDataset = u.map fun x => threadDataset (f x.1) := by
  rw [toOption_map, h.toOption, Option.map_map, Option.map_map]
  rfl

/-- **One entry**: the C++ daemon does with a value that passes its checks what the Rust daemon
    does. -/
theorem parseField_of_guarded (d : OperationalDataset) (h : Guarded field value) :
    (threadDataset d).parseField field value = (field.parse value d).toOption.map threadDataset := by
  have hat := at_new value
  cases field with
  | masterKey | extendedPanId | pskc | rawTlvs =>
    have hv : value ≠ [] := h
    simp only [parseField, requireData_eq, if_pos hv]
    rfl
  | channelMaskPage0 =>
    have hv : ∀ ch ∈ value, ch ≤ 31 := h
    simp only [parseField, channelMaskLoop_of_le hv]
    rfl
  | activeTimestamp | pendingTimestamp =>
    simp only [parse, toOption_read (reads_uint64 hat)]
    rfl
  | networkName =>
    simp only [parse, toOption_read (reads_utf8 hat)]
    rfl
  | delay =>
    simp only [parse, toOption_read (reads_uint32 hat)]
    rfl
  | panId =>
    simp only [parse, toOption_read (reads_uint16 hat)]
    rfl
  | channel =>
    simp only [parse, toOption_read (reads_uint8 hat)]
    rfl
  | destIpAddress =>
    simp only [parse, toOption_read (reads_ipv6 hat)]
    rfl
  | securityPolicy =>
    simp only [parse, toOption_map, toOption_parseSecurityPolicy]
    cases hu : unpackUint16 value with
    | none => simp [parseField, hu]
    | some x =>
      cases hu8 : unpackUint8 x.2 <;>
        simp [parseField, hu, hu8, threadDataset]
  | meshLocalPrefix =>
    simp only [parse, toOption_map, toOption_parseMeshLocalPrefix]
    cases hu : unpackIpv6 value with
    | none => simp [parseField, hu]
    | some x =>
      cases hu8 : unpackUint8 x.2 with
      | none => simp [parseField, hu, hu8]
      | some y =>
        by_cases h64 : y.1 = 64
        · simp [parseField, hu, hu8, h64, kMeshLocalPrefixLen, newIpv6Net, threadDataset]
        · simp [parseField, hu, hu8, h64, kMeshLocalPrefixLen]

theorem parseField_of_not_guarded (c : ThreadDataset) (h : ¬ Guarded field value) :
    c.parseField field value = none := by
  cases field with
  | masterKey | extendedPanId | pskc | rawTlvs =>
    have hv : ¬ value ≠ [] := h
    simp only [parseField, requireData_eq, if_neg hv, map_none]
  | channelMaskPage0 =>
    have hv : ¬ ∀ ch ∈ value, ch ≤ 31 := h
    simp only [parseField, channelMaskLoop_eq_none hv, map_none]
  | _ => exact absurd trivial h

/-- A value that its field can be read from: enough bytes, a text with its end, 64 bits of prefix. -/
def Readable (field : DatasetField) (value : List UInt8) : Prop :=
  match field with
  | .activeTimestamp | .pendingTimestamp => 8 ≤ value.length
  | .masterKey | .extendedPanId | .pskc | .rawTlvs | .channelMaskPage0 => True
  | .networkName => ∃ s post, 0 ∉ asBytes s ∧ value = asBytes s ++ 0 :: post
  | .meshLocalPrefix => 17 ≤ value.length ∧ value.getD 16 0 = 64
  | .delay => 4 ≤ value.length
  | .panId => 2 ≤ value.length
  | .channel => 1 ≤ value.length
  | .securityPolicy => 3 ≤ value.length
  | .destIpAddress => 16 ≤ value.length

theorem isSome_parseSecurityPolicy (value : List UInt8) :
    (parseSecurityPolicy (PackReader.new value)).toOption.isSome ↔ 3 ≤ value.length := by
  rw [toOption_parseSecurityPolicy]
  match value with
  | [] | [_] => simp [unpackUint16, unpackLe, unpackBytes]
  | a :: b :: post =>
    have hbytes : unpackBytes 2 (a :: b :: post) = some ([a, b], post) :=
      @unpackBytes_append [a, b] 2 rfl post
    rw [unpackUint16, unpackLe, hbytes]
    cases post <;> simp [unpackUint8]

theorem isSome_parseMeshLocalPrefix (value : List UInt8) :
    (parseMeshLocalPrefix (PackReader.new value)).toOption.isSome ↔
      17 ≤ value.length ∧ value.getD 16 0 = 64 := by
  rw [toOption_parseMeshLocalPrefix, unpackIpv6]
  split
  · simp only [bind_none, isSome_none, Bool.false_eq_true, false_iff]
    omega
  · rw [bind_some, show value.getD 16 0 = (value.drop 16).getD 0 0 by simp]
    have hlen : (value.drop 16).length = value.length - 16 := length_drop
    cases hdrop : value.drop 16 with
    | nil =>
      rw [hdrop, length_nil] at hlen
      simp only [unpackUint8, bind_none, isSome_none, Bool.false_eq_true, false_iff]
      omega
    | cons b post =>
      rw [hdrop, length_cons] at hlen
      have h17 : 17 ≤ value.length := by omega
      by_cases h64 : b = 64
      · simp [unpackUint8, h64, h17, newIpv6Net]
      · simp [unpackUint8, h64]

/-- **The Rust daemon parses a value iff it is readable.** -/
theorem isSome_parse (field : DatasetField) (value : List UInt8) (d : OperationalDataset) :
    (field.parse value d).toOption.isSome ↔ Readable field value := by
  have hat := at_new value
  cases field with
  | masterKey | extendedPanId | pskc | rawTlvs | channelMaskPage0 =>
    exact iff_of_true rfl trivial
  | activeTimestamp | pendingTimestamp =>
    rw [parse, (reads_uint64 hat).isSome_map, isSome_unpackUint64]
    rfl
  | networkName =>
    rw [parse, (reads_utf8 hat).isSome_map, isSome_unpackUtf8]
    rfl
  | delay =>
    rw [parse, (reads_uint32 hat).isSome_map, isSome_unpackUint32]
    rfl
  | panId =>
    rw [parse, (reads_uint16 hat).isSome_map, isSome_unpackUint16]
    rfl
  | channel =>
    rw [parse, (reads_uint8 hat).isSome_map, isSome_unpackUint8]
    rfl
  | destIpAddress =>
    rw [parse, (reads_ipv6 hat).isSome_map, isSome_unpackIpv6]
    rfl
  | securityPolicy =>
    rw [parse, toOption_map, isSome_map, isSome_parseSecurityPolicy]
    rfl
  | meshLocalPrefix =>
    rw [parse, toOption_map, isSome_map, isSome_parseMeshLocalPrefix]
    rfl

end Entry

/-! ## 3. A payload -/

/-- An entry of a known field whose value is readable, or of no field. -/
def ReadableEntry (e : UInt32 × List UInt8) : Prop :=
  ∀ field, DatasetField.ofKey e.1 = some field → Readable field e.2

/-- An entry that passes the checks of the C++ daemon. -/
def GuardedEntry (e : UInt32 × List UInt8) : Prop :=
  ∀ field, DatasetField.ofKey e.1 = some field → Guarded field e.2

section Payload

variable {e : UInt32 × List UInt8} {es : List (UInt32 × List UInt8)} {d d' : OperationalDataset}

open OperationalDataset

theorem isSome_parsed (e : UInt32 × List UInt8) (d : OperationalDataset) :
    (d.parsed e).isSome ↔ ReadableEntry e := by
  rw [parsed, parseEntry, ReadableEntry]
  cases hkey : ofKey e.1 with
  | none => simp [Except.toOption]
  | some field => simp [isSome_parse]

theorem isSome_foldlM_parsed (es : List (UInt32 × List UInt8)) (d : OperationalDataset) :
    (es.foldlM parsed d).isSome ↔ ∀ e ∈ es, ReadableEntry e := by
  induction es generalizing d with
  | nil => simp
  | cons e es ih =>
    rw [foldlM_cons, forall_mem_cons, ← isSome_parsed e d]
    cases hstep : d.parsed e with
    | none => simp
    | some d' => simpa using ih d'

theorem parseValue_of_guarded (h : GuardedEntry e) :
    (threadDataset d).parseValue e = (d.parsed e).map threadDataset := by
  have hfind : (all.find? fun field => spinelProp field = e.1) = ofKey e.1 := by
    simp only [spinelProp_eq, ofKey]
  rw [parseValue, hfind, parsed, parseEntry]
  cases hkey : ofKey e.1 with
  | none => rfl
  | some field => exact parseField_of_guarded d (h field hkey)

variable {c c' : ThreadDataset}

theorem parseValue_of_not_guarded (h : ¬ GuardedEntry e) : c.parseValue e = none := by
  simp only [GuardedEntry, not_forall] at h
  obtain ⟨field, hkey, hv⟩ := h
  have hfind : (all.find? fun field => spinelProp field = e.1) = some field := by
    rw [← hkey]
    simp only [spinelProp_eq, ofKey]
  rw [parseValue, hfind]
  exact parseField_of_not_guarded c hv

/-- **The entries, one after the other**: if all pass the checks, the two daemons do the same. -/
theorem foldlM_parseValue (h : ∀ e ∈ es, GuardedEntry e) (d : OperationalDataset) :
    es.foldlM parseValue (threadDataset d) = (es.foldlM parsed d).map threadDataset := by
  induction es generalizing d with
  | nil => rfl
  | cons e es ih =>
    obtain ⟨he, hes⟩ := forall_mem_cons.mp h
    rw [foldlM_cons, foldlM_cons, parseValue_of_guarded he]
    cases d.parsed e with
    | none => rfl
    | some d' => exact ih hes d'

theorem guarded_of_foldlM (h : es.foldlM parseValue c = some c') : ∀ e ∈ es, GuardedEntry e := by
  induction es generalizing c with
  | nil => exact fun e he => absurd he not_mem_nil
  | cons e es ih =>
    obtain ⟨c₁, hstep, hrest⟩ := bind_eq_some_iff.mp h
    refine forall_mem_cons.mpr ⟨?_, ih hrest⟩
    by_contra hg
    rw [parseValue_of_not_guarded hg] at hstep
    cases hstep

theorem parse_prefixLen {field : DatasetField} {value : List UInt8}
    (hd : ∀ net, d.meshLocalPrefix = some net → net.prefixLen = 64)
    (h : (field.parse value d).toOption = some d') :
    ∀ net, d'.meshLocalPrefix = some net → net.prefixLen = 64 := by
  cases field with
  | masterKey | extendedPanId | pskc | rawTlvs | channelMaskPage0 =>
    cases h
    exact hd
  | meshLocalPrefix =>
    rw [parse, toOption_map, toOption_parseMeshLocalPrefix] at h
    obtain ⟨net, hnet, rfl⟩ := map_eq_some_iff.mp h
    obtain ⟨x, -, hx⟩ := bind_eq_some_iff.mp hnet
    obtain ⟨y, -, hy⟩ := bind_eq_some_iff.mp hx
    intro net' hnet'
    cases hnet'
    split at hy
    · rename_i h64
      rw [newIpv6Net] at hy
      split at hy <;> cases hy
      exact h64
    · cases hy
  | _ =>
    rw [parse, toOption_map] at h
    obtain ⟨v, -, rfl⟩ := map_eq_some_iff.mp h
    exact hd

theorem foldlM_prefixLen (hd : ∀ net, d.meshLocalPrefix = some net → net.prefixLen = 64)
    (h : es.foldlM parsed d = some d') : ∀ net, d'.meshLocalPrefix = some net → net.prefixLen = 64 := by
  induction es generalizing d with
  | nil =>
    cases h
    exact hd
  | cons e es ih =>
    obtain ⟨d₁, hstep, hrest⟩ := bind_eq_some_iff.mp h
    refine ih ?_ hrest
    rw [parsed, parseEntry] at hstep
    split at hstep
    · cases hstep
      exact hd
    · exact parse_prefixLen hd hstep

theorem setFromSpinelFrameLoop_eq (fuel : Nat) (data : List UInt8) (c : ThreadDataset) :
    setFromSpinelFrameLoop fuel data c = foldEntries parseValue fuel data c := by
  induction fuel generalizing data c with
  | zero => rfl
  | succ fuel ih =>
    simp only [setFromSpinelFrameLoop, foldEntries, parseDatasetEntry, bind_assoc, ih]

theorem setFromSpinelFrame_eq_ok {data : List UInt8} : c.setFromSpinelFrame data = (.ok, c') ↔
      ∃ es, Keyed data es ∧ es.foldlM parseValue {} = some c' := by
  rw [← foldEntries_eq_some (Nat.le_refl data.length), ← setFromSpinelFrameLoop_eq,
    setFromSpinelFrame, clear]
  cases setFromSpinelFrameLoop data.length data {} <;> simp

end Payload

/-- What the two daemons do with a payload: both succeed or both fail, and if they succeed they hold
    the same fields. -/
structure Agree (c : ThreadDataset) (payload : List UInt8) : Prop where
  succeeds : (∃ d, OperationalDataset.fromSpinelFrame payload = .ok d) ↔
    (c.setFromSpinelFrame payload).1 = .ok
  fields : ∀ d, OperationalDataset.fromSpinelFrame payload = .ok d →
    (c.setFromSpinelFrame payload).1 = .ok → SameFields d (c.setFromSpinelFrame payload).2

/-- **The two daemons agree on a payload iff no key, extended PAN ID, PSKc or raw TLVs are empty and no
    channel is above 31.** -/
theorem datasets_agree_iff (c : ThreadDataset) (payload : List UInt8) : Agree c payload ↔
      ∀ es, Keyed payload es → (∀ e ∈ es, ReadableEntry e) → ∀ e ∈ es, GuardedEntry e := by
  have hcpp : (c.setFromSpinelFrame payload).1 = .ok ↔ ∃ c', c.setFromSpinelFrame payload = (.ok, c') :=
    ⟨fun h => ⟨_, Prod.ext h rfl⟩, fun ⟨c', h⟩ => by rw [h]⟩
  constructor
  · intro hagree es hes hread
    obtain ⟨d, hd⟩ := isSome_iff_exists.mp ((isSome_foldlM_parsed es {}).mpr hread)
    obtain ⟨c', hc'⟩ := hcpp.mp (hagree.succeeds.mp ⟨d, fromSpinelFrame_eq_ok.mpr ⟨es, hes, hd⟩⟩)
    obtain ⟨es', hes', hfold⟩ := setFromSpinelFrame_eq_ok.mp hc'
    rw [hes.unique hes']
    exact guarded_of_foldlM hfold
  · intro hcond
    -- from the entries of a payload that one of the two gets through, both get the same
    have hboth : ∀ es, Keyed payload es → (∀ e ∈ es, GuardedEntry e) → ∀ d,
        es.foldlM OperationalDataset.parsed {} = some d →
          c.setFromSpinelFrame payload = (.ok, threadDataset d) := by
      intro es hes hguard d hd
      refine setFromSpinelFrame_eq_ok.mpr ⟨es, hes, ?_⟩
      rw [show ({} : ThreadDataset) = threadDataset {} from rfl, foldlM_parseValue hguard, hd]
      rfl
    have hrust : ∀ d, OperationalDataset.fromSpinelFrame payload = .ok d →
        c.setFromSpinelFrame payload = (.ok, threadDataset d) ∧ SameFields d (threadDataset d) := by
      intro d hd
      obtain ⟨es, hes, hfold⟩ := fromSpinelFrame_eq_ok.mp hd
      have hread := (isSome_foldlM_parsed es {}).mp (isSome_iff_exists.mpr ⟨d, hfold⟩)
      refine ⟨hboth es hes (hcond es hes hread) d hfold, rfl, ?_⟩
      exact foldlM_prefixLen (fun net hnet => by cases hnet) hfold
    refine ⟨⟨fun ⟨d, hd⟩ => ?_, fun h => ?_⟩, fun d hd _ => ?_⟩
    · rw [(hrust d hd).1]
    · obtain ⟨c', hc'⟩ := hcpp.mp h
      obtain ⟨es, hes, hfold⟩ := setFromSpinelFrame_eq_ok.mp hc'
      rw [show ({} : ThreadDataset) = threadDataset {} from rfl,
        foldlM_parseValue (guarded_of_foldlM hfold)] at hfold
      obtain ⟨d, hd, -⟩ := map_eq_some_iff.mp hfold
      exact ⟨d, fromSpinelFrame_eq_ok.mpr ⟨es, hes, hd⟩⟩
    · rw [(hrust d hd).1]
      exact (hrust d hd).2

/-- A master key without bytes: the Rust daemon takes it over, the C++ daemon fails. -/
theorem empty_master_key_differs : ¬ Agree {} [1, 0, 0x46] := by
  intro h
  have hok : OperationalDataset.fromSpinelFrame [1, 0, 0x46] = .ok { masterKey := some [] } := rfl
  have hstatus := h.succeeds.mp ⟨_, hok⟩
  exact absurd hstatus (by decide)

/-! ## 4. Frames -/

section Frames

variable {α : Type} {xs : List α} {f g : α → List UInt8}

theorem length_flatMap_le (h : ∀ x ∈ xs, (f x).length ≤ (g x).length) :
    (xs.flatMap f).length ≤ (xs.flatMap g).length := by
  induction xs with
  | nil => exact Nat.le_refl _
  | cons x xs ih =>
    obtain ⟨hx, hxs⟩ := forall_mem_cons.mp h
    rw [flatMap_cons, flatMap_cons, length_append, length_append]
    exact Nat.add_le_add hx (ih hxs)

theorem length_eq_of_flatMap_eq (h : ∀ x ∈ xs, (f x).length ≤ (g x).length)
    (hlen : (xs.flatMap f).length = (xs.flatMap g).length) : ∀ x ∈ xs, (f x).length = (g x).length := by
  induction xs with
  | nil => exact fun x hx => absurd hx not_mem_nil
  | cons x xs ih =>
    obtain ⟨hx, hxs⟩ := forall_mem_cons.mp h
    have hrest := length_flatMap_le hxs
    rw [flatMap_cons, flatMap_cons, length_append, length_append] at hlen
    exact forall_mem_cons.mpr ⟨by omega, ih hxs (by omega)⟩

/-- The block of a field with this content. -/
def entryBytes (field : DatasetField) : Option (List UInt8) → List UInt8
  | none => []
  | some content => structEntry (keyedEntry (field.key, content))

/-- The same content, or a shorter one. -/
def Shorter (u v : Option (List UInt8)) : Prop :=
  u = v ∨ ∃ a b, u = some a ∧ v = some b ∧ a.length < b.length

section Map

variable {α : Type} {o : Option α} {f g : α → List UInt8}

theorem shorter_map (h : ∀ x, f x = g x ∨ (f x).length < (g x).length) : Shorter (o.map f) (o.map g) := by
  cases o with
  | none => exact .inl rfl
  | some x =>
    obtain he | hlt := h x
    · exact .inl (congrArg some he)
    · exact .inr ⟨f x, g x, rfl, rfl, hlt⟩

theorem map_eq_map_iff : o.map f = o.map g ↔ ∀ x, o = some x → f x = g x := by
  cases o <;> simp

end Map

theorem flatMap_entryBytes_inj {r k : DatasetField → Option (List UInt8)}
    (h : ∀ field, Shorter (r field) (k field)) :
    (DatasetField.all.flatMap fun field => entryBytes field (r field)) =
        (DatasetField.all.flatMap fun field => entryBytes field (k field)) ↔
      ∀ field, r field = k field := by
  have hblock : ∀ field, r field = k field ∨
      (entryBytes field (r field)).length < (entryBytes field (k field)).length := by
    intro field
    obtain he | ⟨u, v, hu, hv, hlt⟩ := h field
    · exact .inl he
    · refine .inr ?_
      rw [hu, hv]
      simp only [entryBytes, keyedEntry, structEntry, length_append, length_leBytes]
      omega
  constructor
  · intro heq field
    have hle : ∀ field ∈ DatasetField.all,
        (entryBytes field (r field)).length ≤ (entryBytes field (k field)).length := by
      intro field _
      obtain he | hlt := hblock field
      · rw [he]
      · exact le_of_lt hlt
    have hlen := length_eq_of_flatMap_eq hle (congrArg length heq) field field.mem_all
    exact (hblock field).resolve_right (not_lt.mpr hlen.ge)
  · intro heq
    simp only [heq]

theorem cStr_eq_iff {s : List UInt8} : cStr s = s ↔ 0 ∉ s := by
  constructor
  · intro hs h0
    rw [← hs] at h0
    simpa using mem_takeWhile_imp h0
  · intro h0
    exact takeWhile_eq_self_iff.mpr (ne_nul h0)

theorem cStr_eq_or_shorter (s : List UInt8) : cStr s = s ∨ (cStr s).length < s.length := by
  have hfront : cStr s <+: s := takeWhile_prefix _
  rcases Nat.lt_or_eq_of_le hfront.length_le with hlt | heq
  · exact .inr hlt
  · exact .inl (hfront.eq_of_length heq)

variable {d : OperationalDataset} {c : ThreadDataset}

theorem packedValue_eq (h : SameFields d c) {field : DatasetField} (hne : field ≠ .networkName) :
    c.packedValue field = field.value d := by
  rw [h.fields, value_eq]
  cases field with
  | networkName => exact absurd rfl hne
  | meshLocalPrefix =>
    cases hnet : d.meshLocalPrefix with
    | none => simp [packedValue, threadDataset, hnet]
    | some net => simp [packedValue, threadDataset, hnet, h.prefixLen net hnet]
  | _ => rfl

theorem packedValue_networkName (h : SameFields d c) :
    c.packedValue .networkName = d.networkName.map fun s => cStr (asBytes s) ++ [0] := by
  rw [h.fields, packedValue, threadDataset, Option.map_map]
  rfl

def content (d : OperationalDataset) (includeValues : Bool) (field : DatasetField) : Option (List UInt8) :=
  (field.value d).map fun value => if includeValues then value else []

def packedContent (c : ThreadDataset) (includeValue : Bool) (field : DatasetField) : Option (List UInt8) :=
  (c.packedValue field).map fun value =>
    if includeValue || ThreadDataset.valueAlways field then value else []

theorem toSpinelFrame_contents (d : OperationalDataset) (includeValues : Bool) :
    d.toSpinelFrame includeValues = some (all.flatMap fun field =>
        entryBytes field (content d includeValues field)) := by
  have hblock : ∀ field, field.block d includeValues =
      entryBytes field (content d includeValues field) := by
    intro field
    rw [block, content]
    cases field.value d <;> rfl
  rw [d.toSpinelFrame_blocks]
  simp only [hblock]

theorem convertToSpinelFrame_contents (c : ThreadDataset) (includeValue : Bool) :
    c.convertToSpinelFrame includeValue =
      all.flatMap fun field => entryBytes field (packedContent c includeValue field) := by
  have hkey : ∀ field, packUintPacked (spinelProp field) = PackWriter.uintPackedBytes field.key :=
    fun field => by cases field <;> rfl
  have hblock : ∀ field, c.packEntry includeValue field =
      entryBytes field (packedContent c includeValue field) := by
    intro field
    rw [packEntry, packedContent, hkey]
    cases c.packedValue field <;> rfl
  exact congrArg (all.flatMap ·) (funext hblock)

theorem frames_with_values_iff (h : SameFields d c) :
    d.toSpinelFrame true = some (c.convertToSpinelFrame true) ↔
      ∀ s, d.networkName = some s → 0 ∉ asBytes s := by
  have hother : ∀ field, field ≠ networkName → packedContent c true field = content d true field := by
    intro field hne
    rw [packedContent, content, packedValue_eq h hne]
    rfl
  have hrust : content d true .networkName = d.networkName.map fun s => asBytes s ++ [0] := by
    rw [content, value_eq, Option.map_map]
    rfl
  -- the C++ daemon writes the name up to its first NUL
  have hcpp : packedContent c true .networkName = d.networkName.map fun s => cStr (asBytes s) ++ [0] := by
    rw [packedContent, packedValue_networkName h, Option.map_map]
    rfl
  have hshorter : ∀ field, Shorter (packedContent c true field) (content d true field) := by
    intro field
    by_cases hne : field = .networkName
    · rw [hne, hrust, hcpp]
      refine shorter_map fun s => ?_
      simpa using cStr_eq_or_shorter (asBytes s)
    · exact .inl (hother field hne)
  have hname : (∀ field, packedContent c true field = content d true field) ↔
      packedContent c true .networkName = content d true .networkName := by
    refine ⟨fun heq => heq _, fun heq field => ?_⟩
    by_cases hne : field = .networkName
    · rw [hne, heq]
    · exact hother field hne
  rw [toSpinelFrame_contents, some_inj, convertToSpinelFrame_contents, eq_comm,
    flatMap_entryBytes_inj hshorter, hname, hrust, hcpp, map_eq_map_iff]
  simp only [append_cancel_right_eq, cStr_eq_iff]

/-- With keys only they write the same iff there is no value that the C++ daemon always writes. -/
theorem frames_without_values_iff (h : SameFields d c) :
    d.toSpinelFrame false = some (c.convertToSpinelFrame false) ↔
      (∀ tlvs, d.rawTlvs = some tlvs → tlvs = []) ∧ d.destIpAddress = none := by
  have hrust : ∀ field, content d false field = (field.value d).map fun _ => [] := fun _ => rfl
  have hcpp : ∀ field, packedContent c false field =
      (field.value d).map fun value => if valueAlways field then value else [] := by
    intro field
    by_cases hne : field = .networkName
    · rw [hne, packedContent, packedValue_networkName h, value_eq]
      cases d.networkName <;> rfl
    · rw [packedContent, packedValue_eq h hne]
      rfl
  have hshorter : ∀ field, Shorter (content d false field) (packedContent c false field) := by
    intro field
    rw [hrust, hcpp]
    refine shorter_map fun value => ?_
    split
    · cases value with
      | nil => exact .inl rfl
      | cons b value => exact .inr (Nat.succ_pos _)
    · exact .inl rfl
  rw [toSpinelFrame_contents, some_inj, convertToSpinelFrame_contents, flatMap_entryBytes_inj hshorter]
  simp only [hrust, hcpp, map_eq_map_iff]
  constructor
  · intro heq
    refine ⟨fun tlvs e => ?_, ?_⟩
    · exact (heq .rawTlvs tlvs (by rw [value_eq]; exact e)).symm
    · cases e : d.destIpAddress with
      | none => rfl
      | some addr =>
        have hnil := heq .destIpAddress addr.val (by rw [value_eq, e]; rfl)
        have hlen := addr.property
        rw [← show [] = addr.val from hnil] at hlen
        cases hlen
  · intro ⟨htlvs, haddr⟩ field value hvalue
    rw [value_eq] at hvalue
    cases field with
    | rawTlvs => exact (htlvs value hvalue).symm
    | destIpAddress =>
      rw [haddr] at hvalue
      cases hvalue
    | _ => rfl

/-- **They write the same bytes for the same fields** iff, with values, the name has no NUL and, with keys
    only, there are no raw TLVs and no destination. -/
theorem frames_agree_iff (h : SameFields d c) (includeValues : Bool) :
    d.toSpinelFrame includeValues = some (c.convertToSpinelFrame includeValues) ↔
      if includeValues then ∀ s, d.networkName = some s → 0 ∉ asBytes s
      else (∀ tlvs, d.rawTlvs = some tlvs → tlvs = []) ∧ d.destIpAddress = none := by
  cases includeValues with
  | true => exact frames_with_values_iff h
  | false => exact frames_without_values_iff h

/-- A channel and a name, with values and with keys only. -/
theorem frames_agree_on_channel :
    let d : OperationalDataset := { networkName := some "Wi-SUN", channel := some 25 }
    d.toSpinelFrame true = some ((threadDataset d).convertToSpinelFrame true) ∧
      d.toSpinelFrame false = some ((threadDataset d).convertToSpinelFrame false) := by
  have hsame : SameFields { networkName := some "Wi-SUN", channel := some 25 }
      (threadDataset { networkName := some "Wi-SUN", channel := some 25 }) :=
    ⟨rfl, fun net hnet => by cases hnet⟩
  refine ⟨(frames_agree_iff hsame true).mpr ?_, (frames_agree_iff hsame false).mpr ?_⟩
  · intro s hs
    cases hs
    decide +kernel
  · exact ⟨fun tlvs htlvs => (by cases htlvs), rfl⟩

/-- Raw TLVs, keys only: the C++ daemon writes them all the same. -/
theorem raw_tlvs_without_values_differ :
    let d : OperationalDataset := { rawTlvs := some [0x0E] }
    SameFields d (threadDataset d) ∧
      d.toSpinelFrame false ≠ some ((threadDataset d).convertToSpinelFrame false) :=
  ⟨⟨rfl, fun net hnet => by cases hnet⟩, by decide +kernel⟩

end Frames

end DcuDaemon.Wfantund
