/-
  The on-mesh prefixes of the addresses of the user and of the interface, from a restoration on
  (`src/wfantund/NCPInstanceBase-Addresses.cpp`, `restore_address_prefix_route_entries_on_ncp`,
  `remove_address_on_ncp_and_update_prefixes`).

  A restoration gives every such address its prefix. Addresses with one prefix and one origin have one
  entry between them, and the first of them that is removed takes it along.

  Main result: `prefixes_held_iff`.
-/
import DcuDaemon.Wfantund.Entries

namespace DcuDaemon.Wfantund

open Addresses (Origin)
open Firewall (In6Addr)
open Lib List

/-- A removal after the restoration: of an address, or by the user of a prefix. -/
inductive Removal where
  | address (origin : Origin) (a : In6Addr)
  | userPrefix (a : In6Addr) (prefixLen : UInt8)

def Removal.event : Removal → EntryEvent
  | .address origin a => .unicastRemoved origin a
  | .userPrefix a prefixLen => .prefixRemoved a prefixLen ⟨.user, 0, true, 0⟩

namespace EntryTables

/-- The prefix is in the on-mesh table, with this origin. -/
def HasPrefix (s : EntryTables) (p : IPv6Prefix) (o : Origin) : Prop :=
  ∃ y ∈ s.onMeshPrefixes, y.1 = p ∧ y.2.origin = o

/-- The address has this prefix and this origin, and the prefix is looked after. -/
def Shares (options : EntryOptions) (p : IPv6Prefix) (o : Origin)
    (x : In6Addr × UnicastAddressEntry) : Prop :=
  x.2.origin = o ∧ options.updatesPrefix x.1 = true ∧ addrPrefix x = p

/-- An address of the user or of the interface, neither link-local nor mesh-local, whose prefix the user
    does not remove. -/
def Remains (s : EntryTables) (removals : List Removal) (x : In6Addr × UnicastAddressEntry) : Prop :=
  x ∈ s.unicastAddresses ∧ x.2.origin ≠ .ncp ∧ s.options.updatesPrefix x.1 = true ∧
    ∀ a prefixLen, .userPrefix a prefixLen ∈ removals → IPv6Prefix.new a prefixLen ≠ addrPrefix x

variable {s t : EntryTables} {a : In6Addr} {p : IPv6Prefix} {o : Origin}

/-! ## 1. Restoration -/

variable {q : IPv6Prefix} {entry : OnMeshPrefixEntry} {x : In6Addr × UnicastAddressEntry}
  {tiWisunFan : Bool}

theorem hasPrefix_wasAdded {m : Multimap OnMeshPrefixEntry}
    (hs : s.onMeshPrefixes = wasAdded OnMeshPrefixEntry.same m (q, entry)) :
    s.HasPrefix q entry.origin ∧ ∀ y ∈ m, y ∈ s.onMeshPrefixes := by
  unfold HasPrefix
  rw [hs, wasAdded]
  split
  · rename_i hany
    obtain ⟨y, hy, hentry⟩ := any_eq_true.mp hany
    obtain ⟨hq, hsame⟩ := of_decide_eq_true hentry
    exact ⟨⟨y, hy, hq, (of_decide_eq_true hsame).1⟩, fun y hy => hy⟩
  · exact ⟨⟨(q, entry), mem_append_right _ mem_cons_self, rfl, rfl⟩, fun y hy => mem_append_left _ hy⟩

theorem addAddressOnNcp_spec (hx : x ∈ s.unicastAddresses) :
    (s.addAddressOnNcp x.1 x.2).unicastAddresses = s.unicastAddresses ∧
      (s.addAddressOnNcp x.1 x.2).options = s.options ∧
      (∀ y ∈ s.onMeshPrefixes, y ∈ (s.addAddressOnNcp x.1 x.2).onMeshPrefixes) ∧
      (x.2.origin ≠ .ncp → s.options.updatesPrefix x.1 →
        (s.addAddressOnNcp x.1 x.2).HasPrefix (addrPrefix x) x.2.origin) := by
  unfold addAddressOnNcp
  split
  · have hhas : s.hasAddressWithPrefix (addrPrefix x) := any_eq_true.mpr ⟨x, hx, decide_eq_true rfl⟩
    obtain ⟨m, heq, rfl | ⟨hno, -⟩⟩ :=
      prefixAdded_cases s x.1 x.2.prefixLen (s.options.autoAddedEntry x.2.origin)
    · obtain ⟨hnew, hold⟩ := hasPrefix_wasAdded (congrArg onMeshPrefixes heq)
      refine ⟨by rw [heq], by rw [heq], hold, fun _ _ => hnew⟩
    · exact absurd (hhas.symm.trans hno) (by decide)
  · rename_i hno
    exact ⟨rfl, rfl, fun y hy => hy, fun horigin hupdates => absurd ⟨horigin, hupdates⟩ hno⟩

/-- **A restoration** changes no address, and afterwards each of them has its prefix. -/
theorem restore_spec (s : EntryTables) :
    s.restore.unicastAddresses = s.unicastAddresses ∧ s.restore.options = s.options ∧
      ∀ x ∈ s.unicastAddresses, x.2.origin ≠ .ncp → s.options.updatesPrefix x.1 →
        s.restore.HasPrefix (addrPrefix x) x.2.origin := by
  have hloop : ∀ (xs : List (In6Addr × UnicastAddressEntry)) (t : EntryTables),
      (∀ x ∈ xs, x ∈ t.unicastAddresses) →
      let u := xs.foldl (fun s x => if x.2.origin ≠ .ncp then s.addAddressOnNcp x.1 x.2 else s) t
      u.unicastAddresses = t.unicastAddresses ∧ u.options = t.options ∧
        (∀ y ∈ t.onMeshPrefixes, y ∈ u.onMeshPrefixes) ∧
        ∀ x ∈ xs, x.2.origin ≠ .ncp → t.options.updatesPrefix x.1 →
          u.HasPrefix (addrPrefix x) x.2.origin := by
    intro xs
    induction xs with
    | nil => exact fun t _ => ⟨rfl, rfl, fun y hy => hy, fun x hx => absurd hx not_mem_nil⟩
    | cons x xs ih =>
      intro t ht
      by_cases horigin : x.2.origin ≠ .ncp
      · obtain ⟨hunicast, hoptions, hold, hnew⟩ := addAddressOnNcp_spec (ht x mem_cons_self)
        obtain ⟨ihunicast, ihoptions, ihold, ihnew⟩ := ih (t.addAddressOnNcp x.1 x.2)
          fun z hz => hunicast ▸ ht z (mem_cons_of_mem x hz)
        rw [foldl_cons, if_pos horigin]
        refine ⟨ihunicast.trans hunicast, ihoptions.trans hoptions, fun y hy => ihold y (hold y hy), ?_⟩
        intro z hz hzorigin hupdates
        rcases mem_cons.mp hz with rfl | hz
        · obtain ⟨y, hy, hheld⟩ := hnew hzorigin hupdates
          exact ⟨y, ihold y hy, hheld⟩
        · exact ihnew z hz hzorigin (hoptions ▸ hupdates)
      · obtain ⟨ihunicast, ihoptions, ihold, ihnew⟩ := ih t fun z hz => ht z (mem_cons_of_mem x hz)
        rw [foldl_cons, if_neg horigin]
        refine ⟨ihunicast, ihoptions, ihold, fun z hz hzorigin hupdates => ?_⟩
        rcases mem_cons.mp hz with rfl | hz
        · exact absurd hzorigin horigin
        · exact ihnew z hz hzorigin hupdates
  obtain ⟨hunicast, hoptions, -, hnew⟩ := hloop s.unicastAddresses s fun x hx => hx
  exact ⟨hunicast, hoptions, hnew⟩

/-! ## 2. Removals -/

theorem Erased.mem {m m' : List (In6Addr × UnicastAddressEntry)} {z : In6Addr × UnicastAddressEntry}
    (h : Erased m m' x) (hm : KeyedList.Distinct Prod.fst m) : z ∈ m' ↔ z ∈ m ∧ z ≠ x := by
  rw [h.2, KeyedList.mem_eraseKey hm]
  refine and_congr_right fun hz => not_congr ⟨fun hk => hm.eq_of_key hz h.1 hk, fun hzx => hzx ▸ rfl⟩

/-- An entry of the user or of the interface is removed by its prefix and its origin. -/
theorem hasPrefix_wasRemoved (h : s.Sound) (hentry : entry.origin ≠ .ncp)
    (ht : t.onMeshPrefixes = wasRemoved OnMeshPrefixEntry.same s.onMeshPrefixes (q, entry)) :
    t.HasPrefix p o ↔ s.HasPrefix p o ∧ ¬ (q = p ∧ entry.origin = o) := by
  have hkey : ∀ y : IPv6Prefix × OnMeshPrefixEntry,
      onMeshKey y = onMeshKey (q, entry) ↔ y.1 = q ∧ y.2.origin = entry.origin := by
    intro y
    simp only [onMeshKey, Prod.mk.injEq, hentry, if_false]
    refine and_congr_right fun _ => and_iff_left_of_imp fun horigin => ?_
    rw [if_neg (horigin ▸ hentry)]
  unfold HasPrefix
  rw [ht, wasRemoved_eq comparesBy_onMeshKey (fun _ _ => trivial) trivial]
  simp only [KeyedList.mem_eraseKey h.onMesh, ne_eq, hkey]
  constructor
  · rintro ⟨y, ⟨hy, hother⟩, rfl, rfl⟩
    exact ⟨⟨y, hy, rfl, rfl⟩, fun hsame => hother ⟨hsame.1.symm, hsame.2.symm⟩⟩
  · rintro ⟨⟨y, hy, rfl, rfl⟩, hother⟩
    exact ⟨y, ⟨hy, fun hsame => hother ⟨hsame.1.symm, hsame.2.symm⟩⟩, rfl, rfl⟩

theorem prefixRemoved_spec (h : s.Sound) (a : In6Addr) (prefixLen : UInt8) (hentry : entry.origin ≠ .ncp) :
    let t := s.onMeshPrefixWasRemoved a prefixLen entry
    t.options = s.options ∧
      (∀ z, z.2.origin ≠ .ncp → (z ∈ t.unicastAddresses ↔ z ∈ s.unicastAddresses)) ∧
      ∀ p o, t.HasPrefix p o ↔ s.HasPrefix p o ∧ ¬ (IPv6Prefix.new a prefixLen = p ∧ entry.origin = o) := by
  obtain ⟨m, heq, hm⟩ := prefixRemoved_cases s a prefixLen entry
  refine ⟨by rw [heq], fun z hz => ?_, fun p o => hasPrefix_wasRemoved h hentry (by rw [heq])⟩
  rw [heq]
  rcases hm with rfl | ⟨x, hx, hm⟩
  · exact Iff.rfl
  · refine (hm.mem h.unicast).trans (and_iff_left_of_imp fun _ hzx => hz ?_)
    rw [hzx, hx]

/-- **What a removal takes**: nothing, or an address and the entry of its prefix. -/
theorem unicastRemoved_spec (h : s.Sound) (ho : o ≠ .ncp) (origin : Origin) (a : In6Addr) :
    s.unicastAddressWasRemoved origin a = s ∨ ∃ x ∈ s.unicastAddresses,
        (s.unicastAddressWasRemoved origin a).options = s.options ∧
        (∀ z, z.2.origin ≠ .ncp → (z ∈ (s.unicastAddressWasRemoved origin a).unicastAddresses ↔
          z ∈ s.unicastAddresses ∧ z ≠ x)) ∧ ((s.unicastAddressWasRemoved origin a).HasPrefix p o ↔
          s.HasPrefix p o ∧ ¬ Shares s.options p o x) := by
  rcases unicastRemoved_cases s origin a with heq | ⟨e, m, hm, -, heq⟩
  · exact .inl heq
  have hmem := fun z : In6Addr × UnicastAddressEntry => hm.mem (z := z) h.unicast
  refine .inr ⟨(a, e), hm.1, ?_⟩
  rw [heq]
  split
  · rename_i hupdates
    have hentry : (s.options.autoAddedEntry e.origin).origin ≠ .ncp := hupdates.1
    obtain ⟨hoptions, hunicast, hheld⟩ := prefixRemoved_spec (hm.sound h) a e.prefixLen hentry
    refine ⟨hoptions, fun z hz => (hunicast z hz).trans (hmem z), (hheld p o).trans ?_⟩
    refine and_congr_right fun _ => not_congr ⟨fun hsame => ?_, fun hshares => ?_⟩
    · exact ⟨hsame.2, hupdates.2, hsame.1⟩
    · exact ⟨hshares.2.2, hshares.1⟩
  · rename_i hno
    refine ⟨rfl, fun z _ => hmem z, (and_iff_left fun hshares => ?_).symm⟩
    exact hno ⟨hshares.1 ▸ ho, hshares.2.1⟩

/-! ## 3. Sequences of removals -/

/-- Since `s`, where the prefix has its entry, this has gone exactly if one of the addresses has that
    share it. -/
structure Follows (p : IPv6Prefix) (o : Origin) (s t : EntryTables) : Prop where
  sound : t.Sound
  options : t.options = s.options
  fewer : ∀ z ∈ t.unicastAddresses, z.2.origin ≠ .ncp → z ∈ s.unicastAddresses
  held : s.HasPrefix p o → (t.HasPrefix p o ↔
    ∀ y ∈ s.unicastAddresses, Shares s.options p o y → y ∈ t.unicastAddresses)

/-- **One removal.** -/
theorem follows_step (ho : o ≠ .ncp) {r : Removal}
    (hr : ∀ a prefixLen, r = .userPrefix a prefixLen → IPv6Prefix.new a prefixLen ≠ p)
    (h : Follows p o s t) : Follows p o s (t.step tiWisunFan r.event) := by
  have hsound : (t.step tiWisunFan r.event).Sound := sound_step h.sound r.event
  cases r with
  | address origin a =>
    rcases unicastRemoved_spec (p := p) h.sound ho origin a with heq | ⟨x, hx, hoptions, hunicast, hkept⟩
    · show Follows p o s (t.unicastAddressWasRemoved origin a)
      rw [heq]
      exact h
    refine ⟨hsound, hoptions.trans h.options,
      fun z hz hncp => h.fewer z ((hunicast z hncp).mp hz).1 hncp, fun hhas => ?_⟩
    have hheld := h.held hhas
    refine hkept.trans ⟨fun ⟨hthere, hnot⟩ y hy hshares => ?_, fun hall => ⟨?_, fun hshares => ?_⟩⟩
    · have hyx : y ≠ x := fun heq => hnot (h.options ▸ heq ▸ hshares)
      exact (hunicast y (hshares.1 ▸ ho)).mpr ⟨hheld.mp hthere y hy hshares, hyx⟩
    · exact hheld.mpr fun y hy hshares => ((hunicast y (hshares.1 ▸ ho)).mp (hall y hy hshares)).1
    · -- the address that is taken shares the prefix: it would have to be there still
      have hncp : x.2.origin ≠ .ncp := hshares.1 ▸ ho
      have hmem := hall x (h.fewer x hx hncp) (h.options ▸ hshares)
      exact ((hunicast x hncp).mp hmem).2 rfl
  | userPrefix a prefixLen =>
    have hentry : (⟨.user, 0, true, 0⟩ : OnMeshPrefixEntry).origin ≠ .ncp := by decide
    obtain ⟨hoptions, hunicast, hheld⟩ := prefixRemoved_spec h.sound a prefixLen hentry
    refine ⟨hsound, hoptions.trans h.options, fun z hz hncp => h.fewer z ((hunicast z hncp).mp hz) hncp, fun hhas => ?_⟩
    have hother : ¬ (IPv6Prefix.new a prefixLen = p ∧ Origin.user = o) := fun hp => hr a prefixLen rfl hp.1
    refine (hheld p o).trans ((and_iff_left hother).trans ((h.held hhas).trans ?_))
    exact forall₂_congr fun y _ => forall_congr' fun hshares => (hunicast y (hshares.1 ▸ ho)).symm

/-- **A sequence of removals.** -/
theorem follows_run (ho : o ≠ .ncp) {removals : List Removal}
    (hr : ∀ a prefixLen, .userPrefix a prefixLen ∈ removals → IPv6Prefix.new a prefixLen ≠ p)
    (h : Follows p o s t) : Follows p o s (run (step tiWisunFan) t (removals.map Removal.event)) := by
  induction removals generalizing t with
  | nil => exact h
  | cons r removals ih =>
    have hstep : Follows p o s (t.step tiWisunFan r.event) :=
      follows_step ho (fun a n hn => hr a n (hn ▸ mem_cons_self)) h
    exact ih (fun a n hn => hr a n (mem_cons_of_mem r hn)) hstep

/-- **Prefixes after a restoration**: the addresses that remain have theirs, if and only if no address has
    been removed that had its prefix and origin in common with one that remains. -/
theorem prefixes_held_iff (tiWisunFan : Bool) (options : EntryOptions) (es : List EntryEvent)
    (removals : List Removal) :
    let s := (run (step tiWisunFan) (start options) es).restore
    let t := run (step tiWisunFan) s (removals.map Removal.event)
    (∀ x, t.Remains removals x → t.HasPrefix (addrPrefix x) x.2.origin) ↔
      ∀ x, t.Remains removals x → ∀ y ∈ s.unicastAddresses,
        Shares s.options (addrPrefix x) x.2.origin y → y ∈ t.unicastAddresses := by
  intro s t
  have hsound : (step tiWisunFan _ .restore).Sound := sound_step (sound_run tiWisunFan options es) .restore
  obtain ⟨hunicast, hoptions, hnew⟩ := restore_spec (run (step tiWisunFan) (start options) es)
  refine forall₂_congr fun x hx => ?_
  obtain ⟨hmem, hncp, hupdates, huser⟩ := hx
  have hstart : Follows (addrPrefix x) x.2.origin s s :=
    ⟨hsound, rfl, fun z hz _ => hz, fun hhas => iff_of_true hhas fun y hy _ => hy⟩
  have hend : Follows (addrPrefix x) x.2.origin s t := follows_run hncp huser hstart
  -- the address was there all the time, so that the restoration has seen to its prefix
  have hthere := hend.fewer x hmem hncp
  exact hend.held (hnew x (hunicast ▸ hthere) hncp (hoptions ▸ hend.options ▸ hupdates))

def plainOptions : EntryOptions :=
  ⟨true, true, false, false, true, false, ⟨0 :: List.replicate 7 0, rfl⟩, ⟨0 :: List.replicate 7 0, rfl⟩⟩

/-- The address `2001:db8::host`, with a prefix of 64 bits, of the user. -/
def documented (host : UInt8) : In6Addr × UnicastAddressEntry :=
  (⟨[0x20, 0x01, 0x0d, 0xb8, 0, 0, 0, 0, 0, 0, 0, 0, 0, 0, 0, host], rfl⟩, ⟨.user, 64, 7200, 3600⟩)

def tablesOf (addresses : List (In6Addr × UnicastAddressEntry)) (prefixes : Multimap OnMeshPrefixEntry) :
    EntryTables := ⟨plainOptions, addresses, [], prefixes, [], []⟩

/-- Two addresses are added by the user, and the entries are restored. -/
def restoredPair : EntryTables :=
  (run (step true) (start plainOptions) [.unicastAdded (documented 1).1 (documented 1).2,
    .unicastAdded (documented 2).1 (documented 2).2]).restore

theorem restoredPair_eq : restoredPair =
    tablesOf [documented 1, documented 2] [(⟨(documented 0).1, 64⟩, ⟨.user, 0x21, true, 0⟩)] := by
  have hadded : run (step true) (start plainOptions) [.unicastAdded (documented 1).1 (documented 1).2,
      .unicastAdded (documented 2).1 (documented 2).2] = tablesOf [documented 1, documented 2] [] := rfl
  have hfirst : (tablesOf [documented 1, documented 2] []).addAddressOnNcp (documented 1).1 (documented 1).2 =
      tablesOf [documented 1, documented 2] [(⟨(documented 0).1, 64⟩, ⟨.user, 0x21, true, 0⟩)] := rfl
  rw [restoredPair, hadded]
  show [documented 1, documented 2].foldl _ _ = _
  rw [foldl_cons, foldl_cons, foldl_nil, if_pos (by decide), if_pos (by decide), hfirst]
  rfl

def afterRemoval : EntryTables :=
  run (step true) restoredPair [(Removal.address .user (documented 1).1).event]

theorem afterRemoval_eq : afterRemoval = tablesOf [documented 2] [] := by
  rw [afterRemoval, restoredPair_eq]
  rfl

/-- **Two addresses with one prefix**: after the removal of one of them the other one is left without its
    prefix. -/
theorem shared_prefix_lost : afterRemoval.Remains [.address .user (documented 1).1] (documented 2) ∧
      restoredPair.HasPrefix (addrPrefix (documented 2)) .user ∧
      ¬ afterRemoval.HasPrefix (addrPrefix (documented 2)) .user := by
  rw [afterRemoval_eq, restoredPair_eq]
  refine ⟨⟨mem_singleton.mpr rfl, by decide, by decide, fun a n hn => ?_⟩, ?_, ?_⟩
  · cases mem_singleton.mp hn
  · exact ⟨_, mem_singleton.mpr rfl, by decide +kernel, rfl⟩
  · exact fun ⟨y, hy, _⟩ => absurd hy not_mem_nil

end EntryTables

end DcuDaemon.Wfantund
