/-
  The address, prefix, route and service entries of the C++ daemon and their origins
  (`src/wfantund/NCPInstanceBase-Addresses.cpp`).

  Five tables, three origins. An address of the user or of the interface brings its on-mesh prefix with
  it and takes it away again; a prefix may bring a SLAAC address, which counts as the NCP's. The calls
  to the NCP and to the primary interface are left out: they do not touch the tables.

  Main result: `origins_respected`.
-/
import DcuDaemon.Lib.StdMap
import DcuDaemon.Wfantund.NetworkData
import DcuDaemon.Wfantund.Services

namespace DcuDaemon.Wfantund

open Addresses (Origin)
open Firewall (In6Addr)
open Lib List KeyedList

/-! ## 1. The tables -/

structure UnicastAddressEntry where
  origin : Origin
  prefixLen : UInt8
  validLifetime : UInt32
  preferredLifetime : UInt32
  deriving DecidableEq

structure MulticastAddressEntry where
  origin : Origin
  deriving DecidableEq

/-- `IPv6Prefix(iter->first, iter->second.get_prefix_len())`. -/
def addrPrefix (x : In6Addr × UnicastAddressEntry) : IPv6Prefix := .new x.1 x.2.prefixLen

def OnMeshPrefixEntry.isSlaac (e : OnMeshPrefixEntry) : Bool := e.flags &&& 0x10 = 0x10

/-- `operator<`: `memcmp`. Neither address is less than the other only if they are the same. -/
def addressLt (a b : In6Addr) : Bool := a.val < b.val

/-- `make_slaac_addr_from_eui64`. -/
def makeSlaacAddr (net : In6Addr) (eui64 : { bytes : List UInt8 // bytes.length = 8 }) : In6Addr :=
  ⟨net.val.take 8 ++ eui64.val.modifyHead (· ^^^ 0x02), by simp [net.2, eui64.2]⟩

/-- The options, and what is known of the NCP. -/
structure EntryOptions where
  filterUserAddedLinkLocalIPv6Address : Bool
  autoUpdateInterfaceIPv6AddrsOnNcp : Bool
  setDefaultRouteForAutoAddedPrefix : Bool
  setSlaacForAutoAddedPrefix : Bool
  autoAddSlaacAddress : Bool
  ncpHandlesSlaac : Bool
  ncpV6Prefix : { bytes : List UInt8 // bytes.length = 8 }
  macAddress : { bytes : List UInt8 // bytes.length = 8 }

/-- The address is not link-local and not in the mesh-local prefix, as far as that is known. -/
def EntryOptions.updatesPrefix (o : EntryOptions) (a : In6Addr) : Bool :=
  !a.isLinkLocal && (!o.ncpV6Prefix.val.any (· ≠ 0) || o.ncpV6Prefix.val ≠ a.val.take 8)

/-- The on-mesh prefix entry of an address; `kFlagOnMesh`, `kFlagPreferred`, `kFlagDefaultRoute` and
    `kFlagSLAAC`. -/
def EntryOptions.autoAddedEntry (o : EntryOptions) (origin : Origin) : OnMeshPrefixEntry :=
  ⟨origin, 0x21 ||| (if o.setDefaultRouteForAutoAddedPrefix then 0x02 else 0) |||
    (if o.setSlaacForAutoAddedPrefix then 0x10 else 0), true, 0⟩

/-- The tables; the maps of addresses are kept in the order of their keys. -/
structure EntryTables where
  options : EntryOptions
  unicastAddresses : List (In6Addr × UnicastAddressEntry)
  multicastAddresses : List (In6Addr × MulticastAddressEntry)
  onMeshPrefixes : Multimap OnMeshPrefixEntry
  offMeshRoutes : Multimap OffMeshRouteEntry
  serviceEntries : List ServiceEntry

/-! ## 2. The functions -/

namespace EntryTables

def start (options : EntryOptions) : EntryTables := ⟨options, [], [], [], [], []⟩

/-- What an address leads to on the NCP: `add_address_on_ncp_and_update_prefixes` or its counterpart. -/
abbrev Update := EntryTables → In6Addr → UnicastAddressEntry → EntryTables

/-- `unicast_address_was_added`, with what comes after the table. -/
def unicastAddressWasAddedWith (update : Update) (s : EntryTables) (a : In6Addr)
    (entry : UnicastAddressEntry) : EntryTables :=
  if entry.origin ≠ .ncp ∧ s.options.filterUserAddedLinkLocalIPv6Address ∧ a.isLinkLocal then s
  else if s.unicastAddresses.any (fun x => x.1 = a) then s
  else
    let s := { s with unicastAddresses := StdMap.place addressLt a entry s.unicastAddresses }
    if entry.origin = .interface ∧ s.options.autoUpdateInterfaceIPv6AddrsOnNcp ∨ entry.origin = .user then
      update s a entry
    else s

/-- `unicast_address_was_removed`, with what comes after the table. -/
def unicastAddressWasRemovedWith (update : Update) (s : EntryTables) (origin : Origin) (a : In6Addr) :
    EntryTables :=
  match KeyedList.find Prod.fst s.unicastAddresses a with
  | none => s
  | some x =>
    if origin = .user ∨ origin = x.2.origin then
      let s := { s with unicastAddresses := eraseKey Prod.fst s.unicastAddresses a }
      if origin = .interface ∨ origin = .user then update s a x.2 else s
    else s

variable (s : EntryTables)

def hasAddressWithPrefix (p : IPv6Prefix) : Bool := s.unicastAddresses.any fun x => addrPrefix x = p

def findAddressWithPrefix (p : IPv6Prefix) (origin : Origin) : Option (In6Addr × UnicastAddressEntry) :=
  s.unicastAddresses.find? fun x => x.2.origin = origin ∧ addrPrefix x = p

def hasSlaacOnMeshPrefix (p : IPv6Prefix) : Bool :=
  s.onMeshPrefixes.any fun x => x.1 = p ∧ x.2.isSlaac ∧ x.2.isOnMesh

/-- `on_mesh_prefix_was_added`. The SLAAC address is of the NCP, for which there is no update. -/
def onMeshPrefixWasAdded (a : In6Addr) (prefixLen : UInt8) (entry : OnMeshPrefixEntry) : EntryTables :=
  let p := IPv6Prefix.new a prefixLen
  let s := { s with onMeshPrefixes := wasAdded OnMeshPrefixEntry.same s.onMeshPrefixes (p, entry) }
  if s.options.autoAddSlaacAddress ∧ ¬ s.options.ncpHandlesSlaac ∧ entry.isOnMesh ∧ entry.isSlaac ∧
      p.length = 64 ∧ ¬ s.hasAddressWithPrefix p then
    s.unicastAddressWasAddedWith (fun s _ _ => s) (makeSlaacAddr p.addr s.options.macAddress)
      ⟨.ncp, prefixLen, 0xFFFFFFFF, 0xFFFFFFFF⟩
  else s

def onMeshPrefixWasRemoved (a : In6Addr) (prefixLen : UInt8) (entry : OnMeshPrefixEntry) : EntryTables :=
  let p := IPv6Prefix.new a prefixLen
  if s.onMeshPrefixes.any (isEntry OnMeshPrefixEntry.same (p, entry)) then
    let s := { s with onMeshPrefixes := wasRemoved OnMeshPrefixEntry.same s.onMeshPrefixes (p, entry) }
    if entry.isOnMesh ∧ entry.isSlaac ∧ p.length = 64 ∧ ¬ s.hasSlaacOnMeshPrefix p then
      match s.findAddressWithPrefix p .ncp with
      | none => s
      | some x => s.unicastAddressWasRemovedWith (fun s _ _ => s) .ncp x.1
    else s
  else s

/-- `add_address_on_ncp_and_update_prefixes`. -/
def addAddressOnNcp : Update := fun s a entry =>
  if entry.origin ≠ .ncp ∧ s.options.updatesPrefix a then
    s.onMeshPrefixWasAdded a entry.prefixLen (s.options.autoAddedEntry entry.origin)
  else s

/-- `remove_address_on_ncp_and_update_prefixes`. -/
def removeAddressOnNcp : Update := fun s a entry =>
  if entry.origin ≠ .ncp ∧ s.options.updatesPrefix a then
    s.onMeshPrefixWasRemoved a entry.prefixLen (s.options.autoAddedEntry entry.origin)
  else s

/-- `unicast_address_was_added`; with `TI_WISUN_FAN` the prefix is not added here. -/
def unicastAddressWasAdded (tiWisunFan : Bool) : EntryTables → In6Addr → UnicastAddressEntry → EntryTables :=
  unicastAddressWasAddedWith (if tiWisunFan then fun s _ _ => s else addAddressOnNcp)

def unicastAddressWasRemoved : EntryTables → Origin → In6Addr → EntryTables :=
  unicastAddressWasRemovedWith removeAddressOnNcp

def multicastAddressWasJoined (origin : Origin) (a : In6Addr) : EntryTables :=
  if s.multicastAddresses.any (fun x => x.1 = a) then s
  else { s with multicastAddresses := StdMap.place addressLt a ⟨origin⟩ s.multicastAddresses }

def multicastAddressWasLeft (origin : Origin) (a : In6Addr) : EntryTables :=
  match KeyedList.find Prod.fst s.multicastAddresses a with
  | none => s
  | some x =>
    if origin = .user ∨ origin = x.2.origin then
      { s with multicastAddresses := eraseKey Prod.fst s.multicastAddresses a }
    else s

/-- `remove_ncp_originated_address_prefix_route_entries`. -/
def removeNcpOriginated : EntryTables :=
  { s with
    unicastAddresses := removeWhere (fun x => x.2.origin = .ncp) s.unicastAddresses.length s.unicastAddresses
    multicastAddresses :=
      removeWhere (fun x => x.2.origin = .ncp) s.multicastAddresses.length s.multicastAddresses
    onMeshPrefixes := removeWhere (fun x => x.2.origin = .ncp) s.onMeshPrefixes.length s.onMeshPrefixes
    offMeshRoutes := removeWhere (fun x => x.2.origin = .ncp) s.offMeshRoutes.length s.offMeshRoutes
    serviceEntries := removeWhere (fun x => x.origin = .ncp) s.serviceEntries.length s.serviceEntries }

/-- `restore_address_prefix_route_entries_on_ncp`: only the loop over the unicast addresses gets to a
    table. -/
def restore : EntryTables :=
  s.unicastAddresses.foldl (fun s x => if x.2.origin ≠ .ncp then s.addAddressOnNcp x.1 x.2 else s) s

end EntryTables

/-- The calls that change the tables, and a change of the options. A service of the NCP comes and goes with
    SERVICES. -/
inductive EntryEvent where
  | configure (options : EntryOptions)
  | unicastAdded (a : In6Addr) (entry : UnicastAddressEntry)
  | unicastRemoved (origin : Origin) (a : In6Addr)
  | multicastJoined (origin : Origin) (a : In6Addr)
  | multicastLeft (origin : Origin) (a : In6Addr)
  | prefixAdded (a : In6Addr) (prefixLen : UInt8) (entry : OnMeshPrefixEntry)
  | prefixRemoved (a : In6Addr) (prefixLen : UInt8) (entry : OnMeshPrefixEntry)
  | routeAdded (a : In6Addr) (prefixLen : UInt8) (entry : OffMeshRouteEntry)
  | routeRemoved (a : In6Addr) (prefixLen : UInt8) (entry : OffMeshRouteEntry)
  | serviceAdded (entry : ServiceEntry)
  | serviceRemoved (key : UInt32 × List UInt8)
  | services (data : List UInt8)
  | cleanup
  | restore

namespace EntryTables

def step (tiWisunFan : Bool) (s : EntryTables) : EntryEvent → EntryTables
  | .configure options => { s with options }
  | .unicastAdded a entry => s.unicastAddressWasAdded tiWisunFan a entry
  | .unicastRemoved origin a => s.unicastAddressWasRemoved origin a
  | .multicastJoined origin a => s.multicastAddressWasJoined origin a
  | .multicastLeft origin a => s.multicastAddressWasLeft origin a
  | .prefixAdded a prefixLen entry => s.onMeshPrefixWasAdded a prefixLen entry
  | .prefixRemoved a prefixLen entry => s.onMeshPrefixWasRemoved a prefixLen entry
  | .routeAdded a prefixLen entry =>
    { s with offMeshRoutes := wasAdded OffMeshRouteEntry.same s.offMeshRoutes (.new a prefixLen, entry) }
  | .routeRemoved a prefixLen entry =>
    { s with offMeshRoutes := wasRemoved OffMeshRouteEntry.same s.offMeshRoutes (.new a prefixLen, entry) }
  | .serviceAdded entry => { s with serviceEntries := serviceWasAdded s.serviceEntries entry }
  | .serviceRemoved key => { s with serviceEntries := serviceWasRemoved s.serviceEntries key }
  | .services data => { s with serviceEntries := handleServices s.serviceEntries data }
  | .cleanup => s.removeNcpOriginated
  | .restore => s.restore

/-! ## 3. What a call does to the tables -/

variable {tiWisunFan : Bool} {s : EntryTables} {origin : Origin} {a : In6Addr} {prefixLen : UInt8}

/-- What a removal leaves of the addresses. -/
def Erased (m m' : List (In6Addr × UnicastAddressEntry)) (x : In6Addr × UnicastAddressEntry) : Prop :=
  x ∈ m ∧ m' = eraseKey Prod.fst m x.1

/-- An address that was not there, in the place of its key. -/
def Placed (m m' : List (In6Addr × UnicastAddressEntry)) (x : In6Addr × UnicastAddressEntry) : Prop :=
  x.1 ∉ m.map Prod.fst ∧ m' = StdMap.place addressLt x.1 x.2 m

/-- **Adding an address** leaves all as it was, or puts the address in and goes on with the update. -/
theorem unicastAddedWith_cases (update : Update) (s : EntryTables) (a : In6Addr)
    (entry : UnicastAddressEntry) : s.unicastAddressWasAddedWith update a entry = s ∨
      ∃ m, Placed s.unicastAddresses m (a, entry) ∧
        (s.unicastAddressWasAddedWith update a entry = { s with unicastAddresses := m } ∨
          entry.origin ≠ .ncp ∧
            s.unicastAddressWasAddedWith update a entry = update { s with unicastAddresses := m } a entry) := by
  unfold unicastAddressWasAddedWith
  split
  · exact .inl rfl
  split
  · exact .inl rfl
  rename_i hnew
  have hplaced : Placed s.unicastAddresses (StdMap.place addressLt a entry s.unicastAddresses) (a, entry) :=
    ⟨fun h => hnew (any_key_iff.mpr h), rfl⟩
  dsimp only
  split
  · rename_i horigin
    refine .inr ⟨_, hplaced, .inr ⟨fun h => ?_, rfl⟩⟩
    rw [h] at horigin
    simp at horigin
  · exact .inr ⟨_, hplaced, .inl rfl⟩

/-- **Removing an address** leaves all as it was, or takes out an address that the origin may remove. -/
theorem unicastRemovedWith_cases (update : Update) (s : EntryTables) (origin : Origin) (a : In6Addr) :
    s.unicastAddressWasRemovedWith update origin a = s ∨
      ∃ e m, Erased s.unicastAddresses m (a, e) ∧ (origin = .user ∨ origin = e.origin) ∧
        s.unicastAddressWasRemovedWith update origin a =
          if origin = .ncp then { s with unicastAddresses := m }
          else update { s with unicastAddresses := m } a e := by
  unfold unicastAddressWasRemovedWith
  split
  · exact .inl rfl
  · rename_i x hfind
    obtain ⟨hx, rfl⟩ := mem_of_find hfind
    split
    · rename_i hallowed
      refine .inr ⟨x.2, _, ⟨hx, rfl⟩, hallowed, ?_⟩
      cases origin <;> rfl
    · exact .inl rfl

/-- **Adding a prefix** may add an address of the NCP, if there is none with this prefix. -/
theorem prefixAdded_cases (s : EntryTables) (a : In6Addr) (prefixLen : UInt8) (entry : OnMeshPrefixEntry) :
    ∃ m, s.onMeshPrefixWasAdded a prefixLen entry = { s with
          onMeshPrefixes := wasAdded OnMeshPrefixEntry.same s.onMeshPrefixes (.new a prefixLen, entry)
          unicastAddresses := m } ∧
      (m = s.unicastAddresses ∨ s.hasAddressWithPrefix (.new a prefixLen) = false ∧
        ∃ x, x.2.origin = .ncp ∧ Placed s.unicastAddresses m x) := by
  unfold onMeshPrefixWasAdded
  dsimp only
  split
  · rename_i hslaac
    have hnone : s.hasAddressWithPrefix (.new a prefixLen) = false := Bool.not_eq_true _ ▸ hslaac.2.2.2.2.2
    rcases unicastAddedWith_cases (fun s _ _ => s) _ _ _ with h | ⟨m, hm, h⟩
    · exact ⟨_, h, .inl rfl⟩
    · rcases h with h | ⟨-, h⟩
      · exact ⟨m, h, .inr ⟨hnone, _, rfl, hm⟩⟩
      · exact ⟨m, h, .inr ⟨hnone, _, rfl, hm⟩⟩
  · exact ⟨_, rfl, .inl rfl⟩

/-- **Removing a prefix** may remove an address of the NCP. -/
theorem prefixRemoved_cases (s : EntryTables) (a : In6Addr) (prefixLen : UInt8) (entry : OnMeshPrefixEntry) :
    ∃ m, s.onMeshPrefixWasRemoved a prefixLen entry = { s with
          onMeshPrefixes := wasRemoved OnMeshPrefixEntry.same s.onMeshPrefixes (.new a prefixLen, entry)
          unicastAddresses := m } ∧
      (m = s.unicastAddresses ∨ ∃ x, x.2.origin = .ncp ∧ Erased s.unicastAddresses m x) := by
  unfold onMeshPrefixWasRemoved
  dsimp only
  split
  · split
    · split
      · exact ⟨_, rfl, .inl rfl⟩
      · rename_i x _
        rcases unicastRemovedWith_cases (fun s _ _ => s) _ .ncp x.1 with h | ⟨e, m, hm, hallowed, h⟩
        · exact ⟨_, h, .inl rfl⟩
        · have hncp : e.origin = .ncp := (hallowed.resolve_left (by decide)).symm
          exact ⟨m, h, .inr ⟨(x.1, e), hncp, hm⟩⟩
    · exact ⟨_, rfl, .inl rfl⟩
  · rename_i hany
    refine ⟨_, ?_, .inl rfl⟩
    rw [wasRemoved_absent hany]

/-- For other origins than the NCP the prefix of the address goes with it. -/
theorem unicastRemoved_cases (s : EntryTables) (origin : Origin) (a : In6Addr) :
    s.unicastAddressWasRemoved origin a = s ∨
      ∃ e m, Erased s.unicastAddresses m (a, e) ∧ (origin = .user ∨ origin = e.origin) ∧
        s.unicastAddressWasRemoved origin a =
          if e.origin ≠ .ncp ∧ s.options.updatesPrefix a then
            onMeshPrefixWasRemoved { s with unicastAddresses := m } a e.prefixLen
              (s.options.autoAddedEntry e.origin)
          else { s with unicastAddresses := m } := by
  rcases unicastRemovedWith_cases removeAddressOnNcp s origin a with heq | ⟨e, m, hm, hallowed, heq⟩
  · exact .inl heq
  refine .inr ⟨e, m, hm, hallowed, heq.trans ?_⟩
  split
  · rename_i hncp
    have he : e.origin = .ncp := (hallowed.resolve_left (hncp ▸ by decide)).symm.trans hncp
    rw [if_neg fun h => h.1 he]
  · rfl

/-! ## 4. No entry twice -/

/-- The keys of the tables that are searched by key are distinct. -/
structure Sound (s : EntryTables) : Prop where
  unicast : Distinct Prod.fst s.unicastAddresses
  multicast : Distinct Prod.fst s.multicastAddresses
  onMesh : Distinct onMeshKey s.onMeshPrefixes
  services : Distinct ServiceEntry.key s.serviceEntries

variable {m : List (In6Addr × UnicastAddressEntry)} {x : In6Addr × UnicastAddressEntry}

theorem Placed.distinct {m' : List (In6Addr × UnicastAddressEntry)}
    (h : Placed m m' x) (hm : Distinct Prod.fst m) : Distinct Prod.fst m' := by
  have hperm := (StdMap.place_perm addressLt x.1 x.2 m).map Prod.fst
  rw [h.2]
  exact hperm.nodup_iff.mpr (nodup_cons.mpr ⟨h.1, hm⟩)

theorem Erased.sound (hm : Erased s.unicastAddresses m x) (h : s.Sound) :
    ({ s with unicastAddresses := m } : EntryTables).Sound :=
  ⟨hm.2 ▸ distinct_eraseKey h.unicast x.1, h.multicast, h.onMesh, h.services⟩

theorem sound_prefixAdded (h : s.Sound) (entry : OnMeshPrefixEntry) :
    (s.onMeshPrefixWasAdded a prefixLen entry).Sound := by
  have honMesh : Distinct onMeshKey
      (wasAdded OnMeshPrefixEntry.same s.onMeshPrefixes (.new a prefixLen, entry)) := by
    rw [wasAdded_eq comparesBy_onMeshKey (fun _ _ => trivial) trivial]
    exact distinct_insertNew h.onMesh _
  obtain ⟨m, heq, rfl | ⟨-, x, -, hm⟩⟩ := prefixAdded_cases s a prefixLen entry
  · rw [heq]
    exact ⟨h.unicast, h.multicast, honMesh, h.services⟩
  · rw [heq]
    exact ⟨hm.distinct h.unicast, h.multicast, honMesh, h.services⟩

theorem sound_prefixRemoved (h : s.Sound) (entry : OnMeshPrefixEntry) :
    (s.onMeshPrefixWasRemoved a prefixLen entry).Sound := by
  have honMesh : Distinct onMeshKey
      (wasRemoved OnMeshPrefixEntry.same s.onMeshPrefixes (.new a prefixLen, entry)) :=
    h.onMesh.sublist eraseP_sublist
  obtain ⟨m, heq, rfl | ⟨x, -, hm⟩⟩ := prefixRemoved_cases s a prefixLen entry
  · rw [heq]
    exact ⟨h.unicast, h.multicast, honMesh, h.services⟩
  · rw [heq]
    exact ⟨(hm.sound h).unicast, h.multicast, honMesh, h.services⟩

theorem sound_addAddressOnNcp (h : s.Sound) (entry : UnicastAddressEntry) :
    (s.addAddressOnNcp a entry).Sound := by
  unfold addAddressOnNcp
  split
  · exact sound_prefixAdded h _
  · exact h

theorem sound_unicastAdded (h : s.Sound) (entry : UnicastAddressEntry) :
    (s.unicastAddressWasAdded tiWisunFan a entry).Sound := by
  unfold unicastAddressWasAdded
  rcases unicastAddedWith_cases (if tiWisunFan then fun s _ _ => s else addAddressOnNcp) s a entry with
    heq | ⟨m, hm, heq⟩
  · rw [heq]
    exact h
  have hplaced : ({ s with unicastAddresses := m } : EntryTables).Sound :=
    ⟨hm.distinct h.unicast, h.multicast, h.onMesh, h.services⟩
  rcases heq with heq | ⟨-, heq⟩
  · exact heq ▸ hplaced
  · rw [heq]
    split
    · exact hplaced
    · exact sound_addAddressOnNcp hplaced entry

theorem sound_unicastRemoved (h : s.Sound) : (s.unicastAddressWasRemoved origin a).Sound := by
  rcases unicastRemoved_cases s origin a with heq | ⟨e, m, hm, -, heq⟩
  · rw [heq]
    exact h
  rw [heq]
  split
  · exact sound_prefixRemoved (hm.sound h) _
  · exact hm.sound h

/-- What holds during the loop over a value of SERVICES; the loop started with `m`. -/
structure LoopOk (p : Origin → Bool) (m : List ServiceEntry) (l : ServiceLoop) : Prop where
  distinct : Distinct ServiceEntry.key l.table
  copied : l.copy.Sublist m
  kept : m.Sublist l.table
  others : l.table.filter (fun e => p e.origin) = m.filter fun e => p e.origin

/-- **A value of SERVICES**, whatever its bytes are, is about services of the NCP only. -/
theorem handleServices_frame {p : Origin → Bool} (hp : p .ncp = false) {m : List ServiceEntry}
    (hm : Distinct ServiceEntry.key m) (data : List UInt8) :
    Distinct ServiceEntry.key (handleServices m data) ∧
      (handleServices m data).filter (fun e => p e.origin) = m.filter fun e => p e.origin := by
  have hturn : ∀ l block l', LoopOk p m l → serviceTurn l block = some l' → LoopOk p m l' := by
    intro l block l' hl hturn
    obtain ⟨vars, -, rfl⟩ := Option.map_eq_some_iff.mp hturn
    refine ⟨distinct_insertNew hl.distinct _, eraseP_sublist.trans hl.copied, ?_,
      (filter_insertNew l.table hp).trans hl.others⟩
    refine hl.kept.trans ?_
    show l.table.Sublist (insertNew ServiceEntry.key l.table vars.entry)
    unfold insertNew
    split
    · exact List.Sublist.refl _
    · exact sublist_append_left _ _
  obtain ⟨hdistinct, hcopied, hkept, hothers⟩ := structLoop_invariant hturn
    (t := ⟨.init, m, m⟩) ⟨hm, List.Sublist.refl m, List.Sublist.refl m, rfl⟩ (data.length + 1) data
  refine ⟨distinct_eraseAll hdistinct _, ?_⟩
  refine (filter_eraseAll fun d hd y hy hk => ?_).trans hothers
  -- a service that is to go is in the table, so that no other one has its key
  obtain ⟨hd, hncp⟩ := mem_filter.mp hd
  have hmem := hkept.subset (hcopied.subset hd)
  rw [hdistinct.eq_of_key hy hmem hk, of_decide_eq_true hncp, hp]

theorem sound_cleanup (h : s.Sound) : s.removeNcpOriginated.Sound := by
  unfold removeNcpOriginated
  simp only [removeWhere_eq_filter _ le_rfl]
  exact ⟨h.unicast.sublist filter_sublist, h.multicast.sublist filter_sublist,
    h.onMesh.sublist filter_sublist, h.services.sublist filter_sublist⟩

/-- **One call** leaves no entry twice. -/
theorem sound_step (h : s.Sound) (e : EntryEvent) : (s.step tiWisunFan e).Sound := by
  cases e with
  | configure options => exact ⟨h.unicast, h.multicast, h.onMesh, h.services⟩
  | unicastAdded a entry => exact sound_unicastAdded h entry
  | unicastRemoved origin a => exact sound_unicastRemoved h
  | multicastJoined origin a =>
    show (s.multicastAddressWasJoined origin a).Sound
    unfold multicastAddressWasJoined
    split
    · exact h
    · rename_i hnew
      have hperm := (StdMap.place_perm addressLt a ⟨origin⟩ s.multicastAddresses).map Prod.fst
      have hnodup := nodup_cons.mpr ⟨fun hmem => hnew (any_key_iff.mpr hmem), h.multicast⟩
      exact ⟨h.unicast, hperm.nodup_iff.mpr hnodup, h.onMesh, h.services⟩
  | multicastLeft origin a =>
    show (s.multicastAddressWasLeft origin a).Sound
    unfold multicastAddressWasLeft
    split
    · exact h
    split
    · exact ⟨h.unicast, distinct_eraseKey h.multicast a, h.onMesh, h.services⟩
    · exact h
  | prefixAdded a prefixLen entry => exact sound_prefixAdded h entry
  | prefixRemoved a prefixLen entry => exact sound_prefixRemoved h entry
  | routeAdded a prefixLen entry => exact ⟨h.unicast, h.multicast, h.onMesh, h.services⟩
  | routeRemoved a prefixLen entry => exact ⟨h.unicast, h.multicast, h.onMesh, h.services⟩
  | serviceAdded entry =>
    exact ⟨h.unicast, h.multicast, h.onMesh, distinct_insertNew h.services entry⟩
  | serviceRemoved key =>
    exact ⟨h.unicast, h.multicast, h.onMesh, distinct_eraseKey h.services key⟩
  | services data =>
    exact ⟨h.unicast, h.multicast, h.onMesh,
      (handleServices_frame (p := fun _ => false) rfl h.services data).1⟩
  | cleanup => exact sound_cleanup h
  | restore =>
    refine foldlRecOn s.unicastAddresses _ h fun t ht x _ => ?_
    split
    · exact sound_addAddressOnNcp ht x.2
    · exact ht

/-- **No run** leaves an entry twice. -/
theorem sound_run (tiWisunFan : Bool) (options : EntryOptions) (es : List EntryEvent) :
    (run (step tiWisunFan) (start options) es).Sound := by
  have hstart : (start options).Sound := ⟨nodup_nil, nodup_nil, nodup_nil, nodup_nil⟩
  have hstep : ∀ t e, Sound t → True → (t.step tiWisunFan e).Sound := fun _ e ht _ => sound_step ht e
  exact run_invariant hstep hstart (along_true _ es)

/-! ## 5. Origins -/

def ofOrigins (p : Origin → Bool) (s : EntryTables) : EntryTables :=
  { s with
    unicastAddresses := s.unicastAddresses.filter fun x => p x.2.origin
    multicastAddresses := s.multicastAddresses.filter fun x => p x.2.origin
    onMeshPrefixes := s.onMeshPrefixes.filter fun x => p x.2.origin
    offMeshRoutes := s.offMeshRoutes.filter fun x => p x.2.origin
    serviceEntries := s.serviceEntries.filter fun x => p x.origin }

end EntryTables

/-- The NCP has removed something, or is being forgotten. -/
def EntryEvent.removesForNcp : EntryEvent → Bool
  | .unicastRemoved origin _ | .multicastLeft origin _ => origin = .ncp
  | .prefixRemoved _ _ entry => entry.origin = .ncp
  | .routeRemoved _ _ entry => entry.origin = .ncp
  | .services _ | .cleanup => true
  | _ => false

def EntryEvent.removesForInterface : EntryEvent → Bool
  | .unicastRemoved origin _ | .multicastLeft origin _ => origin = .interface
  | _ => false

namespace EntryTables

variable {tiWisunFan : Bool} {s : EntryTables} {origin : Origin} {a : In6Addr} {prefixLen : UInt8}
  {p : Origin → Bool}

variable {q : In6Addr × UnicastAddressEntry → Bool}

theorem Erased.filter {m m' : List (In6Addr × UnicastAddressEntry)} {x : In6Addr × UnicastAddressEntry}
    (h : Erased m m' x) (hm : Distinct Prod.fst m)
    (hq : q x = false) : m'.filter q = m.filter q := by
  rw [h.2]
  exact filter_eraseKey fun y hy hk => hm.eq_of_key hy h.1 hk ▸ hq

theorem filter_wasRemoved {E κ : Type} [DecidableEq κ] {same : E → E → Bool} {key : IPv6Prefix × E → κ}
    (hS : ComparesBy same key fun _ => True) {origin : E → Origin}
    (hsame : ∀ y x, same y x → origin y = origin x) {m : Multimap E} {x : IPv6Prefix × E}
    (hx : p (origin x.2) = false) :
    (wasRemoved same m x).filter (fun y => p (origin y.2)) = m.filter fun y => p (origin y.2) := by
  rw [wasRemoved_eq hS (fun _ _ => trivial) trivial]
  refine filter_eraseKey fun y _ hk => ?_
  have hentry := of_decide_eq_true ((hS x y trivial trivial).mpr hk)
  rw [hsame y.2 x.2 hentry.2, hx]

/-- The addresses of others than the NCP are not touched by the removal of a prefix. -/
theorem unicast_prefixRemoved (h : s.Sound) (entry : OnMeshPrefixEntry)
    (hq : ∀ x, x.2.origin = .ncp → q x = false) :
    (s.onMeshPrefixWasRemoved a prefixLen entry).unicastAddresses.filter q = s.unicastAddresses.filter q := by
  obtain ⟨m, heq, hm⟩ := prefixRemoved_cases s a prefixLen entry
  rw [heq]
  rcases hm with rfl | ⟨x, hx, hm⟩
  · rfl
  · exact hm.filter h.unicast (hq x hx)

theorem ofOrigins_prefixRemoved (h : s.Sound) {entry : OnMeshPrefixEntry} (hncp : p .ncp = false)
    (hentry : p entry.origin = false) :
    (s.onMeshPrefixWasRemoved a prefixLen entry).ofOrigins p = s.ofOrigins p := by
  have hunicast : (s.onMeshPrefixWasRemoved a prefixLen entry).unicastAddresses.filter
      (fun x => p x.2.origin) = _ := unicast_prefixRemoved h entry fun x hx => hx ▸ hncp
  have honMesh := filter_wasRemoved (m := s.onMeshPrefixes) (x := (.new a prefixLen, entry))
    comparesBy_onMeshKey (fun y x hsame => (of_decide_eq_true hsame).1) hentry
  obtain ⟨m, heq, -⟩ := prefixRemoved_cases s a prefixLen entry
  rw [heq] at hunicast ⊢
  unfold ofOrigins
  rw [show m.filter _ = _ from hunicast, honMesh]

theorem ofOrigins_unicastRemoved (h : s.Sound) (hncp : p .ncp = false) (horigin : p origin = false)
    (hother : origin ≠ .user) : (s.unicastAddressWasRemoved origin a).ofOrigins p = s.ofOrigins p := by
  rcases unicastRemoved_cases s origin a with heq | ⟨e, m, hm, hallowed, heq⟩
  · rw [heq]
  obtain rfl := hallowed.resolve_left hother
  have hunicast : m.filter (fun x => p x.2.origin) = s.unicastAddresses.filter fun x => p x.2.origin :=
    hm.filter h.unicast horigin
  have herased : ({ s with unicastAddresses := m } : EntryTables).ofOrigins p = s.ofOrigins p := by
    unfold ofOrigins
    rw [hunicast]
  rw [heq]
  split
  · exact (ofOrigins_prefixRemoved (hm.sound h) hncp horigin).trans herased
  · exact herased

theorem unicast_unicastRemoved (h : s.Sound)
    (hself : ∀ e, q (a, e) = false) (hq : ∀ x, x.2.origin = .ncp → q x = false) :
    (s.unicastAddressWasRemoved origin a).unicastAddresses.filter q = s.unicastAddresses.filter q := by
  rcases unicastRemoved_cases s origin a with heq | ⟨e, m, hm, -, heq⟩
  · rw [heq]
  have herased : m.filter q = s.unicastAddresses.filter q := hm.filter h.unicast (hself e)
  rw [heq]
  split
  · exact (unicast_prefixRemoved (hm.sound h) _ hq).trans herased
  · exact herased

theorem ofOrigins_multicastLeft (h : s.Sound) (horigin : p origin = false) (hother : origin ≠ .user) :
    (s.multicastAddressWasLeft origin a).ofOrigins p = s.ofOrigins p := by
  unfold multicastAddressWasLeft
  split
  · rfl
  split
  · rename_i x hfind hallowed
    obtain ⟨hx, rfl⟩ := mem_of_find hfind
    have hp : p x.2.origin = false := (hallowed.resolve_left hother) ▸ horigin
    have hmulticast : (eraseKey Prod.fst s.multicastAddresses x.1).filter
        (fun x => p x.2.origin) = s.multicastAddresses.filter fun x => p x.2.origin :=
      filter_eraseKey fun y hy hk => h.multicast.eq_of_key hy hx hk ▸ hp
    unfold ofOrigins
    rw [hmulticast]
  · rfl

theorem ofOrigins_cleanup (hncp : p .ncp = false) : s.removeNcpOriginated.ofOrigins p = s.ofOrigins p := by
  have hkeep : ∀ o : Origin, (p o && !decide (o = .ncp)) = p o := by
    intro o
    by_cases ho : o = .ncp
    · simp [ho, hncp]
    · simp [ho]
  unfold removeNcpOriginated ofOrigins
  simp [removeWhere_eq_filter _ le_rfl, hkeep]

/-- **What the origins may remove**, in a state. -/
structure OriginsRespected (tiWisunFan : Bool) (s : EntryTables) : Prop where
  /-- A removal of the NCP, and the cleanup, leave the entries of the user and of the interface. -/
  ncp : ∀ e : EntryEvent, e.removesForNcp = true →
    (s.step tiWisunFan e).ofOrigins (· ≠ .ncp) = s.ofOrigins (· ≠ .ncp)
  /-- A removal from the interface leaves the entries of the user. -/
  interface : ∀ e : EntryEvent, e.removesForInterface = true →
    (s.step tiWisunFan e).ofOrigins (· = .user) = s.ofOrigins (· = .user)
  /-- Where a prefix goes, for whatever origin, the address that goes with it is of the NCP. -/
  withPrefix : ∀ a prefixLen entry,
    (s.onMeshPrefixWasRemoved a prefixLen entry).unicastAddresses.filter (fun x => x.2.origin ≠ .ncp) =
      s.unicastAddresses.filter fun x => x.2.origin ≠ .ncp
  /-- So it is with the prefix of an address that goes. -/
  withAddress : ∀ origin a,
    (s.unicastAddressWasRemoved origin a).unicastAddresses.filter (fun x => x.1 ≠ a ∧ x.2.origin ≠ .ncp) =
      s.unicastAddresses.filter fun x => x.1 ≠ a ∧ x.2.origin ≠ .ncp

/-- **Origins are respected.** No entry of the user or of the interface is deleted for the NCP, and none of
    the user for the interface. -/
theorem origins_respected (tiWisunFan : Bool) (options : EntryOptions) (es : List EntryEvent) :
    OriginsRespected tiWisunFan (run (step tiWisunFan) (start options) es) := by
  have h := sound_run tiWisunFan options es
  generalize run (step tiWisunFan) (start options) es = s at h
  refine ⟨fun e he => ?_, fun e he => ?_, fun a prefixLen entry => ?_, fun origin a => ?_⟩
  · cases e with
    | unicastRemoved origin a =>
      obtain rfl : origin = .ncp := of_decide_eq_true he
      exact ofOrigins_unicastRemoved h rfl rfl (by decide)
    | multicastLeft origin a =>
      obtain rfl : origin = .ncp := of_decide_eq_true he
      exact ofOrigins_multicastLeft h rfl (by decide)
    | prefixRemoved a prefixLen entry =>
      have hentry : entry.origin = .ncp := of_decide_eq_true he
      exact ofOrigins_prefixRemoved h rfl (by rw [hentry]; rfl)
    | routeRemoved a prefixLen entry =>
      have hentry : entry.origin = .ncp := of_decide_eq_true he
      have hroutes := filter_wasRemoved (p := (· ≠ .ncp)) (m := s.offMeshRoutes)
        (x := (.new a prefixLen, entry)) comparesBy_offMeshKey
        (fun y x hsame => (of_decide_eq_true hsame).1) (by rw [hentry]; rfl)
      exact congrArg (fun m => EntryTables.mk _ _ _ _ m _) hroutes
    | services data =>
      have hservices := (handleServices_frame (p := (· ≠ .ncp)) rfl h.services data).2
      unfold ofOrigins
      exact congrArg (fun m => EntryTables.mk _ _ _ _ _ m) hservices
    | cleanup => exact ofOrigins_cleanup rfl
    | _ => cases he
  · cases e with
    | unicastRemoved origin a =>
      obtain rfl : origin = .interface := of_decide_eq_true he
      exact ofOrigins_unicastRemoved h rfl rfl (by decide)
    | multicastLeft origin a =>
      obtain rfl : origin = .interface := of_decide_eq_true he
      exact ofOrigins_multicastLeft h rfl (by decide)
    | _ => cases he
  · exact unicast_prefixRemoved h entry fun x hx => by simp [hx]
  · exact unicast_unicastRemoved h (fun e => by simp) fun x hx => by simp [hx]

end EntryTables

end DcuDaemon.Wfantund
