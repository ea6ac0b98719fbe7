/-
  On-mesh prefixes, off-mesh routes and interface routes of the C++ daemon
  (`src/wfantund/NCPInstanceBase-Addresses.cpp`, `src/ncp-spinel/SpinelNCPInstance.cpp`:
  `handle_ncp_spinel_value_is_ON_MESH_NETS`, `handle_ncp_spinel_value_is_OFF_MESH_ROUTES`).

  The tables are multimaps: one prefix may have several entries. A reported table is merged entry by
  entry, and what was not reported is taken out; the interface routes are recomputed from both tables.
  The entries come unpacked. SLAAC addresses and the push of user entries to the NCP are left out: they
  do not touch the routes.

  Main result: `lookup_refreshRoutesOnInterface`.
-/
import DcuDaemon.Firewall.PacketMatcher
import DcuDaemon.Instance.Addresses
import DcuDaemon.Lib.KeyedList

namespace DcuDaemon.Wfantund

open Addresses (Origin)
open Firewall (In6Addr)
open Lib List KeyedList

/-! ## 1. Tables -/

structure IPv6Prefix where
  addr : In6Addr
  length : UInt8
  deriving DecidableEq

/-- The constructor of `IPv6Prefix` cuts the bits beyond the length. -/
def IPv6Prefix.new (addr : In6Addr) (length : UInt8) : IPv6Prefix := ⟨addr.applyMask length, length⟩

inductive RoutePreference where
  | low
  | medium
  | high
  deriving DecidableEq, Repr

namespace RoutePreference

def value : RoutePreference → Int
  | low => -1
  | medium => 0
  | high => 1

/-- `kRouteMetricLow`, `kRouteMetricMedium`, `kRouteMetricHigh`. -/
def metric : RoutePreference → UInt32
  | low => 512
  | medium => 256
  | high => 1

/-- `convert_flags_to_route_preference`. -/
def ofFlags (flags : UInt8) : RoutePreference :=
  if flags &&& 0xC0 = 0x40 then high
  else if flags &&& 0xC0 = 0 then medium
  else if flags &&& 0xC0 = 0xC0 then low
  else medium

end RoutePreference

structure OnMeshPrefixEntry where
  origin : Origin
  flags : UInt16
  stable : Bool
  rloc : UInt16
  deriving DecidableEq

def OnMeshPrefixEntry.isOnMesh (e : OnMeshPrefixEntry) : Bool := e.flags &&& 1 = 1

/-- `operator==`: entries of another origin than the NCP are not told apart. -/
def OnMeshPrefixEntry.same (a b : OnMeshPrefixEntry) : Bool :=
  a.origin = b.origin ∧ (a.origin = .ncp → a.flags = b.flags ∧ a.stable = b.stable ∧ a.rloc = b.rloc)

structure OffMeshRouteEntry where
  origin : Origin
  preference : RoutePreference
  stable : Bool
  rloc : UInt16
  nextHopIsHost : Bool
  deriving DecidableEq

/-- `operator==`: the next hop does not count. -/
def OffMeshRouteEntry.same (a b : OffMeshRouteEntry) : Bool :=
  a.origin = b.origin ∧
    (a.origin = .ncp → a.preference = b.preference ∧ a.stable = b.stable ∧ a.rloc = b.rloc)

/-- `std::multimap<IPv6Prefix, E>`. -/
abbrev Multimap (E : Type) := List (IPv6Prefix × E)

section Multimap

variable {E : Type} (same : E → E → Bool) (m : Multimap E)

/-- The comparison of `find_prefix_entry` and `find_route_entry`. -/
def isEntry (x y : IPv6Prefix × E) : Bool := y.1 = x.1 ∧ same y.2 x.2

/-- `on_mesh_prefix_was_added`, `route_was_added`: an entry that is there is not added again. -/
def wasAdded (x : IPv6Prefix × E) : Multimap E := if m.any (isEntry same x) then m else m ++ [x]

/-- `on_mesh_prefix_was_removed`, `route_was_removed`, and the erasure from the copy. -/
def wasRemoved (x : IPv6Prefix × E) : Multimap E := m.eraseP (isEntry same x)

/-- The loop over the reported entries: each is taken out of the copy and added to the table. -/
def mergeLoop (copy m : Multimap E) (xs : List (IPv6Prefix × E)) : Multimap E × Multimap E :=
  xs.foldl (fun t x => (wasRemoved same t.1 x, wasAdded same t.2 x)) (copy, m)

/-- A whole report; `removed` is the entry that a removal asks for. -/
def mergeReported (origin : E → Origin) (removed : IPv6Prefix × E → IPv6Prefix × E)
    (xs : List (IPv6Prefix × E)) : Multimap E :=
  let (copy, m) := mergeLoop same m m xs
  (copy.filter fun x => origin x.2 = .ncp).foldl (fun m x => wasRemoved same m (removed x)) m

end Multimap

/-! ## 2. The daemon -/

/-- An entry of THREAD_ON_MESH_NETS, unpacked. -/
structure OnMeshNet where
  addr : In6Addr
  prefixLen : UInt8
  stable : Bool
  flags : UInt8
  isLocal : Bool
  rloc16 : UInt16
  flagsExtended : UInt8
  deriving DecidableEq

/-- An entry of THREAD_OFF_MESH_ROUTES, unpacked. -/
structure OffMeshRoute where
  addr : In6Addr
  prefixLen : UInt8
  isStable : Bool
  flags : UInt8
  isLocal : Bool
  nextHopIsThisDevice : Bool
  rloc16 : UInt16
  deriving DecidableEq

def OnMeshNet.entry (x : OnMeshNet) : IPv6Prefix × OnMeshPrefixEntry :=
  (.new x.addr x.prefixLen,
    ⟨.ncp, (x.flagsExtended.toUInt16 <<< 8) ||| x.flags.toUInt16, x.stable, x.rloc16⟩)

def OffMeshRoute.entry (x : OffMeshRoute) : IPv6Prefix × OffMeshRouteEntry :=
  (.new x.addr x.prefixLen, ⟨.ncp, .ofFlags x.flags, x.isStable, x.rloc16, x.nextHopIsThisDevice⟩)

/-- The tables of `NCPInstanceBase` that have to do with routes. -/
structure RouteTables where
  onMeshPrefixes : Multimap OnMeshPrefixEntry
  offMeshRoutes : Multimap OffMeshRouteEntry
  interfaceRoutes : HashTable IPv6Prefix UInt32

structure Settings where
  autoAddOffMeshRoutesOnInterface : Bool
  filterSelfAutoAddedOffMeshRoutes : Bool
  autoAddOnMeshPrefixesAsInterfaceRoutes : Bool

/-- The defaults: everything is enabled. -/
def Settings.default : Settings := ⟨true, true, true⟩

namespace RouteTables

/-- `handle_ncp_spinel_value_is_ON_MESH_NETS`. -/
def valueIsOnMeshNets (t : RouteTables) (nets : List OnMeshNet) : RouteTables :=
  { t with
    onMeshPrefixes := mergeReported OnMeshPrefixEntry.same t.onMeshPrefixes (·.origin)
      (fun x => (.new x.1.addr x.1.length, x.2))
      ((nets.filter fun x => !x.isLocal).map OnMeshNet.entry) }

/-- `handle_ncp_spinel_value_is_OFF_MESH_ROUTES`; a removal does not give the next hop. -/
def valueIsOffMeshRoutes (t : RouteTables) (routes : List OffMeshRoute) : RouteTables :=
  { t with
    offMeshRoutes := mergeReported OffMeshRouteEntry.same t.offMeshRoutes (·.origin)
      (fun x => (.new x.1.addr x.1.length, { x.2 with nextHopIsHost := false }))
      ((routes.filter fun x => !x.isLocal).map OffMeshRoute.entry) }

/-- The entry was added by the host or by this device. -/
def byDevice (e : OffMeshRouteEntry) : Bool := e.origin ≠ .ncp ∨ e.nextHopIsHost

/-- The highest preference, from low upwards. -/
def highestPreference (entries : List OffMeshRouteEntry) : RoutePreference :=
  entries.foldl (fun p e => if p.value < e.preference.value then e.preference else p) .low

/-- The metric that the off-mesh entries of a route give. -/
def offMeshMetric (cfg : Settings) (t : RouteTables) (route : IPv6Prefix) : Option UInt32 :=
  let entries := (t.offMeshRoutes.filter fun x => x.1 = route).map (·.2)
  let device := entries.filter byDevice
  let others := entries.filter fun e => !byDevice e
  if cfg.autoAddOffMeshRoutesOnInterface ∧ others ≠ [] ∧
      (device = [] ∨ ¬ cfg.filterSelfAutoAddedOffMeshRoutes ∧
        (highestPreference others).value > (highestPreference device).value) then
    some (highestPreference others).metric
  else none

/-- The metric that the on-mesh entries of a route give. -/
def onMeshMetric (cfg : Settings) (t : RouteTables) (route : IPv6Prefix) : Option UInt32 :=
  if cfg.autoAddOnMeshPrefixesAsInterfaceRoutes ∧
      t.onMeshPrefixes.any (fun x => x.1 = route ∧ x.2.origin = .ncp ∧ x.2.isOnMesh) then
    some RoutePreference.medium.metric
  else none

/-- `should_add_route_on_interface`: the metric of a route that should be added. -/
def shouldAddRouteOnInterface (cfg : Settings) (t : RouteTables) (route : IPv6Prefix) : Option UInt32 :=
  (t.offMeshMetric cfg route).or (t.onMeshMetric cfg route)

/-- The first loop of a refresh: a route that should not be there, or not with this metric, is removed. -/
def removeInvalid (wanted : IPv6Prefix → Option UInt32) :
    Nat → HashTable IPv6Prefix UInt32 → HashTable IPv6Prefix UInt32
  | 0, routes => routes
  | fuel + 1, routes =>
    match routes.entries.find? (fun x => wanted x.1 ≠ some x.2) with
    | none => routes
    | some x => removeInvalid wanted fuel (routes.erase x.1)

/-- The other loops of a refresh: the routes that should be there and are not. -/
def addMissing (wanted : IPv6Prefix → Option UInt32) (routes : HashTable IPv6Prefix UInt32)
    (prefixes : List IPv6Prefix) : HashTable IPv6Prefix UInt32 :=
  prefixes.foldl (fun routes route =>
    match wanted route with
    | some metric => if route ∈ routes then routes else routes.insert route metric
    | none => routes) routes

def refreshRoutesOnInterface (cfg : Settings) (t : RouteTables) : RouteTables :=
  let wanted := t.shouldAddRouteOnInterface cfg
  let routes := removeInvalid wanted t.interfaceRoutes.entries.length t.interfaceRoutes
  let routes := if cfg.autoAddOffMeshRoutesOnInterface then
    addMissing wanted routes (t.offMeshRoutes.map Prod.fst).dedup else routes
  let routes := if cfg.autoAddOnMeshPrefixesAsInterfaceRoutes then
    addMissing wanted routes (t.onMeshPrefixes.map Prod.fst) else routes
  { t with interfaceRoutes := routes }

end RouteTables

/-! ## 3. A reported table -/

section Merge

variable {E κ : Type} [DecidableEq κ] {same : E → E → Bool} {key : IPv6Prefix × E → κ}
  {S : IPv6Prefix × E → Prop} {m xs : Multimap E}

/-- On the entries in question the comparison is that of a key. -/
def ComparesBy (same : E → E → Bool) (key : IPv6Prefix × E → κ) (S : IPv6Prefix × E → Prop) : Prop :=
  ∀ x y, S x → S y → (isEntry same x y = true ↔ key y = key x)

variable {x : IPv6Prefix × E} {removed : IPv6Prefix × E → IPv6Prefix × E} {origin : E → Origin}

theorem wasAdded_eq (hS : ComparesBy same key S) (hm : ∀ y ∈ m, S y)
    (hx : S x) : wasAdded same m x = insertNew key m x := by
  have hany : m.any (isEntry same x) ↔ m.any (fun y => key y = key x) := by
    rw [any_key_iff, any_eq_true, mem_map]
    exact exists_congr fun y => and_congr_right fun hy => hS x y hx (hm y hy)
  unfold wasAdded insertNew
  simp only [hany]

theorem wasRemoved_eq (hS : ComparesBy same key S) (hm : ∀ y ∈ m, S y)
    (hx : S x) : wasRemoved same m x = eraseKey key m (key x) := by
  unfold wasRemoved eraseKey
  induction m with
  | nil => rfl
  | cons y m ih =>
    have hy := hS x y hx (hm y mem_cons_self)
    by_cases e : key y = key x
    · rw [eraseP_cons_of_pos (hy.mpr e), eraseP_cons_of_pos (by simpa using e)]
    · rw [eraseP_cons_of_neg (fun h => e (hy.mp h)), eraseP_cons_of_neg (by simpa using e),
        ih fun z hz => hm z (mem_cons_of_mem y hz)]

theorem forall_mem_insertNew (hm : ∀ y ∈ m, S y) (hx : S x) : ∀ y ∈ insertNew key m x, S y := by
  unfold insertNew
  split
  · exact hm
  · exact forall_mem_append.mpr ⟨hm, forall_mem_singleton.mpr hx⟩

theorem mergeLoop_eq (hS : ComparesBy same key S) (hxs : ∀ x ∈ xs, S x) {copy : Multimap E}
    (hcopy : ∀ y ∈ copy, S y) (hm : ∀ y ∈ m, S y) :
    mergeLoop same copy m xs = KeyedList.mergeLoop key copy m xs ∧
      ∀ y ∈ (KeyedList.mergeLoop key copy m xs).2, S y := by
  induction xs generalizing copy m with
  | nil => exact ⟨rfl, hm⟩
  | cons x xs ih =>
    have hx := hxs x mem_cons_self
    have hm' : ∀ y ∈ KeyedList.insertNew key m x, S y := forall_mem_insertNew hm hx
    obtain ⟨hloop, hall⟩ := ih (fun y hy => hxs y (mem_cons_of_mem x hy))
      (fun y hy => hcopy y (mem_of_mem_eraseP hy)) hm'
    refine ⟨?_, hall⟩
    show mergeLoop same (wasRemoved same copy x) (wasAdded same m x) xs = _
    rw [wasRemoved_eq hS hcopy hx, wasAdded_eq hS hm hx]
    exact hloop

theorem foldl_wasRemoved (hS : ComparesBy same key S)
    {ds : Multimap E} (hds : ∀ d ∈ ds, S (removed d) ∧ key (removed d) = key d) (hm : ∀ y ∈ m, S y) :
    ds.foldl (fun m x => wasRemoved same m (removed x)) m = eraseAll key m ds := by
  induction ds generalizing m with
  | nil => rfl
  | cons d ds ih =>
    obtain ⟨hd, hk⟩ := hds d mem_cons_self
    rw [foldl_cons, wasRemoved_eq hS hm hd, hk]
    exact ih (fun e he => hds e (mem_cons_of_mem d he)) fun y hy => hm y (mem_of_mem_eraseP hy)

/-- **A report is merged by the key of the entries.** -/
theorem mergeReported_eq (hS : ComparesBy same key S) (hm : ∀ y ∈ m, S y) (hxs : ∀ x ∈ xs, S x)
    (hremoved : ∀ y ∈ m, origin y.2 = .ncp → S (removed y) ∧ key (removed y) = key y) :
    mergeReported same m origin removed xs =
      KeyedList.merge key (fun x => decide (origin x.2 = .ncp)) m xs := by
  obtain ⟨hloop, hall⟩ := mergeLoop_eq hS hxs hm hm
  unfold mergeReported KeyedList.merge
  rw [hloop]
  refine foldl_wasRemoved hS (fun d hd => ?_) hall
  obtain ⟨hd, horigin⟩ := mem_filter.mp hd
  exact hremoved d ((KeyedList.sublist_mergeLoop m m xs).subset hd) (by simpa using horigin)

end Merge

/-! ## 4. The refresh -/

namespace RouteTables

section Refresh

variable (wanted : IPv6Prefix → Option UInt32)

def kept (routes : HashTable IPv6Prefix UInt32) : IPv6Prefix → Option UInt32 :=
  fun p => if wanted p = routes.lookup p then routes.lookup p else none

variable {wanted} {routes : HashTable IPv6Prefix UInt32}
variable {p : IPv6Prefix} {m : UInt32}

theorem kept_erase (hp : routes.lookup p = some m)
    (hbad : wanted p ≠ some m) : kept wanted (routes.erase p) = kept wanted routes := by
  funext q
  unfold kept
  by_cases e : q = p
  · subst e
    rw [AList.lookup_erase, ite_self, hp, if_neg hbad]
  · rw [AList.lookup_erase_ne e]

theorem kept_of_valid (h : ∀ p m, routes.lookup p = some m → wanted p = some m) :
    kept wanted routes = fun p => routes.lookup p := by
  funext p
  unfold kept
  cases hp : routes.lookup p with
  | none => exact ite_self none
  | some m => rw [if_pos (h p m hp)]

theorem length_erase_add_one (hp : routes.lookup p = some m) :
    (routes.erase p).entries.length + 1 = routes.entries.length :=
  length_eraseP_add_one (AList.mem_lookup_iff.mp hp) (by simp)

theorem lookup_eq_none_of_length (h : routes.entries.length = 0) (p : IPv6Prefix) :
    routes.lookup p = none := by
  refine Option.eq_none_iff_forall_not_mem.mpr fun m hm => ?_
  have hmem := AList.mem_lookup_iff.mp hm
  rw [eq_nil_of_length_eq_zero h] at hmem
  exact not_mem_nil hmem

variable (wanted)

theorem lookup_removeInvalid (p : IPv6Prefix) (fuel : Nat) (routes : HashTable IPv6Prefix UInt32)
    (hfuel : routes.entries.length ≤ fuel) :
    (removeInvalid wanted fuel routes).lookup p = kept wanted routes p := by
  induction fuel generalizing routes with
  | zero =>
    have hnone : routes.lookup p = none := lookup_eq_none_of_length (Nat.le_zero.mp hfuel) p
    rw [removeInvalid, kept, hnone, ite_self]
  | succ fuel ih =>
    rw [removeInvalid]
    split
    · rename_i hall
      have hvalid : ∀ q m, routes.lookup q = some m → wanted q = some m := by
        intro q m hq
        have hx := find?_eq_none.mp hall ⟨q, m⟩ (AList.mem_lookup_iff.mp hq)
        rwa [decide_eq_true_eq, not_not] at hx
      rw [kept_of_valid hvalid]
    · rename_i x hx
      have hlookup : routes.lookup x.1 = some x.2 := AList.mem_lookup_iff.mpr (mem_of_find?_eq_some hx)
      have hbad : wanted x.1 ≠ some x.2 := by simpa using find?_some hx
      have hlen : (routes.erase x.1).entries.length ≤ fuel := by
        have hone := length_erase_add_one hlookup
        omega
      rw [ih _ hlen, kept_erase hlookup hbad]

theorem lookup_addMissing (p : IPv6Prefix) (prefixes : List IPv6Prefix)
    (routes : HashTable IPv6Prefix UInt32) :
    (addMissing wanted routes prefixes).lookup p =
      (routes.lookup p).or (if p ∈ prefixes then wanted p else none) := by
  induction prefixes generalizing routes with
  | nil => simp [addMissing]
  | cons q prefixes ih =>
    rw [addMissing, foldl_cons, ← addMissing, ih]
    cases hq : wanted q with
    | none =>
      by_cases e : p = q
      · simp [e, hq]
      · simp [e]
    | some metric =>
      by_cases hmem : q ∈ routes
      · by_cases e : p = q
        · subst e
          obtain ⟨v, hv⟩ := Option.isSome_iff_exists.mp (AList.lookup_isSome.mpr hmem)
          simp [hmem, hv]
        · simp [e, hmem]
      · by_cases e : p = q
        · subst e
          simp [hmem, hq, AList.lookup_eq_none.mpr hmem]
        · simp [e, hmem]

end Refresh

variable {cfg : Settings} {t : RouteTables} {p : IPv6Prefix} {metric : UInt32}

theorem mem_of_offMeshMetric (h : t.offMeshMetric cfg p = some metric) :
    cfg.autoAddOffMeshRoutesOnInterface ∧ p ∈ t.offMeshRoutes.map Prod.fst := by
  unfold offMeshMetric at h
  dsimp only at h
  split at h
  · rename_i hc
    obtain ⟨hauto, hothers, -⟩ := hc
    obtain ⟨e, he⟩ := exists_mem_of_ne_nil _ hothers
    obtain ⟨x, hx, -⟩ := mem_map.mp (mem_filter.mp he).1
    obtain ⟨hx, hp⟩ := mem_filter.mp hx
    exact ⟨hauto, mem_map.mpr ⟨x, hx, by simpa using hp⟩⟩
  · cases h

theorem mem_of_onMeshMetric (h : t.onMeshMetric cfg p = some metric) :
    cfg.autoAddOnMeshPrefixesAsInterfaceRoutes ∧ p ∈ t.onMeshPrefixes.map Prod.fst := by
  unfold onMeshMetric at h
  split at h
  · rename_i hc
    obtain ⟨hauto, hany⟩ := hc
    obtain ⟨x, hx, hp⟩ := any_eq_true.mp hany
    rw [decide_eq_true_eq] at hp
    exact ⟨hauto, mem_map.mpr ⟨x, hx, hp.1⟩⟩
  · cases h

theorem kept_or_added (cfg : Settings) (t : RouteTables) (p : IPv6Prefix) :
    ((if t.shouldAddRouteOnInterface cfg p = t.interfaceRoutes.lookup p then t.interfaceRoutes.lookup p
        else none).or
      (if cfg.autoAddOffMeshRoutesOnInterface ∧ p ∈ t.offMeshRoutes.map Prod.fst then
        t.shouldAddRouteOnInterface cfg p else none)).or
      (if cfg.autoAddOnMeshPrefixesAsInterfaceRoutes ∧ p ∈ t.onMeshPrefixes.map Prod.fst then
        t.shouldAddRouteOnInterface cfg p else none) = t.shouldAddRouteOnInterface cfg p := by
  cases hwanted : t.shouldAddRouteOnInterface cfg p with
  | none =>
    by_cases e : none = t.interfaceRoutes.lookup p
    · simp [← e]
    · simp [e]
  | some metric =>
    have hmem : (cfg.autoAddOffMeshRoutesOnInterface ∧ p ∈ t.offMeshRoutes.map Prod.fst) ∨
        (cfg.autoAddOnMeshPrefixesAsInterfaceRoutes ∧ p ∈ t.onMeshPrefixes.map Prod.fst) := by
      rcases Option.or_eq_some_iff.mp hwanted with h | ⟨-, h⟩
      · exact .inl (mem_of_offMeshMetric h)
      · exact .inr (mem_of_onMeshMetric h)
    split
    · rename_i e
      rw [← e]
      rfl
    · rcases hmem with h | h
      · simp [if_pos h]
      · rw [if_pos h]
        split
        · rfl
        · rfl

/-- **After a refresh the interface routes are exactly the wanted ones**, whatever they were. -/
theorem lookup_refreshRoutesOnInterface (cfg : Settings) (t : RouteTables) (p : IPv6Prefix) :
    (t.refreshRoutesOnInterface cfg).interfaceRoutes.lookup p = t.shouldAddRouteOnInterface cfg p := by
  have h₁ := lookup_removeInvalid (t.shouldAddRouteOnInterface cfg) p _ t.interfaceRoutes le_rfl
  have hif : ∀ (b : Bool) (routes : HashTable IPv6Prefix UInt32) (ps : List IPv6Prefix),
      (if b then addMissing (t.shouldAddRouteOnInterface cfg) routes ps else routes).lookup p =
        (routes.lookup p).or (if b ∧ p ∈ ps then t.shouldAddRouteOnInterface cfg p else none) := by
    intro b routes ps
    cases b with
    | true => simp [lookup_addMissing]
    | false => simp
  unfold refreshRoutesOnInterface
  simp only [hif, h₁, mem_dedup]
  exact kept_or_added cfg t p

end RouteTables

end DcuDaemon.Wfantund
