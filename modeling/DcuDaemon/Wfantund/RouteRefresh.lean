/-
  When the routes of the primary interface are recomputed, and with which calls
  (`src/wfantund/NCPInstanceBase-Addresses.cpp`, the setters of `NCPInstanceBase.cpp`).

  The routes follow from the two tables and three settings. They are recomputed by
  `refresh_routes_on_interface`, and only after something has set `mRequestRouteRefresh`. The removal of
  the NCP's on-mesh prefixes does not set it, nor do the setters of the three settings.

  Main results: `refresh_installs_wanted`, `refresh_twice`, `routes_current_iff`.
-/
import DcuDaemon.Wfantund.Routes

namespace DcuDaemon.Wfantund

open Addresses (Origin)
open Firewall (In6Addr)
open Lib List RouteTables

/-! ## 1. A refresh, with its calls -/

/-- The calls that change the routes of the primary interface. -/
inductive RouteCall where
  | addRoute (route : IPv6Prefix) (metric : UInt32)
  | removeRoute (route : IPv6Prefix) (metric : UInt32)
  deriving DecidableEq

/-- The orders in which the maps are gone through; those of the source are sorted by the prefix. -/
structure MapOrders where
  routes : Iteration IPv6Prefix UInt32
  prefixes : List IPv6Prefix → List IPv6Prefix
  perm : ∀ ps, (prefixes ps).Perm ps

/-- The maps in the order in which they are stored. -/
def MapOrders.stored : MapOrders := ⟨Iteration.stored _ _, id, fun _ => .refl _⟩

namespace RouteTables

/-- One pass of the first loop: the first route that should not be there, or not with this metric, is
    removed. -/
def removePass (orders : MapOrders) (wanted : IPv6Prefix → Option UInt32)
    (routes : HashTable IPv6Prefix UInt32) : Option (HashTable IPv6Prefix UInt32 × RouteCall) :=
  ((orders.routes.order routes).find? fun x => wanted x.1 ≠ some x.2).map fun x =>
    (routes.erase x.1, .removeRoute x.1 x.2)

/-- `do .. while (did_remove)`, for at most so many passes; `none` when it still goes on. -/
def removeLoop (orders : MapOrders) (wanted : IPv6Prefix → Option UInt32) :
    Nat → HashTable IPv6Prefix UInt32 → Option (HashTable IPv6Prefix UInt32 × List RouteCall)
  | 0, _ => none
  | fuel + 1, routes =>
    match removePass orders wanted routes with
    | none => some (routes, [])
    | some (routes', call) =>
      (removeLoop orders wanted fuel routes').map fun r => (r.1, call :: r.2)

/-- One turn of the other loops. -/
def addRound (wanted : IPv6Prefix → Option UInt32) (routes : HashTable IPv6Prefix UInt32)
    (route : IPv6Prefix) : HashTable IPv6Prefix UInt32 × List RouteCall :=
  match wanted route with
  | some metric =>
    if route ∈ routes then (routes, []) else (routes.insert route metric, [.addRoute route metric])
  | none => (routes, [])

/-- A loop that is only run with its setting. -/
def addLoop (enabled : Bool) (wanted : IPv6Prefix → Option UInt32)
    (routes : HashTable IPv6Prefix UInt32) (prefixes : List IPv6Prefix) :
    HashTable IPv6Prefix UInt32 × List RouteCall :=
  if enabled then forEach (addRound wanted) routes prefixes else (routes, [])

/-- Both of them: the off-mesh table is gone through prefix by prefix (`upper_bound`), the on-mesh table
    entry by entry. -/
def addLoops (orders : MapOrders) (cfg : Settings) (t : RouteTables)
    (routes : HashTable IPv6Prefix UInt32) : HashTable IPv6Prefix UInt32 × List RouteCall :=
  let wanted := t.shouldAddRouteOnInterface cfg
  let off := addLoop cfg.autoAddOffMeshRoutesOnInterface wanted routes
    (orders.prefixes (t.offMeshRoutes.map Prod.fst)).dedup
  let on := addLoop cfg.autoAddOnMeshPrefixesAsInterfaceRoutes wanted off.1
    (orders.prefixes (t.onMeshPrefixes.map Prod.fst))
  (on.1, off.2 ++ on.2)

/-- `refresh_routes_on_interface`, with the calls it makes. -/
def refreshWithCalls (orders : MapOrders) (cfg : Settings) (t : RouteTables) (fuel : Nat) :
    Option (RouteTables × List RouteCall) :=
  (removeLoop orders (t.shouldAddRouteOnInterface cfg) fuel t.interfaceRoutes).map fun removed =>
    let added := t.addLoops orders cfg removed.1
    ({ t with interfaceRoutes := added.1 }, removed.2 ++ added.2)

end RouteTables

/-- The routes of the interface, each with its metric. -/
abbrev InterfaceRoutes := IPv6Prefix → Option UInt32

def routesOf (routes : HashTable IPv6Prefix UInt32) : InterfaceRoutes := fun p => routes.lookup p

/-- A possible call: what is added is not there, and what is removed is there with this metric. -/
def RouteCall.apply (routes : InterfaceRoutes) : RouteCall → Option InterfaceRoutes
  | .addRoute route metric =>
    if routes route = none then some (Function.update routes route (some metric)) else none
  | .removeRoute route metric =>
    if routes route = some metric then some (Function.update routes route none) else none

/-! ## 2. What a refresh does -/

namespace RouteTables

section Refresh

variable (orders : MapOrders) {wanted : IPv6Prefix → Option UInt32}
  {routes routes' : HashTable IPv6Prefix UInt32}

theorem removePass_eq_none :
    removePass orders wanted routes = none ↔ ∀ p m, routes.lookup p = some m → wanted p = some m := by
  rw [removePass, Option.map_eq_none_iff, find?_eq_none]
  constructor
  · intro h p m hp
    have hx := h ⟨p, m⟩ ((orders.routes.mem_order routes p m).mpr hp)
    simpa using hx
  · intro h x hx
    have hp := (orders.routes.mem_order routes x.1 x.2).mp hx
    simpa using h x.1 x.2 hp

theorem removePass_eq_some {call : RouteCall} (h : removePass orders wanted routes = some (routes', call)) :
    ∃ p m, routes.lookup p = some m ∧ wanted p ≠ some m ∧ routes' = routes.erase p ∧
      call = .removeRoute p m := by
  obtain ⟨x, hx, hres⟩ := Option.map_eq_some_iff.mp h
  cases hres
  refine ⟨x.1, x.2, ?_, by simpa using find?_some hx, rfl, rfl⟩
  exact (orders.routes.mem_order routes x.1 x.2).mp (mem_of_find?_eq_some hx)

theorem follows_remove {p : IPv6Prefix} {m : UInt32} (hp : routes.lookup p = some m) :
    Follows RouteCall.apply routesOf routes (routes.erase p, [.removeRoute p m]) := by
  have hcall : RouteCall.apply (routesOf routes) (.removeRoute p m) =
      some (Function.update (routesOf routes) p none) := if_pos hp
  show (RouteCall.apply (routesOf routes) (.removeRoute p m)).bind some = _
  rw [hcall]
  exact congrArg some (HashTable.map_lookup_erase id routes p).symm

theorem follows_addRound (wanted : IPv6Prefix → Option UInt32) (routes : HashTable IPv6Prefix UInt32)
    (route : IPv6Prefix) : Follows RouteCall.apply routesOf routes (addRound wanted routes route) := by
  unfold addRound
  split
  · rename_i metric _
    split
    · exact follows_nil rfl
    · rename_i hnew
      have hcall : RouteCall.apply (routesOf routes) (.addRoute route metric) =
          some (Function.update (routesOf routes) route (some metric)) :=
        if_pos (AList.lookup_eq_none.mpr hnew)
      show (RouteCall.apply (routesOf routes) (.addRoute route metric)).bind some = _
      rw [hcall]
      exact congrArg some (HashTable.map_lookup_insert id routes route metric).symm
  · exact follows_nil rfl

theorem follows_addLoop (enabled : Bool) (wanted : IPv6Prefix → Option UInt32)
    (routes : HashTable IPv6Prefix UInt32) (prefixes : List IPv6Prefix) :
    Follows RouteCall.apply routesOf routes (addLoop enabled wanted routes prefixes) := by
  cases enabled with
  | false => exact follows_nil rfl
  | true => exact follows_forEach_all (follows_addRound wanted) routes prefixes

theorem forEach_addRound (wanted : IPv6Prefix → Option UInt32) (routes : HashTable IPv6Prefix UInt32)
    (prefixes : List IPv6Prefix) :
    (forEach (addRound wanted) routes prefixes).1 = addMissing wanted routes prefixes := by
  induction prefixes generalizing routes with
  | nil => rfl
  | cons route prefixes ih =>
    have hround : (addRound wanted routes route).1 =
        match wanted route with
        | some metric => if route ∈ routes then routes else routes.insert route metric
        | none => routes := by
      unfold addRound
      cases wanted route with
      | none => rfl
      | some metric =>
        dsimp only
        split
        · rfl
        · rfl
    exact (ih _).trans (congrArg (fun r => addMissing wanted r prefixes) hround)

theorem lookup_addLoop (enabled : Bool) (routes : HashTable IPv6Prefix UInt32)
    (prefixes : List IPv6Prefix) (p : IPv6Prefix) :
    (addLoop enabled wanted routes prefixes).1.lookup p =
      (routes.lookup p).or (if enabled ∧ p ∈ prefixes then wanted p else none) := by
  cases enabled with
  | false => simp [addLoop]
  | true => simp [addLoop, forEach_addRound, lookup_addMissing]

/-- **The first loop ends** with the routes that are as wanted, and the calls lead there. -/
theorem removeLoop_ends (wanted : IPv6Prefix → Option UInt32) (routes : HashTable IPv6Prefix UInt32) :
    ∃ r, (∀ fuel, routes.entries.length < fuel → removeLoop orders wanted fuel routes = some r) ∧
      routesOf r.1 = kept wanted routes ∧ Follows RouteCall.apply routesOf routes r := by
  -- every pass but the last one takes a route out
  induction hn : routes.entries.length using Nat.strong_induction_on generalizing routes with
  | h n ih =>
    cases hpass : removePass orders wanted routes with
    | none =>
      have hvalid := (removePass_eq_none orders).mp hpass
      refine ⟨(routes, []), fun fuel hfuel => ?_, (kept_of_valid hvalid).symm, follows_nil rfl⟩
      obtain ⟨k, rfl⟩ := Nat.exists_eq_succ_of_ne_zero (ne_of_gt (Nat.zero_lt_of_lt hfuel))
      rw [removeLoop, hpass]
    | some x =>
      obtain ⟨p, m, hp, hbad, hroutes, hcall⟩ := removePass_eq_some orders hpass
      have hone := length_erase_add_one hp
      obtain ⟨r, hloop, hkept, hfollows⟩ := ih _ (by omega) (routes.erase p) rfl
      refine ⟨(r.1, .removeRoute p m :: r.2), fun fuel hfuel => ?_, ?_, ?_⟩
      · obtain ⟨k, rfl⟩ := Nat.exists_eq_succ_of_ne_zero (ne_of_gt (Nat.zero_lt_of_lt hfuel))
        rw [removeLoop, hpass]
        dsimp only
        rw [hroutes, hcall, hloop k (by omega)]
        rfl
      · exact hkept.trans (kept_erase hp hbad)
      · exact follows_append (follows_remove hp) hfollows

theorem addLoop_of_current (h : ∀ p, routes.lookup p = wanted p) (enabled : Bool)
    (prefixes : List IPv6Prefix) : addLoop enabled wanted routes prefixes = (routes, []) := by
  have hround : ∀ p, addRound wanted routes p = (routes, []) := by
    intro p
    rw [addRound, ← h p]
    cases hp : routes.lookup p with
    | none => rfl
    | some m => exact if_pos (AList.lookup_isSome.mp (by rw [hp]; rfl))
  have hrounds : forEach (addRound wanted) routes prefixes = (routes, []) := by
    induction prefixes with
    | nil => rfl
    | cons p prefixes ih => simp [forEach, hround, ih]
  cases enabled with
  | false => rfl
  | true => exact hrounds

end Refresh

theorem follows_addLoops (orders : MapOrders) (cfg : Settings) (t : RouteTables)
    (routes : HashTable IPv6Prefix UInt32) :
    Follows RouteCall.apply routesOf routes (t.addLoops orders cfg routes) :=
  follows_append (follows_addLoop _ _ _ _) (follows_addLoop _ _ _ _)

/-- **The other loops** add what is wanted and was not kept: it has an entry in a table that one of
    them goes through. -/
theorem lookup_addLoops (orders : MapOrders) (cfg : Settings) (t : RouteTables)
    {routes : HashTable IPv6Prefix UInt32}
    (hkept : routesOf routes = kept (t.shouldAddRouteOnInterface cfg) t.interfaceRoutes)
    (p : IPv6Prefix) :
    (t.addLoops orders cfg routes).1.lookup p = t.shouldAddRouteOnInterface cfg p := by
  have hp : routes.lookup p = kept (t.shouldAddRouteOnInterface cfg) t.interfaceRoutes p := congrFun hkept p
  unfold addLoops
  rw [lookup_addLoop, lookup_addLoop, hp]
  simp only [mem_dedup, (orders.perm _).mem_iff]
  exact kept_or_added cfg t p

/-- **A refresh** ends in every order of the maps. The routes are exactly those that
    `should_add_route_on_interface` asks for, each with its metric, and no call is refused. -/
theorem refresh_installs_wanted (orders : MapOrders) (cfg : Settings) (t : RouteTables) :
    ∃ n t' calls, (∀ fuel, n ≤ fuel → t.refreshWithCalls orders cfg fuel = some (t', calls)) ∧
      t'.onMeshPrefixes = t.onMeshPrefixes ∧ t'.offMeshRoutes = t.offMeshRoutes ∧
      (∀ p, t'.interfaceRoutes.lookup p = t'.shouldAddRouteOnInterface cfg p) ∧
      replay RouteCall.apply (routesOf t.interfaceRoutes) calls = some (routesOf t'.interfaceRoutes) := by
  obtain ⟨r, hloop, hkept, hremoved⟩ :=
    removeLoop_ends orders (t.shouldAddRouteOnInterface cfg) t.interfaceRoutes
  refine ⟨t.interfaceRoutes.entries.length + 1,
    { t with interfaceRoutes := (t.addLoops orders cfg r.1).1 }, r.2 ++ (t.addLoops orders cfg r.1).2,
    fun fuel hfuel => ?_, rfl, rfl, fun p => ?_,
    follows_append hremoved (follows_addLoops orders cfg t r.1)⟩
  · rw [refreshWithCalls, hloop fuel hfuel]
    rfl
  · exact lookup_addLoops orders cfg t hkept p

theorem refresh_of_current {orders : MapOrders} {cfg : Settings} {t : RouteTables}
    (h : ∀ p, t.interfaceRoutes.lookup p = t.shouldAddRouteOnInterface cfg p) (fuel : Nat) :
    t.refreshWithCalls orders cfg (fuel + 1) = some (t, []) := by
  have hpass : removePass orders (t.shouldAddRouteOnInterface cfg) t.interfaceRoutes = none :=
    (removePass_eq_none orders).mpr fun p m hp => by rw [← h, hp]
  simp [refreshWithCalls, removeLoop, hpass, addLoops, addLoop_of_current h]

/-- **A second refresh does nothing**, in whatever order it goes through the tables. -/
theorem refresh_twice (orders orders' : MapOrders) (cfg : Settings) (t : RouteTables) :
    ∃ n t' calls, (∀ fuel, n ≤ fuel → t.refreshWithCalls orders cfg fuel = some (t', calls)) ∧
      ∀ fuel, t'.refreshWithCalls orders' cfg (fuel + 1) = some (t', []) := by
  obtain ⟨r, hloop, hkept, -⟩ := removeLoop_ends orders (t.shouldAddRouteOnInterface cfg) t.interfaceRoutes
  refine ⟨t.interfaceRoutes.entries.length + 1, { t with interfaceRoutes := (t.addLoops orders cfg r.1).1 },
    r.2 ++ (t.addLoops orders cfg r.1).2, fun fuel hfuel => ?_,
    refresh_of_current (lookup_addLoops orders cfg t hkept)⟩
  rw [refreshWithCalls, hloop fuel hfuel]
  rfl

-- a route of another length goes, that of the on-mesh prefix comes
example (addr : In6Addr) (h : addr = ⟨0xfd :: replicate 15 0, rfl⟩) :
    (refreshWithCalls .stored .default
      ⟨[(⟨addr, 64⟩, ⟨.ncp, 0x31, true, 0x5400⟩)], [], (∅ : HashTable _ _).insert ⟨addr, 48⟩ 256⟩ 2).map
        Prod.snd = some [.removeRoute ⟨addr, 48⟩ 256, .addRoute ⟨addr, 64⟩ 256] := by
  subst h
  decide +kernel

end RouteTables

/-! ## 3. Events -/

/-- `do .. while (did_remove)` around a search: the first entry with a property is erased, as long as
    there is one. -/
def removeWhere {α : Type} (p : α → Bool) : Nat → List α → List α
  | 0, l => l
  | fuel + 1, l => if l.any p then removeWhere p fuel (l.eraseP p) else l

theorem removeWhere_eq_filter {α : Type} (p : α → Bool) {fuel : Nat} {l : List α}
    (h : l.length ≤ fuel) : removeWhere p fuel l = l.filter fun x => !p x := by
  induction fuel generalizing l with
  | zero =>
    rw [eq_nil_of_length_eq_zero (Nat.le_zero.mp h)]
    rfl
  | succ fuel ih =>
    rw [removeWhere]
    split
    · rename_i hany
      obtain ⟨x, hx, hp⟩ := any_eq_true.mp hany
      have hlen : (l.eraseP p).length ≤ fuel := by
        have hlt := length_eraseP_add_one hx hp
        omega
      rw [ih hlen]
      -- what was erased does not pass the filter
      obtain ⟨y, l₁, l₂, -, hy, hl, herase⟩ := exists_of_eraseP hx hp
      rw [herase, hl, filter_append, filter_append, filter_cons_of_neg (by simp [hy])]
    · rename_i hany
      refine (filter_eq_self.mpr fun x hx => ?_).symm
      have hno : ¬ p x := fun hp => hany (any_eq_true.mpr ⟨x, hx, hp⟩)
      simpa using hno

/-- The part of `NCPInstanceBase` that decides about the routes of the interface. -/
structure RouteState where
  tables : RouteTables
  settings : Settings
  requestRouteRefresh : Bool

inductive RouteEvent where
  /-- `on_mesh_prefix_was_added`, `on_mesh_prefix_was_removed`. -/
  | onMeshAdded (addr : In6Addr) (prefixLen : UInt8) (entry : OnMeshPrefixEntry)
  | onMeshRemoved (addr : In6Addr) (prefixLen : UInt8) (entry : OnMeshPrefixEntry)
  /-- `route_was_added`, `route_was_removed`; a removal does not give the next hop. -/
  | routeAdded (addr : In6Addr) (prefixLen : UInt8) (entry : OffMeshRouteEntry)
  | routeRemoved (addr : In6Addr) (prefixLen : UInt8) (entry : OffMeshRouteEntry)
  /-- `remove_ncp_originated_address_prefix_route_entries`. -/
  | removeNcpOriginated
  /-- `remove_all_address_prefix_route_entries`. -/
  | removeAll
  /-- `set_prop_DaemonOffMeshRouteAutoAddOnInterface`. -/
  | setAutoAddOffMeshRoutes (value : Bool)
  /-- `set_prop_DaemonOffMeshRouteFilterSelfAutoAdded`. -/
  | setFilterSelfAutoAdded (value : Bool)
  /-- `set_prop_DaemonOnMeshPrefixAutoAddAsIfaceRoute`. -/
  | setAutoAddOnMeshPrefixes (value : Bool)
  /-- `refresh_address_route_prefix_entries`. -/
  | refresh

namespace RouteState

def start (settings : Settings) : RouteState := ⟨⟨[], [], ∅⟩, settings, false⟩

variable (s : RouteState)

/-- Whether `find_prefix_entry` finds an entry. -/
def hasPrefix (x : IPv6Prefix × OnMeshPrefixEntry) : Bool :=
  s.tables.onMeshPrefixes.any (isEntry OnMeshPrefixEntry.same x)

/-- Whether `find_route_entry` finds an entry. -/
def hasRoute (x : IPv6Prefix × OffMeshRouteEntry) : Bool :=
  s.tables.offMeshRoutes.any (isEntry OffMeshRouteEntry.same x)

/-- The on-mesh table is changed; a refresh is requested if prefixes are added as routes. -/
def withPrefixes (m : Multimap OnMeshPrefixEntry) : RouteState :=
  { s with
    tables := { s.tables with onMeshPrefixes := m }
    requestRouteRefresh :=
      s.requestRouteRefresh || s.settings.autoAddOnMeshPrefixesAsInterfaceRoutes }

/-- The off-mesh table is changed; a refresh is requested. -/
def withRoutes (m : Multimap OffMeshRouteEntry) : RouteState :=
  { s with tables := { s.tables with offMeshRoutes := m }, requestRouteRefresh := true }

def onMeshPrefixWasAdded (x : IPv6Prefix × OnMeshPrefixEntry) : RouteState :=
  if s.hasPrefix x then s
  else s.withPrefixes (wasAdded OnMeshPrefixEntry.same s.tables.onMeshPrefixes x)

def onMeshPrefixWasRemoved (x : IPv6Prefix × OnMeshPrefixEntry) : RouteState :=
  if s.hasPrefix x then s.withPrefixes (wasRemoved OnMeshPrefixEntry.same s.tables.onMeshPrefixes x)
  else s

def routeWasAdded (x : IPv6Prefix × OffMeshRouteEntry) : RouteState :=
  if s.hasRoute x then s
  else s.withRoutes (wasAdded OffMeshRouteEntry.same s.tables.offMeshRoutes x)

def routeWasRemoved (x : IPv6Prefix × OffMeshRouteEntry) : RouteState :=
  if s.hasRoute x then s.withRoutes (wasRemoved OffMeshRouteEntry.same s.tables.offMeshRoutes x)
  else s

/-- `remove_ncp_originated_address_prefix_route_entries`: only the loop over the off-mesh routes
    requests a refresh. -/
def removeNcpOriginated : RouteState :=
  { s with
    tables := { s.tables with
      onMeshPrefixes := removeWhere (fun x => x.2.origin = .ncp) s.tables.onMeshPrefixes.length
        s.tables.onMeshPrefixes
      offMeshRoutes := removeWhere (fun x => x.2.origin = .ncp) s.tables.offMeshRoutes.length
        s.tables.offMeshRoutes }
    requestRouteRefresh :=
      s.requestRouteRefresh || s.tables.offMeshRoutes.any fun x => x.2.origin = .ncp }

/-- `refresh_address_route_prefix_entries`. -/
def refreshEntries : RouteState :=
  if s.requestRouteRefresh then
    { s with tables := s.tables.refreshRoutesOnInterface s.settings, requestRouteRefresh := false }
  else s

def withSettings (settings : Settings) : RouteState := { s with settings }

def step : RouteEvent → RouteState
  | .onMeshAdded addr prefixLen entry => s.onMeshPrefixWasAdded (.new addr prefixLen, entry)
  | .onMeshRemoved addr prefixLen entry => s.onMeshPrefixWasRemoved (.new addr prefixLen, entry)
  | .routeAdded addr prefixLen entry => s.routeWasAdded (.new addr prefixLen, entry)
  | .routeRemoved addr prefixLen entry =>
    s.routeWasRemoved (.new addr prefixLen, { entry with nextHopIsHost := false })
  | .removeNcpOriginated => s.removeNcpOriginated
  | .removeAll => { s with tables := ⟨[], [], ∅⟩ }
  | .setAutoAddOffMeshRoutes value =>
    s.withSettings { s.settings with autoAddOffMeshRoutesOnInterface := value }
  | .setFilterSelfAutoAdded value =>
    s.withSettings { s.settings with filterSelfAutoAddedOffMeshRoutes := value }
  | .setAutoAddOnMeshPrefixes value =>
    s.withSettings { s.settings with autoAddOnMeshPrefixesAsInterfaceRoutes := value }
  | .refresh => s.refreshEntries

/-! ## 4. Silent changes -/

/-- What `should_add_route_on_interface` answers. -/
def answers : InterfaceRoutes := s.tables.shouldAddRouteOnInterface s.settings

/-- The routes of the interface are the ones that are asked for, unless a refresh is requested. -/
def Current : Prop := s.requestRouteRefresh = false → ∀ p, s.tables.interfaceRoutes.lookup p = s.answers p

/-- Other settings are silent only if no answer changes. -/
def SameAnswers (settings : Settings) : Prop :=
  s.requestRouteRefresh = true ∨ ∀ p, s.tables.shouldAddRouteOnInterface settings p = s.answers p

/-- **No answer changes silently**: settings are changed, or the NCP's entries removed, while a refresh is
    requested or with no effect on the answers. The removal requests one itself if there are off-mesh
    routes. -/
def NotSilent : RouteEvent → Prop
  | .removeNcpOriginated =>
    s.requestRouteRefresh = true ∨ (∃ x ∈ s.tables.offMeshRoutes, x.2.origin = .ncp) ∨
      s.settings.autoAddOnMeshPrefixesAsInterfaceRoutes = false ∨
      ∀ x ∈ s.tables.onMeshPrefixes, x.2.origin = .ncp → x.2.isOnMesh = false
  | .setAutoAddOffMeshRoutes value =>
    s.SameAnswers { s.settings with autoAddOffMeshRoutesOnInterface := value }
  | .setFilterSelfAutoAdded value =>
    s.SameAnswers { s.settings with filterSelfAutoAddedOffMeshRoutes := value }
  | .setAutoAddOnMeshPrefixes value =>
    s.SameAnswers { s.settings with autoAddOnMeshPrefixesAsInterfaceRoutes := value }
  | _ => True

section Steps

variable {s s' : RouteState}

theorem current_of_requested (h : s.requestRouteRefresh) : s.Current := by
  intro hno
  rw [h] at hno
  cases hno

/-- A step that leaves the routes and the request alone keeps the routes current exactly if it leaves
    the answers alone. -/
theorem current_iff_answers (h : s.Current)
    (hroutes : s'.tables.interfaceRoutes = s.tables.interfaceRoutes)
    (hrequest : s'.requestRouteRefresh = s.requestRouteRefresh) :
    s'.Current ↔ s.requestRouteRefresh ∨ ∀ p, s'.answers p = s.answers p := by
  unfold Current
  rw [hroutes, hrequest]
  cases hr : s.requestRouteRefresh with
  | true => simp
  | false =>
    simp only [true_implies, Bool.false_eq_true, false_or]
    exact forall_congr' fun p => by rw [h hr p, eq_comm]

theorem answers_of_disabled {m : Multimap OnMeshPrefixEntry}
    (h : s.settings.autoAddOnMeshPrefixesAsInterfaceRoutes = false) :
    (s.withPrefixes m).answers = s.answers := by
  funext p
  have hnone : ∀ t : RouteTables, t.onMeshMetric s.settings p = none := fun t => by
    rw [onMeshMetric, h]
    exact if_neg fun hc => Bool.false_ne_true hc.1
  show (offMeshMetric s.settings _ p).or (onMeshMetric s.settings _ p) =
    (offMeshMetric s.settings s.tables p).or (onMeshMetric s.settings s.tables p)
  rw [hnone, hnone]
  rfl

theorem current_withPrefixes (h : s.Current) (m : Multimap OnMeshPrefixEntry) :
    (s.withPrefixes m).Current := by
  cases hauto : s.settings.autoAddOnMeshPrefixesAsInterfaceRoutes with
  | true =>
    refine current_of_requested ?_
    show (_ || s.settings.autoAddOnMeshPrefixesAsInterfaceRoutes)
    rw [hauto, Bool.or_true]
  | false =>
    have hroutes : (s.withPrefixes m).tables.interfaceRoutes = s.tables.interfaceRoutes := rfl
    have hrequest : (s.withPrefixes m).requestRouteRefresh = s.requestRouteRefresh := by
      show (_ || s.settings.autoAddOnMeshPrefixesAsInterfaceRoutes) = _
      rw [hauto, Bool.or_false]
    rw [current_iff_answers h hroutes hrequest, answers_of_disabled hauto]
    exact .inr fun _ => rfl

theorem current_withRoutes (m : Multimap OffMeshRouteEntry) : (s.withRoutes m).Current :=
  current_of_requested rfl

theorem current_withSettings (h : s.Current) (settings : Settings) :
    (s.withSettings settings).Current ↔ s.SameAnswers settings :=
  current_iff_answers h rfl rfl

theorem current_refreshEntries (h : s.Current) : s.refreshEntries.Current := by
  unfold refreshEntries
  split
  · intro _ p
    exact lookup_refreshRoutesOnInterface s.settings s.tables p
  · exact h

variable {cfg : Settings} {t : RouteTables}

theorem offMeshMetric_of_byDevice
    (h : ∀ x ∈ t.offMeshRoutes, x.2.origin ≠ .ncp) (p : IPv6Prefix) : t.offMeshMetric cfg p = none := by
  have hothers : (((t.offMeshRoutes.filter fun x => x.1 = p).map (·.2)).filter
      fun e => !byDevice e) = [] := by
    rw [filter_eq_nil_iff]
    intro e he
    obtain ⟨x, hx, rfl⟩ := mem_map.mp he
    have hne := h x (mem_filter.mp hx).1
    simp [byDevice, hne]
  unfold offMeshMetric
  dsimp only
  rw [hothers]
  exact if_neg fun hc => hc.2.1 rfl

theorem onMeshMetric_eq_none_iff : (∀ p, t.onMeshMetric cfg p = none) ↔
      cfg.autoAddOnMeshPrefixesAsInterfaceRoutes = false ∨
        ∀ x ∈ t.onMeshPrefixes, x.2.origin = .ncp → x.2.isOnMesh = false := by
  unfold onMeshMetric
  cases cfg.autoAddOnMeshPrefixesAsInterfaceRoutes with
  | false => simp
  | true =>
    simp only [true_and, reduceCtorEq, false_or, ite_eq_right_iff, imp_false, Bool.not_eq_true,
      any_eq_false, decide_eq_true_eq, not_and]
    constructor
    · intro h x hx
      exact h x.1 x hx rfl
    · intro h p x hx _
      exact h x hx

theorem answers_empty (cfg : Settings) (p : IPv6Prefix) :
    shouldAddRouteOnInterface cfg ⟨[], [], ∅⟩ p = none := by
  have hoff : ∀ x ∈ (⟨[], [], ∅⟩ : RouteTables).offMeshRoutes, x.2.origin ≠ .ncp :=
    fun x hx => absurd hx not_mem_nil
  rw [shouldAddRouteOnInterface, offMeshMetric_of_byDevice hoff]
  exact onMeshMetric_eq_none_iff.mpr (.inr fun x hx => absurd hx not_mem_nil) p

/-- **The removal of the NCP's entries.** -/
theorem current_removeNcpOriginated (h : s.Current) :
    s.removeNcpOriginated.Current ↔ s.NotSilent .removeNcpOriginated := by
  unfold NotSilent
  by_cases hncp : ∃ x ∈ s.tables.offMeshRoutes, x.2.origin = .ncp
  · have hany : (s.tables.offMeshRoutes.any fun x => x.2.origin = .ncp) := by
      simpa only [any_eq_true, decide_eq_true_eq] using hncp
    refine iff_of_true (current_of_requested ?_) (.inr (.inl hncp))
    show (_ || s.tables.offMeshRoutes.any _)
    rw [hany, Bool.or_true]
  · have hany : (s.tables.offMeshRoutes.any fun x => x.2.origin = .ncp) = false := by
      rw [← Bool.not_eq_true, any_eq_true]
      simpa only [decide_eq_true_eq] using hncp
    have hrequest : s.removeNcpOriginated.requestRouteRefresh = s.requestRouteRefresh := by
      show (_ || s.tables.offMeshRoutes.any _) = _
      rw [hany, Bool.or_false]
    have hoff : ∀ x ∈ s.tables.offMeshRoutes, x.2.origin ≠ .ncp := fun x hx e => hncp ⟨x, hx, e⟩
    have hbefore : ∀ p, s.answers p = s.tables.onMeshMetric s.settings p := fun p => by
      rw [answers, shouldAddRouteOnInterface, offMeshMetric_of_byDevice hoff, Option.none_or]
    have hafter : ∀ p, s.removeNcpOriginated.answers p = none := by
      intro p
      have hoff' : ∀ x ∈ s.removeNcpOriginated.tables.offMeshRoutes, x.2.origin ≠ .ncp := by
        intro x hx
        have hx' : x ∈ removeWhere _ _ s.tables.offMeshRoutes := hx
        rw [removeWhere_eq_filter _ le_rfl] at hx'
        exact hoff x (mem_filter.mp hx').1
      have hon : ∀ x ∈ s.removeNcpOriginated.tables.onMeshPrefixes, x.2.origin = .ncp →
          x.2.isOnMesh = false := by
        intro x hx horigin
        have hx' : x ∈ removeWhere _ _ s.tables.onMeshPrefixes := hx
        rw [removeWhere_eq_filter _ le_rfl] at hx'
        have hother := (mem_filter.mp hx').2
        simp [horigin] at hother
      rw [answers, shouldAddRouteOnInterface, offMeshMetric_of_byDevice hoff']
      exact onMeshMetric_eq_none_iff.mpr (.inr hon) p
    have hroutes : s.removeNcpOriginated.tables.interfaceRoutes = s.tables.interfaceRoutes := rfl
    rw [current_iff_answers h hroutes hrequest]
    simp only [hbefore, hafter, hncp, false_or, eq_comm (a := none), onMeshMetric_eq_none_iff]

/-- **One step** keeps the routes current exactly if it changes no answer silently. -/
theorem current_step_iff (h : s.Current) (e : RouteEvent) : (s.step e).Current ↔ s.NotSilent e := by
  cases e with
  | onMeshAdded addr prefixLen entry =>
    refine iff_of_true ?_ trivial
    show (onMeshPrefixWasAdded s _).Current
    unfold onMeshPrefixWasAdded
    split
    · exact h
    · exact current_withPrefixes h _
  | onMeshRemoved addr prefixLen entry =>
    refine iff_of_true ?_ trivial
    show (onMeshPrefixWasRemoved s _).Current
    unfold onMeshPrefixWasRemoved
    split
    · exact current_withPrefixes h _
    · exact h
  | routeAdded addr prefixLen entry =>
    refine iff_of_true ?_ trivial
    show (routeWasAdded s _).Current
    unfold routeWasAdded
    split
    · exact h
    · exact current_withRoutes _
  | routeRemoved addr prefixLen entry =>
    refine iff_of_true ?_ trivial
    show (routeWasRemoved s _).Current
    unfold routeWasRemoved
    split
    · exact current_withRoutes _
    · exact h
  | removeNcpOriginated => exact current_removeNcpOriginated h
  | removeAll => exact iff_of_true (fun _ p => (answers_empty s.settings p).symm) trivial
  | setAutoAddOffMeshRoutes value => exact current_withSettings h _
  | setFilterSelfAutoAdded value => exact current_withSettings h _
  | setAutoAddOnMeshPrefixes value => exact current_withSettings h _
  | refresh => exact iff_of_true (current_refreshEntries h) trivial

end Steps

/-- **The routes are current whenever no refresh is requested**, if and only if no step changes an answer of
    `should_add_route_on_interface` silently. -/
theorem routes_current_iff (settings : Settings) (events : List RouteEvent) :
    Along step (fun s e => (s.step e).Current) (start settings) events ↔
      Along step NotSilent (start settings) events := by
  have hstart : (start settings).Current := fun _ p => (answers_empty settings p).symm
  exact along_iff (fun s e h _ hnot => (current_step_iff h e).mpr hnot)
    (fun s e h _ => current_step_iff h e) hstart (along_true _ _)

/-- fd00:: with the on-mesh flag, reported by the NCP, and the refresh that follows. -/
def onMeshReported : List RouteEvent :=
  [.onMeshAdded ⟨0xfd :: List.replicate 15 0, rfl⟩ 64 ⟨.ncp, 0x31, true, 0x5400⟩, .refresh]

/-- The route of fd00::/64. -/
def reportedPrefix : IPv6Prefix := ⟨⟨0xfd :: List.replicate 15 0, rfl⟩, 64⟩

/-- The NCP's entries are removed, or the option is turned off: the route stays, and no refresh is
    requested. -/
theorem stale_route_stays :
    (run step (start .default) (onMeshReported ++ [.removeNcpOriginated])).requestRouteRefresh = false ∧
      (run step (start .default)
        (onMeshReported ++ [.removeNcpOriginated])).tables.interfaceRoutes.lookup reportedPrefix =
          some 256 ∧
      (run step (start .default) (onMeshReported ++ [.removeNcpOriginated])).answers reportedPrefix =
        none ∧ ¬ (run step (start .default) (onMeshReported ++ [.removeNcpOriginated])).Current ∧
      ¬ (run step (start .default) (onMeshReported ++ [.setAutoAddOnMeshPrefixes false])).Current := by
  refine ⟨by decide +kernel, by decide +kernel, by decide +kernel, ?_, ?_⟩
  · intro h
    have hroute := h (by decide +kernel) reportedPrefix
    revert hroute
    decide +kernel
  · intro h
    have hroute := h (by decide +kernel) reportedPrefix
    revert hroute
    decide +kernel

end RouteState

end DcuDaemon.Wfantund
