/-
  The tables of the NCP's network data under the values of THREAD_ON_MESH_NETS and
  THREAD_OFF_MESH_ROUTES (`src/ncp-spinel/SpinelNCPInstance.cpp`,
  `handle_ncp_spinel_value_is_ON_MESH_NETS`, `handle_ncp_spinel_value_is_OFF_MESH_ROUTES`).

  A value lists all entries of the NCP. What it has and the table has not is added, what the table has
  from the NCP and the value has not is removed, and entries are compared by `operator==`. For on-mesh
  prefixes of the NCP this is equality. For off-mesh routes it leaves out the next hop, so that a route
  keeps the next hop with which it was added.

  Main results: `on_mesh_nets_installed`, `off_mesh_routes_current_iff`.
-/
import DcuDaemon.Wfantund.RouteParity
import DcuDaemon.Wfantund.RouteRefresh
import DcuDaemon.Wfantund.Structs

namespace DcuDaemon.Wfantund

open Addresses (Origin)
open Firewall (In6Addr)
open Lib List Option OnMeshPrefixEntry
open Spinel Spinel.Datatype

/-! ## 1. The handlers -/

/-- The block of an on-mesh net: "6CbCbSC". -/
def OnMeshNet.unpack (block : List UInt8) : Option OnMeshNet := do
  let (addr, block) ← unpackIpv6 block
  let (prefixLen, block) ← unpackUint8 block
  let (stable, block) ← unpackBool block
  let (flags, block) ← unpackUint8 block
  let (isLocal, block) ← unpackBool block
  let (rloc16, block) ← unpackUint16 block
  let (flagsExtended, _) ← unpackUint8 block
  return ⟨addr, prefixLen, stable, flags, isLocal, rloc16, flagsExtended⟩

/-- The block of an off-mesh route: "6CbCbbS". -/
def OffMeshRoute.unpack (block : List UInt8) : Option OffMeshRoute := do
  let (addr, block) ← unpackIpv6 block
  let (prefixLen, block) ← unpackUint8 block
  let (isStable, block) ← unpackBool block
  let (flags, block) ← unpackUint8 block
  let (isLocal, block) ← unpackBool block
  let (nextHopIsThisDevice, block) ← unpackBool block
  let (rloc16, _) ← unpackUint16 block
  return ⟨addr, prefixLen, isStable, flags, isLocal, nextHopIsThisDevice, rloc16⟩

/-- The entries of a value that are not the device's own. -/
def reportedNets (data : List UInt8) : List OnMeshNet :=
  (unpackStructs OnMeshNet.unpack data).1.filter fun x => !x.isLocal

/-- The entries of a value that are not the device's own. -/
def reportedRoutes (data : List UInt8) : List OffMeshRoute :=
  (unpackStructs OffMeshRoute.unpack data).1.filter fun x => !x.isLocal

/-- What is left of the copy of a table after the reported entries were erased from it. -/
def leftInCopy {E : Type} (same : E → E → Bool) (m : Multimap E) (xs : List (IPv6Prefix × E)) :
    Multimap E := xs.foldl (wasRemoved same) m

namespace RouteState

/-- `handle_ncp_spinel_value_is_ON_MESH_NETS`, as the calls it makes. -/
def handleOnMeshNets (s : RouteState) (data : List UInt8) : RouteState :=
  let nets := reportedNets data
  let stale := (leftInCopy OnMeshPrefixEntry.same s.tables.onMeshPrefixes
    (nets.map OnMeshNet.entry)).filter fun x => x.2.origin = .ncp
  run step s (nets.map (fun x => .onMeshAdded x.addr x.prefixLen x.entry.2) ++
    stale.map fun x => .onMeshRemoved x.1.addr x.1.length x.2)

/-- `handle_ncp_spinel_value_is_OFF_MESH_ROUTES`, as the calls it makes. -/
def handleOffMeshRoutes (s : RouteState) (data : List UInt8) : RouteState :=
  let routes := reportedRoutes data
  let stale := (leftInCopy OffMeshRouteEntry.same s.tables.offMeshRoutes
    (routes.map OffMeshRoute.entry)).filter fun x => x.2.origin = .ncp
  run step s (routes.map (fun x => .routeAdded x.addr x.prefixLen x.entry.2) ++
    stale.map fun x => .routeRemoved x.1.addr x.1.length x.2)

end RouteState

/-! ## 2. Tables whose entries are told apart -/

/-- What `operator==` compares, with the prefix. -/
def onMeshKey (x : IPv6Prefix × OnMeshPrefixEntry) :
    IPv6Prefix × Origin × Option (UInt16 × Bool × UInt16) :=
  (x.1, x.2.origin, if x.2.origin = .ncp then some (x.2.flags, x.2.stable, x.2.rloc) else none)

/-- What `operator==` compares, with the prefix. -/
def offMeshKey (x : IPv6Prefix × OffMeshRouteEntry) :
    IPv6Prefix × Origin × Option (RoutePreference × Bool × UInt16) :=
  (x.1, x.2.origin, if x.2.origin = .ncp then some (x.2.preference, x.2.stable, x.2.rloc) else none)

/-- An `operator==` that compares more than the origin only for entries of the NCP. -/
theorem comparesBy_origin {E F : Type} {same : E → E → Bool} (origin : E → Origin) (fields : E → F)
    (hsame : ∀ a b, same a b ↔ origin a = origin b ∧ (origin a = .ncp → fields a = fields b)) :
    ComparesBy same (fun x => (x.1, origin x.2, if origin x.2 = .ncp then some (fields x.2) else none))
      fun _ => True := by
  intro x y _ _
  simp only [isEntry, hsame, Prod.mk.injEq, decide_eq_true_eq]
  refine and_congr_right fun _ => and_congr_right fun horigin => ?_
  rw [← horigin]
  by_cases h : origin y.2 = .ncp
  · simp [h]
  · simp [h]

theorem comparesBy_onMeshKey : ComparesBy same onMeshKey fun _ => True := by
  refine comparesBy_origin origin (fun e => (e.flags, e.stable, e.rloc)) fun a b => ?_
  simp only [same, decide_eq_true_eq, Prod.mk.injEq]

theorem comparesBy_offMeshKey : ComparesBy OffMeshRouteEntry.same offMeshKey fun _ => True := by
  refine comparesBy_origin OffMeshRouteEntry.origin (fun e => (e.preference, e.stable, e.rloc))
    fun a b => ?_
  simp only [OffMeshRouteEntry.same, decide_eq_true_eq, Prod.mk.injEq]

/-- A prefix without bits beyond its length. -/
def IPv6Prefix.Masked (p : IPv6Prefix) : Prop := IPv6Prefix.new p.addr p.length = p

theorem applyMask_applyMask (a : In6Addr) (n : UInt8) : (a.applyMask n).applyMask n = a.applyMask n := by
  apply Subtype.ext
  unfold In6Addr.applyMask
  dsimp only
  apply map_congr_left
  intro i hi
  have hi' : i < 16 := mem_range.mp hi
  grind

theorem IPv6Prefix.masked_new (addr : In6Addr) (length : UInt8) : (IPv6Prefix.new addr length).Masked := by
  unfold Masked new
  rw [applyMask_applyMask]

/-- No two entries compare equal, and the prefixes are masked. -/
structure TableOk {E κ : Type} (key : IPv6Prefix × E → κ) (m : Multimap E) : Prop where
  distinct : KeyedList.Distinct key m
  masked : ∀ x ∈ m, x.1.Masked

section Tables

variable {E κ : Type} [DecidableEq κ] {same : E → E → Bool} {key : IPv6Prefix × E → κ} {m m' : Multimap E}

omit [DecidableEq κ] in
theorem tableOk_nil : TableOk key [] := ⟨nodup_nil, fun _ hx => absurd hx not_mem_nil⟩

omit [DecidableEq κ] in
theorem TableOk.sublist (hs : m'.Sublist m) (h : TableOk key m) : TableOk key m' :=
  ⟨h.distinct.sublist hs, fun x hx => h.masked x (hs.subset hx)⟩

omit [DecidableEq κ] in
theorem TableOk.wasRemoved (h : TableOk key m) (x : IPv6Prefix × E) :
    TableOk key (wasRemoved same m x) := h.sublist eraseP_sublist

theorem TableOk.wasAdded (hS : ComparesBy same key fun _ => True) (h : TableOk key m)
    {x : IPv6Prefix × E} (hx : x.1.Masked) : TableOk key (wasAdded same m x) := by
  rw [wasAdded_eq hS (fun _ _ => trivial) trivial]
  exact ⟨KeyedList.distinct_insertNew h.distinct x, forall_mem_insertNew h.masked hx⟩

theorem wasAdded_present {x : IPv6Prefix × E} (h : m.any (isEntry same x)) :
    wasAdded same m x = m := if_pos h

theorem wasRemoved_absent {x : IPv6Prefix × E} (h : ¬ m.any (isEntry same x)) : wasRemoved same m x = m :=
  eraseP_of_forall_not fun y hy hsame => h (any_eq_true.mpr ⟨y, hy, hsame⟩)

variable {origin : E → Origin} {removed : IPv6Prefix × E → IPv6Prefix × E} {xs : List (IPv6Prefix × E)}

theorem TableOk.mergeReported_eq (hS : ComparesBy same key fun _ => True) (h : TableOk key m)
    (hremoved : ∀ x : IPv6Prefix × E, x.1.Masked → key (removed x) = key x) :
    mergeReported same m origin removed xs =
      KeyedList.merge key (fun x => decide (origin x.2 = .ncp)) m xs :=
  Wfantund.mergeReported_eq hS (fun _ _ => trivial) (fun _ _ => trivial)
    fun y hy _ => ⟨trivial, hremoved y (h.masked y hy)⟩

theorem ncp_entries_perm_iff [DecidableEq E] (hm : m.Nodup) {xs : List (IPv6Prefix × E)} :
    (m.filter fun x => origin x.2 = .ncp).Perm xs.dedup ↔
      ∀ y, (y ∈ m ∧ decide (origin y.2 = .ncp)) ↔ y ∈ xs := by
  rw [perm_ext_iff_of_nodup (hm.filter _) (nodup_dedup xs)]
  simp

end Tables

def RouteTables.withOnMesh (t : RouteTables) (m : Multimap OnMeshPrefixEntry) : RouteTables :=
  { t with onMeshPrefixes := m }

def RouteTables.withOffMesh (t : RouteTables) (m : Multimap OffMeshRouteEntry) : RouteTables :=
  { t with offMeshRoutes := m }

structure Sound (t : RouteTables) : Prop where
  onMesh : TableOk onMeshKey t.onMeshPrefixes
  offMesh : TableOk offMeshKey t.offMeshRoutes

namespace RouteState

def Reachable (s : RouteState) : Prop := ∃ settings events, s = run step (start settings) events

section Calls

variable (s : RouteState)

theorem tables_onMeshPrefixWasAdded (x : IPv6Prefix × OnMeshPrefixEntry) :
    (s.onMeshPrefixWasAdded x).tables = s.tables.withOnMesh (wasAdded same s.tables.onMeshPrefixes x) := by
  unfold onMeshPrefixWasAdded
  split
  · rename_i h
    rw [wasAdded_present h]
    rfl
  · rfl

theorem tables_onMeshPrefixWasRemoved (x : IPv6Prefix × OnMeshPrefixEntry) :
    (s.onMeshPrefixWasRemoved x).tables =
      s.tables.withOnMesh (wasRemoved same s.tables.onMeshPrefixes x) := by
  unfold onMeshPrefixWasRemoved
  split
  · rfl
  · rename_i h
    rw [wasRemoved_absent h]
    rfl

theorem tables_routeWasAdded (x : IPv6Prefix × OffMeshRouteEntry) : (s.routeWasAdded x).tables =
      s.tables.withOffMesh (wasAdded OffMeshRouteEntry.same s.tables.offMeshRoutes x) := by
  unfold routeWasAdded
  split
  · rename_i h
    rw [wasAdded_present h]
    rfl
  · rfl

theorem tables_routeWasRemoved (x : IPv6Prefix × OffMeshRouteEntry) : (s.routeWasRemoved x).tables =
      s.tables.withOffMesh (wasRemoved OffMeshRouteEntry.same s.tables.offMeshRoutes x) := by
  unfold routeWasRemoved
  split
  · rfl
  · rename_i h
    rw [wasRemoved_absent h]
    rfl

theorem tables_run_map {α : Type} {call : α → RouteEvent} (f : RouteTables → α → RouteTables)
    (hcall : ∀ s x, (step s (call x)).tables = f s.tables x) (xs : List α) :
    (run step s (xs.map call)).tables = xs.foldl f s.tables := by
  induction xs generalizing s with
  | nil => rfl
  | cons x xs ih =>
    show (run step (step s (call x)) (xs.map call)).tables = _
    rw [ih, hcall]
    rfl

end Calls

/-- **One step** keeps the entries apart. -/
theorem sound_step (s : RouteState) (e : RouteEvent) (h : Sound s.tables) : Sound (s.step e).tables := by
  cases e with
  | onMeshAdded addr prefixLen entry =>
    rw [step, tables_onMeshPrefixWasAdded]
    exact ⟨h.onMesh.wasAdded comparesBy_onMeshKey (IPv6Prefix.masked_new addr prefixLen), h.offMesh⟩
  | onMeshRemoved addr prefixLen entry =>
    rw [step, tables_onMeshPrefixWasRemoved]
    exact ⟨h.onMesh.wasRemoved _, h.offMesh⟩
  | routeAdded addr prefixLen entry =>
    rw [step, tables_routeWasAdded]
    exact ⟨h.onMesh, h.offMesh.wasAdded comparesBy_offMeshKey (IPv6Prefix.masked_new addr prefixLen)⟩
  | routeRemoved addr prefixLen entry =>
    rw [step, tables_routeWasRemoved]
    exact ⟨h.onMesh, h.offMesh.wasRemoved _⟩
  | removeNcpOriginated =>
    refine ⟨?_, ?_⟩
    · show TableOk onMeshKey (removeWhere _ _ s.tables.onMeshPrefixes)
      rw [removeWhere_eq_filter _ le_rfl]
      exact h.onMesh.sublist filter_sublist
    · show TableOk offMeshKey (removeWhere _ _ s.tables.offMeshRoutes)
      rw [removeWhere_eq_filter _ le_rfl]
      exact h.offMesh.sublist filter_sublist
  | removeAll => exact ⟨tableOk_nil, tableOk_nil⟩
  | setAutoAddOffMeshRoutes value => exact h
  | setFilterSelfAutoAdded value => exact h
  | setAutoAddOnMeshPrefixes value => exact h
  | refresh =>
    show Sound s.refreshEntries.tables
    unfold refreshEntries
    split
    · exact ⟨h.onMesh, h.offMesh⟩
    · exact h

/-- **In every reachable state the entries are told apart.** -/
theorem Reachable.sound {s : RouteState} (h : s.Reachable) : Sound s.tables := by
  obtain ⟨settings, events, rfl⟩ := h
  have hstart : Sound (start settings).tables := ⟨tableOk_nil, tableOk_nil⟩
  have hstep : ∀ (s : RouteState) (e : RouteEvent), Sound s.tables → True → Sound (s.step e).tables :=
    fun s e h _ => sound_step s e h
  exact run_invariant hstep hstart (along_true _ _)

theorem Reachable.run {s : RouteState} (h : s.Reachable) (events : List RouteEvent) :
    (run step s events).Reachable := by
  obtain ⟨settings, before, rfl⟩ := h
  exact ⟨settings, before ++ events, (run_append _ before events).symm⟩

end RouteState

/-! ## 3. On-mesh prefixes -/

section Loops

variable {E : Type} {same : E → E → Bool}

theorem mergeLoop_loops (copy m : Multimap E) (xs : List (IPv6Prefix × E)) :
    mergeLoop same copy m xs = (leftInCopy same copy xs, xs.foldl (wasAdded same) m) := by
  induction xs generalizing copy m with
  | nil => rfl
  | cons x xs ih => exact ih _ _

theorem mergeReported_loops (m : Multimap E) (origin : E → Origin)
    (removed : IPv6Prefix × E → IPv6Prefix × E) (xs : List (IPv6Prefix × E)) :
    mergeReported same m origin removed xs =
      ((leftInCopy same m xs).filter fun x => origin x.2 = .ncp).foldl
        (fun m x => wasRemoved same m (removed x)) (xs.foldl (wasAdded same) m) := by
  unfold mergeReported
  rw [mergeLoop_loops]

end Loops

def onMeshEntries (data : List UInt8) : List (IPv6Prefix × OnMeshPrefixEntry) :=
  (reportedNets data).map OnMeshNet.entry

def offMeshEntries (data : List UInt8) : List (IPv6Prefix × OffMeshRouteEntry) :=
  (reportedRoutes data).map OffMeshRoute.entry

theorem origin_of_mem_onMeshEntries {data : List UInt8} {x : IPv6Prefix × OnMeshPrefixEntry}
    (hx : x ∈ onMeshEntries data) : x.2.origin = .ncp := by
  obtain ⟨net, -, rfl⟩ := mem_map.mp hx
  rfl

theorem origin_of_mem_offMeshEntries {data : List UInt8} {x : IPv6Prefix × OffMeshRouteEntry}
    (hx : x ∈ offMeshEntries data) : x.2.origin = .ncp := by
  obtain ⟨route, -, rfl⟩ := mem_map.mp hx
  rfl

theorem eq_of_onMeshKey {x y : IPv6Prefix × OnMeshPrefixEntry} (hx : x.2.origin = .ncp)
    (h : onMeshKey y = onMeshKey x) : y = x := by
  obtain ⟨p, origin, flags, stable, rloc⟩ := x
  obtain ⟨q, origin', flags', stable', rloc'⟩ := y
  obtain rfl : origin = .ncp := hx
  simp only [onMeshKey, Prod.mk.injEq] at h
  obtain ⟨rfl, rfl, h⟩ := h
  obtain ⟨rfl, rfl, rfl⟩ := h
  rfl

theorem eq_iff_of_offMeshKey {x y : IPv6Prefix × OffMeshRouteEntry} (hx : x.2.origin = .ncp)
    (h : offMeshKey y = offMeshKey x) : y = x ↔ y.2.nextHopIsHost = x.2.nextHopIsHost := by
  obtain ⟨p, origin, preference, stable, rloc, nextHop⟩ := x
  obtain ⟨q, origin', preference', stable', rloc', nextHop'⟩ := y
  obtain rfl : origin = .ncp := hx
  simp only [offMeshKey, Prod.mk.injEq] at h
  obtain ⟨rfl, rfl, h⟩ := h
  obtain ⟨rfl, rfl, rfl⟩ := h
  simp

namespace RouteState

variable {s : RouteState}

theorem tables_run_onMesh {α : Type} (call : α → RouteEvent)
    (f : Multimap OnMeshPrefixEntry → α → Multimap OnMeshPrefixEntry)
    (hcall : ∀ s x, (step s (call x)).tables =
      s.tables.withOnMesh (f s.tables.onMeshPrefixes x)) (s : RouteState) (xs : List α) :
    (run step s (xs.map call)).tables = s.tables.withOnMesh (xs.foldl f s.tables.onMeshPrefixes) := by
  rw [tables_run_map s (fun t x => t.withOnMesh (f t.onMeshPrefixes x)) hcall]
  exact foldl_hom s.tables.withOnMesh fun _ _ => rfl

theorem tables_run_offMesh {α : Type} (call : α → RouteEvent)
    (f : Multimap OffMeshRouteEntry → α → Multimap OffMeshRouteEntry)
    (hcall : ∀ s x, (step s (call x)).tables =
      s.tables.withOffMesh (f s.tables.offMeshRoutes x)) (s : RouteState) (xs : List α) :
    (run step s (xs.map call)).tables = s.tables.withOffMesh (xs.foldl f s.tables.offMeshRoutes) := by
  rw [tables_run_map s (fun t x => t.withOffMesh (f t.offMeshRoutes x)) hcall]
  exact foldl_hom s.tables.withOffMesh fun _ _ => rfl

theorem tables_handleOnMeshNets (s : RouteState) (data : List UInt8) :
    (s.handleOnMeshNets data).tables =
      s.tables.valueIsOnMeshNets (unpackStructs OnMeshNet.unpack data).1 := by
  have hadded := tables_run_onMesh (fun x : OnMeshNet => .onMeshAdded x.addr x.prefixLen x.entry.2)
    (fun m x => wasAdded same m x.entry) fun s x => tables_onMeshPrefixWasAdded s _
  have hremoved := tables_run_onMesh
    (fun x : IPv6Prefix × OnMeshPrefixEntry => .onMeshRemoved x.1.addr x.1.length x.2)
    (fun m x => wasRemoved same m (.new x.1.addr x.1.length, x.2))
    fun s x => tables_onMeshPrefixWasRemoved s _
  unfold handleOnMeshNets RouteTables.valueIsOnMeshNets
  rw [mergeReported_loops, run_append, hremoved, hadded, foldl_map]
  rfl

theorem tables_handleOffMeshRoutes (s : RouteState) (data : List UInt8) :
    (s.handleOffMeshRoutes data).tables =
      s.tables.valueIsOffMeshRoutes (unpackStructs OffMeshRoute.unpack data).1 := by
  have hadded := tables_run_offMesh (fun x : OffMeshRoute => .routeAdded x.addr x.prefixLen x.entry.2)
    (fun m x => wasAdded OffMeshRouteEntry.same m x.entry) fun s x => tables_routeWasAdded s _
  have hremoved := tables_run_offMesh
    (fun x : IPv6Prefix × OffMeshRouteEntry => .routeRemoved x.1.addr x.1.length x.2)
    (fun m x => wasRemoved OffMeshRouteEntry.same m
      (.new x.1.addr x.1.length, { x.2 with nextHopIsHost := false }))
    fun s x => tables_routeWasRemoved s _
  unfold handleOffMeshRoutes RouteTables.valueIsOffMeshRoutes
  rw [mergeReported_loops, run_append, hremoved, hadded, foldl_map]
  rfl

theorem onMeshPrefixes_handle (h : Sound s.tables) (data : List UInt8) :
    (s.handleOnMeshNets data).tables.onMeshPrefixes =
      KeyedList.merge onMeshKey (fun x => decide (x.2.origin = .ncp)) s.tables.onMeshPrefixes
        (onMeshEntries data) := by
  rw [tables_handleOnMeshNets]
  refine h.onMesh.mergeReported_eq comparesBy_onMeshKey fun x hx => ?_
  rw [show IPv6Prefix.new x.1.addr x.1.length = x.1 from hx]

theorem offMeshRoutes_handle (h : Sound s.tables) (data : List UInt8) :
    (s.handleOffMeshRoutes data).tables.offMeshRoutes =
      KeyedList.merge offMeshKey (fun x => decide (x.2.origin = .ncp)) s.tables.offMeshRoutes
        (offMeshEntries data) := by
  rw [tables_handleOffMeshRoutes]
  refine h.offMesh.mergeReported_eq comparesBy_offMeshKey fun x hx => ?_
  rw [show IPv6Prefix.new x.1.addr x.1.length = x.1 from hx]
  rfl

/-- **A value of THREAD_ON_MESH_NETS.** The NCP's prefixes are those of the value, each once, the others stay,
    and the same value changes nothing any more. -/
theorem on_mesh_nets_installed (hs : s.Reachable) (data : List UInt8) :
    ((s.handleOnMeshNets data).tables.onMeshPrefixes.filter fun x => x.2.origin = .ncp).Perm
        (onMeshEntries data).dedup ∧
      ((s.handleOnMeshNets data).tables.onMeshPrefixes.filter fun x => !decide (x.2.origin = .ncp)) =
        (s.tables.onMeshPrefixes.filter fun x => !decide (x.2.origin = .ncp)) ∧
      ((s.handleOnMeshNets data).handleOnMeshNets data).tables.onMeshPrefixes =
        (s.handleOnMeshNets data).tables.onMeshPrefixes := by
  have hsound := hs.sound
  have hafter : Sound (s.handleOnMeshNets data).tables := (hs.run _).sound
  have hncp : ∀ x ∈ onMeshEntries data, decide (x.2.origin = .ncp) :=
    fun x hx => decide_eq_true (origin_of_mem_onMeshEntries hx)
  have hmerge := onMeshPrefixes_handle hsound data
  refine ⟨?_, ?_, ?_⟩
  · rw [ncp_entries_perm_iff hafter.onMesh.distinct.nodup, hmerge,
      KeyedList.merge_owned_iff hsound.onMesh.distinct hncp]
    intro x hx y _ hk
    exact eq_of_onMeshKey (origin_of_mem_onMeshEntries hx) hk
  · rw [hmerge]
    exact KeyedList.filter_merge hsound.onMesh.distinct hncp
  · rw [onMeshPrefixes_handle hafter, hmerge]
    exact KeyedList.merge_again hsound.onMesh.distinct _ _

/-- A value that reports a prefix twice, and the device's own entry of it. -/
def prefixTwice : List UInt8 :=
  let net : OnMeshNet := ⟨reportedPrefix.addr, 64, true, 0x31, false, 0x5400, 0⟩
  structEntries [net.pack, net.pack, OnMeshNet.pack { net with isLocal := true }]

def withUserPrefix : RouteState :=
  run step (start .default) [.onMeshAdded reportedPrefix.addr 48 ⟨.user, 0x31, true, 0⟩]

/-- The prefix of the user stays beside the reported one. -/
theorem on_mesh_nets_installed_twice :
    onMeshEntries prefixTwice = List.replicate 2 (reportedPrefix, ⟨.ncp, 0x31, true, 0x5400⟩) ∧
      ((withUserPrefix.handleOnMeshNets prefixTwice).tables.onMeshPrefixes.filter
        fun x => x.2.origin = .ncp).Perm (onMeshEntries prefixTwice).dedup :=
  ⟨by decide +kernel, (on_mesh_nets_installed ⟨.default, _, rfl⟩ _).1⟩

/-! ## 4. Off-mesh routes -/

/-- No route is reported with two next hops, or with another one than it has in the table. -/
def SameNextHops (s : RouteState) (data : List UInt8) : Prop :=
  ∀ x ∈ offMeshEntries data, ∀ y ∈ s.tables.offMeshRoutes ++ offMeshEntries data,
    y.1 = x.1 → y.2.same x.2 = true → y.2.nextHopIsHost = x.2.nextHopIsHost

/-- **One value** leaves the routes that it reports exactly if it reports no other next hops. -/
theorem off_mesh_value_iff (h : Sound s.tables) (data : List UInt8) :
    ((s.handleOffMeshRoutes data).tables.offMeshRoutes.filter fun x => x.2.origin = .ncp).Perm
        (offMeshEntries data).dedup ↔ s.SameNextHops data := by
  have hncp : ∀ x ∈ offMeshEntries data, decide (x.2.origin = .ncp) :=
    fun x hx => decide_eq_true (origin_of_mem_offMeshEntries hx)
  have hmerge := offMeshRoutes_handle h data
  have hnodup : (s.handleOffMeshRoutes data).tables.offMeshRoutes.Nodup := by
    rw [hmerge]
    exact (KeyedList.distinct_merge h.offMesh.distinct _ _).nodup
  rw [ncp_entries_perm_iff hnodup, hmerge, KeyedList.merge_owned_iff h.offMesh.distinct hncp]
  refine forall₂_congr fun x hx => forall_congr' fun y => imp_congr mem_append.symm ?_
  have hkey : offMeshKey y = offMeshKey x ↔ y.1 = x.1 ∧ y.2.same x.2 := by
    rw [← comparesBy_offMeshKey x y trivial trivial, isEntry, decide_eq_true_eq]
  rw [← and_imp, ← hkey]
  exact imp_congr_right fun hk => eq_iff_of_offMeshKey (origin_of_mem_offMeshEntries hx) hk

/-- **Up to the next hop** the routes are always those of the value. -/
theorem off_mesh_value_keys (h : Sound s.tables) (data : List UInt8) :
    (((s.handleOffMeshRoutes data).tables.offMeshRoutes.filter fun x => x.2.origin = .ncp).map
      offMeshKey).Perm ((offMeshEntries data).map offMeshKey).dedup := by
  rw [offMeshRoutes_handle h]
  have hdist := KeyedList.distinct_merge h.offMesh.distinct (fun x => decide (x.2.origin = .ncp))
    (offMeshEntries data)
  refine (perm_ext_iff_of_nodup (hdist.sublist filter_sublist) (nodup_dedup _)).mpr fun k => ?_
  rw [mem_dedup]
  constructor
  · intro hk
    obtain ⟨y, hy, rfl⟩ := mem_map.mp hk
    obtain ⟨hy, howned⟩ := mem_filter.mp hy
    exact KeyedList.mem_of_owned_merge h.offMesh.distinct hy howned
  · intro hk
    obtain ⟨x, hx, rfl⟩ := mem_map.mp hk
    obtain ⟨y, hy, hkey⟩ := mem_map.mp (KeyedList.reported_mem_merge h.offMesh.distinct hx)
    have horigin : y.2.origin = x.2.origin := congrArg (·.2.1) hkey
    rw [origin_of_mem_offMeshEntries hx] at horigin
    exact mem_map.mpr ⟨y, mem_filter.mpr ⟨hy, decide_eq_true horigin⟩, hkey⟩

/-- **Values of THREAD_OFF_MESH_ROUTES.** After each the NCP's routes are those of the value up to the next
    hop; with the next hops, if and only if none reports a route with another one. -/
theorem off_mesh_routes_current_iff (hs : s.Reachable) (values : List (List UInt8)) :
    Along handleOffMeshRoutes (fun s data =>
        (((s.handleOffMeshRoutes data).tables.offMeshRoutes.filter fun x => x.2.origin = .ncp).map
          offMeshKey).Perm ((offMeshEntries data).map offMeshKey).dedup) s values ∧
    (Along handleOffMeshRoutes (fun s data =>
        ((s.handleOffMeshRoutes data).tables.offMeshRoutes.filter fun x => x.2.origin = .ncp).Perm
          (offMeshEntries data).dedup) s values ↔
      Along handleOffMeshRoutes SameNextHops s values) := by
  have hstep : ∀ (s : RouteState) (data : List UInt8), s.Reachable →
      (s.handleOffMeshRoutes data).Reachable := fun s data h => h.run _
  constructor
  · refine (along_iff (fun s data h _ _ => hstep s data h) (fun s data h _ => ?_) hs (along_true _ _)).mpr
      (along_true _ _)
    exact iff_true_intro (off_mesh_value_keys h.sound data)
  · exact along_iff (fun s data h _ _ => hstep s data h)
      (fun s data h _ => off_mesh_value_iff h.sound data) hs (along_true _ _)

/-- A value with one route, through this device or not. -/
def routeThrough (thisDevice : Bool) : List UInt8 :=
  structEntries [OffMeshRoute.pack ⟨reportedPrefix.addr, 64, true, 0x40, false, thisDevice, 0x5400⟩]

/-- A route whose next hop changes, and one that is reported twice alike. -/
theorem off_mesh_routes_current_alike : Along handleOffMeshRoutes (fun s data =>
        (((s.handleOffMeshRoutes data).tables.offMeshRoutes.filter fun x => x.2.origin = .ncp).map
          offMeshKey).Perm ((offMeshEntries data).map offMeshKey).dedup)
        (start .default) [routeThrough false, routeThrough true] ∧
      Along handleOffMeshRoutes (fun s data =>
        ((s.handleOffMeshRoutes data).tables.offMeshRoutes.filter fun x => x.2.origin = .ncp).Perm
          (offMeshEntries data).dedup) (start .default) [routeThrough true, routeThrough true] := by
  refine ⟨(off_mesh_routes_current_iff ⟨.default, [], rfl⟩ _).1,
    (off_mesh_routes_current_iff ⟨.default, [], rfl⟩ _).2.mpr ⟨?_, ?_, trivial⟩⟩
  · unfold SameNextHops
    decide +kernel
  · unfold SameNextHops
    decide +kernel

/-- A route whose next hop becomes this device keeps the next hop it had. -/
theorem next_hop_stays :
    offMeshEntries (routeThrough true) =
        [(⟨reportedPrefix.addr, 64⟩, ⟨.ncp, .high, true, 0x5400, true⟩)] ∧
      (run handleOffMeshRoutes (start .default)
        [routeThrough false, routeThrough true]).tables.offMeshRoutes =
        [(⟨reportedPrefix.addr, 64⟩, ⟨.ncp, .high, true, 0x5400, false⟩)] ∧
      ¬ Along handleOffMeshRoutes (fun s data =>
        ((s.handleOffMeshRoutes data).tables.offMeshRoutes.filter fun x => x.2.origin = .ncp).Perm
          (offMeshEntries data).dedup) (start .default) [routeThrough false, routeThrough true] := by
  refine ⟨by decide +kernel, by decide +kernel, ?_⟩
  intro h
  have hlast := h.2.1.mem_iff.mpr (show (⟨⟨reportedPrefix.addr, 64⟩, ⟨.ncp, .high, true, 0x5400, true⟩⟩ :
    IPv6Prefix × OffMeshRouteEntry) ∈ (offMeshEntries (routeThrough true)).dedup by decide +kernel)
  revert hlast
  decide +kernel

end RouteState

end DcuDaemon.Wfantund
