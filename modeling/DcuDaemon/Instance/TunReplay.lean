/-
  The TUN interface follows the manager.

  Main result: `tun_follows_manager`.
-/
import DcuDaemon.Instance.Addresses

namespace DcuDaemon.Addresses

open Lib List AddressManager

/-! ## 1. The interface -/

/-- The addresses with their prefix lengths, the groups, the routes with their metrics. -/
structure TunState where
  addresses : Ipv6Addr → Option UInt8
  groups : Ipv6Addr → Bool
  routes : Ipv6Net → Option UInt32

def TunState.empty : TunState := ⟨fun _ => none, fun _ => false, fun _ => none⟩

/-- One operation on the interface, when it is possible. -/
def TunOp.apply (t : TunState) : TunOp → Option TunState
  | .addAddress addr prefixLen =>
    if t.addresses addr = none then
      some { t with addresses := Function.update t.addresses addr (some prefixLen) }
    else none
  | .removeAddress addr prefixLen =>
    if t.addresses addr = some prefixLen then
      some { t with addresses := Function.update t.addresses addr none }
    else none
  | .addRoute net metric =>
    if t.routes net = none then
      some { t with routes := Function.update t.routes net (some metric) }
    else none
  | .removeRoute net metric =>
    if t.routes net = some metric then
      some { t with routes := Function.update t.routes net none }
    else none
  | .joinMulticast addr =>
    if t.groups addr = false then
      some { t with groups := Function.update t.groups addr true }
    else none
  | .leaveMulticast addr =>
    if t.groups addr = true then
      some { t with groups := Function.update t.groups addr false }
    else none

/-- The interface that belongs to the tables. -/
def view (m : AddressManager) : TunState where
  addresses addr := (m.unicast.lookup addr).map (·.prefixLen)
  groups addr := (m.multicast.lookup addr).isSome
  routes net := m.interfaceRoutes.lookup net

/-! ## 2. Updates of the tables, as the interface sees them -/

section View

variable (m : AddressManager)

theorem view_insert_unicast (addr : Ipv6Addr) (e : UnicastEntry) :
    view { m with unicast := m.unicast.insert addr e } =
      { view m with addresses := Function.update (view m).addresses addr (some e.prefixLen) } :=
  congrArg (fun a => { view m with addresses := a })
    (HashTable.map_lookup_insert (Option.map (·.prefixLen)) m.unicast addr e)

theorem view_erase_unicast (addr : Ipv6Addr) : view { m with unicast := m.unicast.erase addr } =
      { view m with addresses := Function.update (view m).addresses addr none } :=
  congrArg (fun a => { view m with addresses := a })
    (HashTable.map_lookup_erase (Option.map (·.prefixLen)) m.unicast addr)

theorem view_insert_multicast (addr : Ipv6Addr) (origin : Origin) :
    view { m with multicast := m.multicast.insert addr origin } =
      { view m with groups := Function.update (view m).groups addr true } :=
  congrArg (fun g => { view m with groups := g })
    (HashTable.map_lookup_insert Option.isSome m.multicast addr origin)

theorem view_erase_multicast (addr : Ipv6Addr) : view { m with multicast := m.multicast.erase addr } =
      { view m with groups := Function.update (view m).groups addr false } :=
  congrArg (fun g => { view m with groups := g })
    (HashTable.map_lookup_erase Option.isSome m.multicast addr)

theorem view_insert_route (net : Ipv6Net) (metric : UInt32) :
    view { m with interfaceRoutes := m.interfaceRoutes.insert net metric } =
      { view m with routes := Function.update (view m).routes net (some metric) } :=
  congrArg (fun r => { view m with routes := r })
    (HashTable.map_lookup_insert id m.interfaceRoutes net metric)

theorem view_erase_route (net : Ipv6Net) :
    view { m with interfaceRoutes := m.interfaceRoutes.erase net } =
      { view m with routes := Function.update (view m).routes net none } :=
  congrArg (fun r => { view m with routes := r }) (HashTable.map_lookup_erase id m.interfaceRoutes net)

end View

/-! ## 3. One round of a loop -/

section Rounds

variable (m : AddressManager)

theorem follows_reportAddress (x : Ipv6Addr × UInt8) : Follows TunOp.apply view m (m.reportAddress x) := by
  unfold reportAddress
  cases h : m.unicast.lookup x.1 with
  | some e =>
    dsimp only
    split
    · exact follows_nil rfl
    · have hthere : (view m).addresses x.1 = some e.prefixLen := by simp [view, h]
      simp [Follows, replay, TunOp.apply, view_insert_unicast, hthere]
  | none =>
    have hfree : (view m).addresses x.1 = none := by simp [view, h]
    simp [Follows, replay, TunOp.apply, view_insert_unicast, hfree]

theorem follows_dropAddress (x : Ipv6Addr × UInt8) (h : (view m).addresses x.1 = some x.2) :
    Follows TunOp.apply view m (m.dropAddress x) := by
  simp [Follows, replay, TunOp.apply, dropAddress, view_erase_unicast, h]

theorem follows_reportGroup (addr : Ipv6Addr) : Follows TunOp.apply view m (m.reportGroup addr) := by
  unfold reportGroup
  cases h : m.multicast.lookup addr with
  | some _ => exact follows_nil rfl
  | none =>
    have hfree : (view m).groups addr = false := by simp [view, h]
    simp [Follows, replay, TunOp.apply, view_insert_multicast, hfree]

theorem follows_dropGroup (addr : Ipv6Addr) (h : (view m).groups addr) :
    Follows TunOp.apply view m (m.dropGroup addr) := by
  simp [Follows, replay, TunOp.apply, dropGroup, view_erase_multicast, h]

theorem follows_addRouteIfVacant (net : Ipv6Net) (metric : UInt32) :
    Follows TunOp.apply view m (m.addRouteIfVacant net metric) := by
  unfold addRouteIfVacant
  cases h : m.interfaceRoutes.lookup net with
  | some _ => exact follows_nil rfl
  | none =>
    have hfree : (view m).routes net = none := h
    simp [Follows, replay, TunOp.apply, view_insert_route, hfree]

theorem follows_setRoute (net : Ipv6Net) (metric : UInt32) :
    Follows TunOp.apply view m (m.setRoute net metric) := by
  unfold setRoute
  cases h : m.interfaceRoutes.lookup net with
  | some old =>
    dsimp only
    split
    · exact follows_nil rfl
    · have hthere : (view m).routes net = some old := h
      simp [Follows, replay, TunOp.apply, view_insert_route, hthere]
  | none =>
    have hfree : (view m).routes net = none := h
    simp [Follows, replay, TunOp.apply, view_insert_route, hfree]

theorem follows_removeRoute (net : Ipv6Net) : Follows TunOp.apply view m (m.removeRoute net) := by
  unfold removeRoute
  cases h : m.interfaceRoutes.lookup net with
  | some metric =>
    have hthere : (view m).routes net = some metric := h
    simp [Follows, replay, TunOp.apply, view_erase_route, hthere]
  | none => exact follows_nil rfl

theorem follows_putOnMesh (origin : Origin) (x : Ipv6Net × Bool) :
    Follows TunOp.apply view m (m.putOnMesh origin x) := by
  unfold putOnMesh
  split
  · exact follows_addRouteIfVacant { m with onMesh := m.onMesh.insert x.1 ⟨origin, x.2⟩ } x.1 256
  · exact follows_nil rfl

theorem follows_putOffMesh (origin : Origin) (x : Ipv6Net × UInt32) :
    Follows TunOp.apply view m (m.putOffMesh origin x) := by
  unfold putOffMesh
  split
  · exact follows_setRoute { m with offMesh := m.offMesh.insert x.1 ⟨origin, x.2⟩ } x.1 x.2
  · exact follows_nil rfl

theorem follows_dropOnMesh (net : Ipv6Net) : Follows TunOp.apply view m (m.dropOnMesh net) :=
  follows_removeRoute { m with onMesh := m.onMesh.erase net } net

theorem follows_dropOffMesh (net : Ipv6Net) : Follows TunOp.apply view m (m.dropOffMesh net) :=
  follows_removeRoute { m with offMesh := m.offMesh.erase net } net

end Rounds

/-! ## 4. Calls and runs -/

section Calls

variable (m : AddressManager)

/-- The stale addresses are removed one after the other: each is there, with its prefix length,
    until its own turn. -/
theorem follows_dropStaleAddresses (iter : Iteration Ipv6Addr UnicastEntry) (seen : List Ipv6Addr) :
    Follows TunOp.apply view m (forEach dropAddress m (m.staleAddresses iter seen)) := by
  have hkeep : ∀ (m : AddressManager) (x y : Ipv6Addr × UInt8), x.1 ≠ y.1 →
      (view m).addresses y.1 = some y.2 →
      (view (m.dropAddress x).1).addresses y.1 = some y.2 := by
    intro m x y hne hy
    show (view { m with unicast := m.unicast.erase x.1 }).addresses y.1 = some y.2
    rw [view_erase_unicast]
    exact (Function.update_of_ne hne.symm _ _).trans hy
  refine follows_forEach (fun m x => follows_dropAddress m x) hkeep (fun x hx => ?_) ?_
  · obtain ⟨⟨addr, e⟩, he, rfl⟩ := mem_map.mp hx
    have hlookup := (iter.mem_order m.unicast addr e).mp (mem_filter.mp he).1
    simp [view, hlookup]
  · exact pairwise_map.mpr ((iter.order_nodup m.unicast).filter _)

theorem follows_dropStaleGroups (iter : Iteration Ipv6Addr Origin) (seen : List Ipv6Addr) :
    Follows TunOp.apply view m (forEach dropGroup m (m.staleGroups iter seen)) := by
  have hkeep : ∀ (m : AddressManager) (x y : Ipv6Addr), x ≠ y → (view m).groups y →
      (view (m.dropGroup x).1).groups y := by
    intro m x y hne hy
    show (view { m with multicast := m.multicast.erase x }).groups y
    rw [view_erase_multicast]
    exact (Function.update_of_ne hne.symm _ _).trans hy
  refine follows_forEach (fun m x => follows_dropGroup m x) hkeep (fun x hx => ?_) ?_
  · obtain ⟨⟨addr, e⟩, he, rfl⟩ := mem_map.mp hx
    have hlookup := (iter.mem_order m.multicast addr e).mp (mem_filter.mp he).1
    simp [view, hlookup]
  · exact pairwise_map.mpr ((iter.order_nodup m.multicast).filter _)

/-- **One call**: no operation is refused, and the interface ends as the view of the new tables. -/
theorem step_follows (e : Event) : Follows TunOp.apply view m (m.step e) := by
  cases e with
  | applyNcpAddressTable iter addrs =>
    exact follows_append (follows_forEach_all follows_reportAddress m addrs)
      (follows_dropStaleAddresses _ iter _)
  | applyNcpMulticastTable iter addrs =>
    exact follows_append (follows_forEach_all follows_reportGroup m addrs)
      (follows_dropStaleGroups _ iter _)
  | applyNcpOnMeshTable iter nets =>
    exact follows_append (follows_forEach_all (fun m x => follows_putOnMesh m .ncp x) m nets)
      (follows_forEach_all follows_dropOnMesh _ _)
  | applyNcpOffMeshTable iter nets =>
    exact follows_append (follows_forEach_all (fun m x => follows_putOffMesh m .ncp x) m nets)
      (follows_forEach_all follows_dropOffMesh _ _)
  | insertOnMesh net stable => exact follows_putOnMesh m .user (net, stable)
  | insertOffMesh net metric => exact follows_putOffMesh m .user (net, metric)
  | removeOnMesh net =>
    show Follows TunOp.apply view m (m.removeOnMesh net).2
    unfold removeOnMesh
    split
    · exact follows_dropOnMesh m net
    · exact follows_nil rfl
  | removeOffMesh net =>
    show Follows TunOp.apply view m (m.removeOffMesh net).2
    unfold removeOffMesh
    split
    · exact follows_dropOffMesh m net
    · exact follows_nil rfl

end Calls

/-- **The TUN interface follows the manager.** Replayed on an empty interface no operation is refused, and the
    interface ends with the addresses and prefix lengths, the groups, and the routes and metrics of the
    manager. -/
theorem tun_follows_manager (events : List Event) :
    let (m, ops) := forEach step new events
    replay TunOp.apply TunState.empty ops = some (view m) :=
  follows_forEach_all step_follows new events

-- an address reported twice with two prefix lengths, then no longer
example :
    let addr : Ipv6Addr := ⟨[0x20, 0x20, 0xAB, 0xCD, 0, 0, 0, 0, 0, 0, 0, 0, 0, 0, 0, 1], rfl⟩
    (forEach AddressManager.step AddressManager.new
      [.applyNcpAddressTable (.stored _ _) [(addr, 64), (addr, 48)],
        .applyNcpAddressTable (.stored _ _) []]).2 =
      [.addAddress addr 64, .removeAddress addr 64, .addAddress addr 48, .removeAddress addr 48] := by
  decide +kernel

end DcuDaemon.Addresses
