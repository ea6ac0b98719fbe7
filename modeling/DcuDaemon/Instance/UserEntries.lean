/-
  What becomes of a prefix or route that the user inserted, over every later sequence of snapshots and
  user calls.

  Main result: `user_entry_kept_iff`.
-/
import DcuDaemon.Instance.RouteCover

namespace DcuDaemon.Addresses

open Lib AddressManager

/-! ## 1. What a snapshot does to the prefixes -/

namespace MeshTable

variable {V E F : Type} (T : MeshTable V E F) (o : Origin) (m : AddressManager)

theorem put_subset (x : Ipv6Net × V) :
    T.nets m ⊆ T.nets (T.put o m x).1 ∧ m.routeNets ⊆ (T.put o m x).1.routeNets := by
  by_cases hc : ((T.table m).lookup x.1).map T.value = some x.2
  · rw [T.put_same o m x hc]
    exact ⟨subset_rfl, subset_rfl⟩
  · rw [(T.nets_put_new hc).1, (T.nets_put_new hc).2]
    exact ⟨Set.subset_insert x.1 _, Set.subset_insert x.1 _⟩

/-- **The insertion**: the prefix is in the table, and has a route unless there was nothing to change. -/
theorem held_put_iff (x : Ipv6Net × V) :
    x.1 ∈ T.nets (T.put o m x).1 ∧ x.1 ∈ (T.put o m x).1.routeNets ↔
      ((T.table m).lookup x.1).map T.value ≠ some x.2 ∨ x.1 ∈ m.routeNets := by
  by_cases hc : ((T.table m).lookup x.1).map T.value = some x.2
  · obtain ⟨e, he, -⟩ := Option.map_eq_some_iff.mp hc
    rw [T.put_same o m x hc]
    exact ⟨fun h => .inr h.2, fun h => ⟨HashTable.mem_of_lookup he, h.resolve_left (not_not_intro hc)⟩⟩
  · rw [(T.nets_put_new hc).1, (T.nets_put_new hc).2]
    exact iff_of_true ⟨Set.mem_insert x.1 _, Set.mem_insert x.1 _⟩ (.inl hc)

theorem forEach_put_subset (xs : List (Ipv6Net × V)) : T.nets m ⊆ T.nets (forEach (T.put o) m xs).1 ∧
      m.routeNets ⊆ (forEach (T.put o) m xs).1.routeNets := by
  induction xs generalizing m with
  | nil => exact ⟨subset_rfl, subset_rfl⟩
  | cons x xs ih =>
    obtain ⟨hnets, hroutes⟩ := ih (T.put o m x).1
    exact ⟨(T.put_subset o m x).1.trans hnets, (T.put_subset o m x).2.trans hroutes⟩

/-- **A snapshot**: prefixes go that the NCP had reported and reports no longer, with their interface
    routes. -/
theorem apply_nets (iter : Iteration Ipv6Net E) (xs : List (Ipv6Net × V)) :
    (∀ n ∈ T.nets m, n ∈ T.nets (T.apply m iter xs).1 ↔ ¬ (n ∈ T.ncpNets m ∧ n ∉ xs.map Prod.fst)) ∧
      (∀ n ∈ m.routeNets, n ∈ (T.apply m iter xs).1.routeNets ↔ ¬ (n ∈ T.ncpNets m ∧ n ∉ xs.map Prod.fst)) ∧
      T.otherNets (T.apply m iter xs).1 = T.otherNets m := by
  obtain ⟨_, hncp⟩ := T.forEach_put m xs
  obtain ⟨hnets, hroutes⟩ := T.forEach_put_subset .ncp m xs
  have hmem (n : Ipv6Net) : n ∈ T.stale (forEach (T.put .ncp) m xs).1 iter (xs.map Prod.fst) ↔
      n ∈ T.ncpNets m ∧ n ∉ xs.map Prod.fst := by
    rw [T.mem_stale]
    exact and_congr_left fun hseen => hncp n hseen
  refine ⟨fun n hn => ?_, fun n hn => ?_, by rw [otherNets, T.apply_other]; rfl⟩
  · rw [T.apply_eq, snapshot, (T.forEach_drop _ _).1, ← hmem]
    exact ⟨fun h => h.2, fun h => ⟨hnets hn, h⟩⟩
  · rw [T.apply_eq, snapshot, (T.forEach_drop _ _).2, ← hmem]
    exact ⟨fun h => h.2, fun h => ⟨hroutes hn, h⟩⟩

end MeshTable

/-! ## 2. What a call drops -/

/-- The prefixes that a call takes out of the on-mesh table. -/
def droppedOnMesh (m : AddressManager) : Event → Set Ipv6Net
  | .applyNcpOnMeshTable _ nets =>
    { n | (∃ e, m.onMesh.lookup n = some e ∧ e.origin = .ncp) ∧ n ∉ nets.map Prod.fst }
  | .removeOnMesh net => { n | n = net ∧ n ∈ m.onMesh }
  | _ => ∅

/-- The prefixes that a call takes out of the off-mesh table. -/
def droppedOffMesh (m : AddressManager) : Event → Set Ipv6Net
  | .applyNcpOffMeshTable _ nets =>
    { n | (∃ e, m.offMesh.lookup n = some e ∧ e.origin = .ncp) ∧ n ∉ nets.map Prod.fst }
  | .removeOffMesh net => { n | n = net ∧ n ∈ m.offMesh }
  | _ => ∅

/-- What a call does to the prefixes that are there. -/
structure NetsStep (m m' : AddressManager) (droppedOn droppedOff : Set Ipv6Net) : Prop where
  onMesh : ∀ n ∈ m.onMeshNets, n ∈ m'.onMeshNets ↔ n ∉ droppedOn
  offMesh : ∀ n ∈ m.offMeshNets, n ∈ m'.offMeshNets ↔ n ∉ droppedOff
  /-- A route goes with the entry of either table. -/
  routes : ∀ n ∈ m.routeNets, n ∈ m'.routeNets ↔ n ∉ droppedOn ∧ n ∉ droppedOff

variable {m m' : AddressManager} {D : Set Ipv6Net}

theorem netsStep_of_subset (hon : m.onMeshNets ⊆ m'.onMeshNets)
    (hoff : m.offMeshNets ⊆ m'.offMeshNets) (hroutes : m.routeNets ⊆ m'.routeNets) : NetsStep m m' ∅ ∅ :=
  ⟨fun _ hn => iff_of_true (hon hn) (Set.notMem_empty _),
    fun _ hn => iff_of_true (hoff hn) (Set.notMem_empty _),
    fun _ hn => iff_of_true (hroutes hn) ⟨Set.notMem_empty _, Set.notMem_empty _⟩⟩

theorem netsStep_of_routing (e : routing m' = routing m) : NetsStep m m' ∅ ∅ := by
  obtain ⟨hon, hoff, hroutes⟩ := nets_of_routing_eq e
  exact netsStep_of_subset hon.ge hoff.ge hroutes.ge

theorem netsStep_dropOn (hon : ∀ n ∈ m.onMeshNets, n ∈ m'.onMeshNets ↔ n ∉ D)
    (hroutes : ∀ n ∈ m.routeNets, n ∈ m'.routeNets ↔ n ∉ D)
    (hoff : m'.offMeshNets = m.offMeshNets) : NetsStep m m' D ∅ :=
  ⟨hon, fun _ hn => iff_of_true (hoff.ge hn) (Set.notMem_empty _),
    fun n hn => (hroutes n hn).trans (and_iff_left (Set.notMem_empty n)).symm⟩

theorem netsStep_dropOff (hoff : ∀ n ∈ m.offMeshNets, n ∈ m'.offMeshNets ↔ n ∉ D)
    (hroutes : ∀ n ∈ m.routeNets, n ∈ m'.routeNets ↔ n ∉ D)
    (hon : m'.onMeshNets = m.onMeshNets) : NetsStep m m' ∅ D :=
  ⟨fun _ hn => iff_of_true (hon.ge hn) (Set.notMem_empty _), hoff,
    fun n hn => (hroutes n hn).trans (and_iff_right (Set.notMem_empty n)).symm⟩

theorem mem_sdiff_singleton_iff {A B : Set Ipv6Net} {n net : Ipv6Net} (hn : n ∈ A)
    (hnet : net ∈ B) : n ∈ A \ {net} ↔ n ∉ { n | n = net ∧ n ∈ B } :=
  ⟨fun h hn' => h.2 hn'.1, fun h => ⟨hn, fun e => h ⟨e, e ▸ hnet⟩⟩⟩

/-- A user call takes one prefix out of a table, if it is there. -/
theorem removed_nets {V E F : Type} (T : MeshTable V E F) {net : Ipv6Net} (h : T.Removed m net m') :
    (∀ n ∈ T.nets m, n ∈ T.nets m' ↔ n ∉ { n | n = net ∧ n ∈ T.nets m }) ∧
      (∀ n ∈ m.routeNets, n ∈ m'.routeNets ↔ n ∉ { n | n = net ∧ n ∈ T.nets m }) ∧
      T.otherNets m' = T.otherNets m := by
  rcases h with ⟨hin, rfl⟩ | ⟨hnot, rfl⟩
  · rw [(T.drop_nets m net).1, (T.drop_nets m net).2]
    exact ⟨fun n hn => mem_sdiff_singleton_iff hn hin, fun n hn => mem_sdiff_singleton_iff hn hin,
      congrArg (fun t => { n | n ∈ t }) (T.drop_other m net)⟩
  · have hnone : ∀ n, n ∉ { n | n = net ∧ n ∈ T.nets m' } := fun n hn => hnot (hn.1 ▸ hn.2)
    exact ⟨fun n hn => iff_of_true hn (hnone n), fun n hn => iff_of_true hn (hnone n), rfl⟩

/-- **What a call does to the prefixes that are there.** -/
theorem nets_step (m : AddressManager) (e : Event) :
    NetsStep m (m.step e).1 (droppedOnMesh m e) (droppedOffMesh m e) := by
  cases e with
  | applyNcpAddressTable iter addrs => exact netsStep_of_routing (routing_addressTable m iter addrs)
  | applyNcpMulticastTable iter addrs =>
    exact netsStep_of_routing (routing_multicastTable m iter addrs)
  | applyNcpOnMeshTable iter nets =>
    obtain ⟨hnets, hroutes, hother⟩ := onMeshTable.apply_nets m iter nets
    exact netsStep_dropOn hnets hroutes hother
  | applyNcpOffMeshTable iter nets =>
    obtain ⟨hnets, hroutes, hother⟩ := offMeshTable.apply_nets m iter nets
    exact netsStep_dropOff hnets hroutes hother
  | insertOnMesh net stable =>
    obtain ⟨hnets, hroutes⟩ := onMeshTable.put_subset .user m (net, stable)
    have hother : (m.putOnMesh .user (net, stable)).1.offMesh = m.offMesh := onMeshTable.put_other m .user _
    exact netsStep_of_subset hnets (fun n hn => (hother ▸ hn : n ∈ (m.putOnMesh _ _).1.offMesh)) hroutes
  | insertOffMesh net metric =>
    obtain ⟨hnets, hroutes⟩ := offMeshTable.put_subset .user m (net, metric)
    have hother : (m.putOffMesh .user (net, metric)).1.onMesh = m.onMesh := offMeshTable.put_other m .user _
    exact netsStep_of_subset (fun n hn => (hother ▸ hn : n ∈ (m.putOffMesh _ _).1.onMesh)) hnets hroutes
  | removeOnMesh net =>
    obtain ⟨hnets, hroutes, hother⟩ := removed_nets _ (removed_removeOnMesh m net)
    exact netsStep_dropOn hnets hroutes hother
  | removeOffMesh net =>
    obtain ⟨hnets, hroutes, hother⟩ := removed_nets _ (removed_removeOffMesh m net)
    exact netsStep_dropOff hnets hroutes hother

/-! ## 3. Entries of the user -/

/-- The prefix is in the on-mesh table and has an interface route. -/
def HeldOnMesh (net : Ipv6Net) (m : AddressManager) : Prop := net ∈ m.onMesh ∧ net ∈ m.interfaceRoutes

/-- The route is in the off-mesh table and has an interface route. -/
def HeldOffMesh (net : Ipv6Net) (m : AddressManager) : Prop := net ∈ m.offMesh ∧ net ∈ m.interfaceRoutes

/-- **Where nothing goes wrong for an on-mesh prefix**: an insertion that changes nothing finds its route; a
    snapshot without it finds no entry of the NCP; the user does not take it out of the other table. -/
def KeepsOnMesh (net : Ipv6Net) (m : AddressManager) : Event → Prop
  | .insertOnMesh net' stable =>
    net' = net → m.onMeshChanges net stable = true ∨ net ∈ m.interfaceRoutes
  | .applyNcpOnMeshTable _ nets =>
    (∃ e, m.onMesh.lookup net = some e ∧ e.origin = .ncp) → net ∈ nets.map Prod.fst
  | .applyNcpOffMeshTable _ nets =>
    (∃ e, m.offMesh.lookup net = some e ∧ e.origin = .ncp) → net ∈ nets.map Prod.fst
  | .removeOffMesh net' => net' = net → net ∉ m.offMesh
  | _ => True

/-- The same for an off-mesh route. -/
def KeepsOffMesh (net : Ipv6Net) (m : AddressManager) : Event → Prop
  | .insertOffMesh net' metric =>
    net' = net → m.offMeshChanges net metric = true ∨ net ∈ m.interfaceRoutes
  | .applyNcpOffMeshTable _ nets =>
    (∃ e, m.offMesh.lookup net = some e ∧ e.origin = .ncp) → net ∈ nets.map Prod.fst
  | .applyNcpOnMeshTable _ nets =>
    (∃ e, m.onMesh.lookup net = some e ∧ e.origin = .ncp) → net ∈ nets.map Prod.fst
  | .removeOnMesh net' => net' = net → net ∉ m.onMesh
  | _ => True

section Kept

variable {net : Ipv6Net} {m : AddressManager}

/-- **One later call**: a prefix of either table stays there with its route unless the call drops it. -/
theorem held_step_iff {nets : AddressManager → Set Ipv6Net} {dropped : Set Ipv6Net} {e : Event}
    (hroute : net ∈ m.routeNets) (hnets : net ∈ nets (m.step e).1 ↔ net ∉ dropped)
    (hdropped : dropped = droppedOnMesh m e ∨ dropped = droppedOffMesh m e) :
    net ∈ nets (m.step e).1 ∧ net ∈ (m.step e).1.routeNets ↔
      net ∉ droppedOnMesh m e ∧ net ∉ droppedOffMesh m e := by
  rw [hnets, (nets_step m e).routes net hroute]
  refine ⟨fun h => h.2, fun h => ⟨?_, h⟩⟩
  rcases hdropped with rfl | rfl
  · exact h.1
  · exact h.2

/-- **What a call that does not take the prefix out of its own table drops.** -/
theorem notDropped_iff (hroute : net ∈ m.routeNets) (e : Event) :
    (e ≠ .removeOnMesh net → (net ∉ droppedOnMesh m e ∧ net ∉ droppedOffMesh m e ↔ KeepsOnMesh net m e)) ∧
    (e ≠ .removeOffMesh net →
      (net ∉ droppedOnMesh m e ∧ net ∉ droppedOffMesh m e ↔ KeepsOffMesh net m e)) := by
  have hfound : net ∈ m.interfaceRoutes := hroute
  cases e with
  | applyNcpOnMeshTable iter nets =>
    have hiff := (and_iff_left (Set.notMem_empty net)).trans (not_and_not_right
      (a := ∃ e, m.onMesh.lookup net = some e ∧ e.origin = .ncp) (b := net ∈ nets.map Prod.fst))
    exact ⟨fun _ => hiff, fun _ => hiff⟩
  | applyNcpOffMeshTable iter nets =>
    have hiff := (and_iff_right (Set.notMem_empty net)).trans (not_and_not_right
      (a := ∃ e, m.offMesh.lookup net = some e ∧ e.origin = .ncp) (b := net ∈ nets.map Prod.fst))
    exact ⟨fun _ => hiff, fun _ => hiff⟩
  | removeOnMesh net' =>
    refine ⟨fun he => ?_, fun _ => ?_⟩
    · have hne : net ≠ net' := fun e => he (e ▸ rfl)
      simp [droppedOnMesh, droppedOffMesh, KeepsOnMesh, hne]
    · simp [droppedOnMesh, droppedOffMesh, KeepsOffMesh, eq_comm]
  | removeOffMesh net' =>
    refine ⟨fun _ => ?_, fun he => ?_⟩
    · simp [droppedOnMesh, droppedOffMesh, KeepsOnMesh, eq_comm]
    · have hne : net ≠ net' := fun e => he (e ▸ rfl)
      simp [droppedOnMesh, droppedOffMesh, KeepsOffMesh, hne]
  | _ => simp [droppedOnMesh, droppedOffMesh, KeepsOnMesh, KeepsOffMesh, hfound]

/-- The insertion and the later calls, from what is known of each of them. -/
theorem held_along_iff {Held : AddressManager → Prop} {Keeps : AddressManager → Event → Prop}
    {insert gone : Event} {later : List Event}
    (hinsert : ∀ m, Held (step m insert).1 ↔ Keeps m insert)
    (hstep : ∀ m e, Held m → e ≠ gone → (Held (step m e).1 ↔ Keeps m e))
    (hlater : ∀ e ∈ later, e ≠ gone) (m : AddressManager) :
    Along (fun (m : AddressManager) e => (m.step e).1) (fun m e => Held (m.step e).1) m
        (insert :: later) ↔
      Along (fun (m : AddressManager) e => (m.step e).1) Keeps m (insert :: later) := by
  rw [Along, hinsert]
  refine and_congr_right fun hk => ?_
  exact along_iff (fun m e h he hk => (hstep m e h he).mpr hk) hstep ((hinsert m).mpr hk)
    (along_of_forall (fun e he _ => hlater e he) _)

end Kept

/-- **When an entry of the user stays**: if and only if the insertion changes the table or finds the route, no
    snapshot leaves the prefix out while its entry has origin NCP, and the user does not remove it from the
    other table. -/
theorem user_entry_kept_iff (m : AddressManager) (net : Ipv6Net) (later : List Event) :
    (∀ stable, (∀ e ∈ later, e ≠ .removeOnMesh net) →
      (Along (fun (m : AddressManager) e => (m.step e).1) (fun m e => HeldOnMesh net (m.step e).1) m
          (.insertOnMesh net stable :: later) ↔
        Along (fun (m : AddressManager) e => (m.step e).1) (KeepsOnMesh net) m
          (.insertOnMesh net stable :: later))) ∧
    (∀ metric, (∀ e ∈ later, e ≠ .removeOffMesh net) →
      (Along (fun (m : AddressManager) e => (m.step e).1) (fun m e => HeldOffMesh net (m.step e).1) m
          (.insertOffMesh net metric :: later) ↔
        Along (fun (m : AddressManager) e => (m.step e).1) (KeepsOffMesh net) m
          (.insertOffMesh net metric :: later))) := by
  refine ⟨fun stable hlater => ?_, fun metric hlater => ?_⟩
  · refine held_along_iff (fun m => ?_) (fun m e h he => ?_) hlater m
    · refine (onMeshTable.held_put_iff .user m (net, stable)).trans ?_
      rw [KeepsOnMesh, onMeshChanges, decide_eq_true_eq]
      exact ⟨fun h _ => h, fun h => h rfl⟩
    · exact (held_step_iff h.2 ((nets_step m e).onMesh net h.1) (.inl rfl)).trans
        ((notDropped_iff h.2 e).1 he)
  · refine held_along_iff (fun m => ?_) (fun m e h he => ?_) hlater m
    · refine (offMeshTable.held_put_iff .user m (net, metric)).trans ?_
      rw [KeepsOffMesh, offMeshChanges, decide_eq_true_eq]
      exact ⟨fun h _ => h, fun h => h rfl⟩
    · exact (held_step_iff h.2 ((nets_step m e).offMesh net h.1) (.inr rfl)).trans
        ((notDropped_iff h.2 e).2 he)

/-- A prefix of the user outlives an empty snapshot. -/
theorem user_entry_kept_once :
    Along (fun (m : AddressManager) e => (m.step e).1) (fun m e => HeldOnMesh meshNet (m.step e).1)
      AddressManager.new
      [.insertOnMesh meshNet true, .applyNcpOnMeshTable (Iteration.stored _ _) []] := by
  refine ((user_entry_kept_iff AddressManager.new meshNet
    [.applyNcpOnMeshTable (Iteration.stored _ _) []]).1 true ?_).mpr ⟨?_, ?_, trivial⟩
  · intro e he
    rw [List.mem_singleton.mp he]
    exact fun h => (by cases h)
  · exact fun _ => .inl (by decide +kernel)
  · rintro ⟨e, hl, ho⟩
    cases hl
    cases ho

/-- **A prefix of the user is lost to two snapshots**: one makes it the NCP's, the next does not report it. -/
theorem user_prefix_lost :
    let m := run (fun (m : AddressManager) e => (m.step e).1) AddressManager.new
      [.insertOnMesh meshNet true, .applyNcpOnMeshTable (Iteration.stored _ _) [(meshNet, false)],
        .applyNcpOnMeshTable (Iteration.stored _ _) []]
    meshNet ∉ m.onMesh ∧ meshNet ∉ m.interfaceRoutes := by
  decide +kernel

end DcuDaemon.Addresses
