/-
  The interface routes of the manager and the two tables they come from.

  Main result: `routes_cover_iff`.
-/
import DcuDaemon.Instance.Addresses
import DcuDaemon.Lib.Cells
import Mathlib.Order.BooleanAlgebra.Set

namespace DcuDaemon.Addresses

open Lib

namespace AddressManager

/-! ## 1. Prefixes -/

def onMeshNets (m : AddressManager) : Set Ipv6Net := { n | n ∈ m.onMesh }
def offMeshNets (m : AddressManager) : Set Ipv6Net := { n | n ∈ m.offMesh }
def routeNets (m : AddressManager) : Set Ipv6Net := { n | n ∈ m.interfaceRoutes }

/-- **The interface routes are those of both tables.** -/
def Covered (m : AddressManager) : Prop := m.routeNets = m.onMeshNets ∪ m.offMeshNets

section Routes

variable (m : AddressManager) (net : Ipv6Net) (metric : UInt32) (n : Ipv6Net)

theorem addRouteIfVacant_eq : (m.addRouteIfVacant net metric).1 =
      { m with interfaceRoutes := (m.addRouteIfVacant net metric).1.interfaceRoutes } := by
  unfold addRouteIfVacant
  cases m.interfaceRoutes.lookup net <;> rfl

theorem setRoute_eq : (m.setRoute net metric).1 =
      { m with interfaceRoutes := (m.setRoute net metric).1.interfaceRoutes } := by
  unfold setRoute
  cases m.interfaceRoutes.lookup net with
  | none => rfl
  | some old =>
    dsimp only
    split <;> rfl

theorem removeRoute_eq :
    (m.removeRoute net).1 = { m with interfaceRoutes := (m.removeRoute net).1.interfaceRoutes } := by
  unfold removeRoute
  cases m.interfaceRoutes.lookup net <;> rfl

theorem lookup_addRouteIfVacant : (m.addRouteIfVacant net metric).1.interfaceRoutes.lookup n =
      if n = net then some ((m.interfaceRoutes.lookup n).getD metric) else m.interfaceRoutes.lookup n := by
  unfold addRouteIfVacant
  by_cases hn : n = net
  · subst hn
    cases h : m.interfaceRoutes.lookup n <;> simp [h]
  · cases m.interfaceRoutes.lookup net <;> simp [hn]

theorem lookup_setRoute : (m.setRoute net metric).1.interfaceRoutes.lookup n =
      if n = net then some metric else m.interfaceRoutes.lookup n := by
  unfold setRoute
  cases h : m.interfaceRoutes.lookup net with
  | some old =>
    dsimp only
    by_cases hold : old = metric
    · rw [if_pos hold]
      split
      · rename_i hn
        rw [hn, h, hold]
      · rfl
    · rw [if_neg hold]
      exact HashTable.lookup_insert_eq _ _ _ _
  | none => exact HashTable.lookup_insert_eq _ _ _ _

theorem lookup_removeRoute : (m.removeRoute net).1.interfaceRoutes.lookup n =
      if n = net then none else m.interfaceRoutes.lookup n := by
  unfold removeRoute
  cases h : m.interfaceRoutes.lookup net with
  | some old => exact HashTable.lookup_erase_eq _ _ _
  | none =>
    dsimp only
    split
    · rename_i hn
      rw [hn, h]
    · rfl

theorem mem_routeNets : n ∈ m.routeNets ↔ (m.interfaceRoutes.lookup n).isSome := AList.lookup_isSome.symm

end Routes

end AddressManager

open AddressManager

/-! ## 2. What the two tables have in common -/

/-- A table of prefixes beside the other one, with its updates. -/
structure MeshTable (V E F : Type) where
  table : AddressManager → HashTable Ipv6Net E
  other : AddressManager → HashTable Ipv6Net F
  entry : Origin → V → E
  origin : E → Origin
  value : E → V
  /-- The metric of the interface route, from the one that it had. -/
  metric : V → Option UInt32 → UInt32
  put : Origin → AddressManager → Ipv6Net × V → AddressManager × List TunOp
  drop : AddressManager → Ipv6Net → AddressManager × List TunOp
  stale : AddressManager → Iteration Ipv6Net E → List Ipv6Net → List Ipv6Net
  apply : AddressManager → Iteration Ipv6Net E → List (Ipv6Net × V) → AddressManager × List TunOp
  origin_entry : ∀ o v, origin (entry o v) = o
  value_entry : ∀ o v, value (entry o v) = v
  covered_iff : ∀ m, m.Covered ↔ m.routeNets = { n | n ∈ table m } ∪ { n | n ∈ other m }
  put_same : ∀ o m x, ((table m).lookup x.1).map value = some x.2 → put o m x = (m, [])
  put_new : ∀ o m x, ((table m).lookup x.1).map value ≠ some x.2 →
    table (put o m x).1 = (table m).insert x.1 (entry o x.2) ∧ other (put o m x).1 = other m ∧
      ∀ n, (put o m x).1.interfaceRoutes.lookup n =
        if n = x.1 then some (metric x.2 (m.interfaceRoutes.lookup n)) else m.interfaceRoutes.lookup n
  drop_spec : ∀ m d, table (drop m d).1 = (table m).erase d ∧ other (drop m d).1 = other m ∧
    ∀ n, (drop m d).1.interfaceRoutes.lookup n = if n = d then none else m.interfaceRoutes.lookup n
  stale_eq : ∀ m iter seen, stale m iter seen =
    ((iter.order (table m)).filter fun x => origin x.2 = .ncp ∧ x.1 ∉ seen).map fun x => x.1
  apply_eq : ∀ m iter xs,
    apply m iter xs = snapshot (put .ncp) drop (fun m => stale m iter (xs.map Prod.fst)) m xs

/-- Taking some elements out of a union, and out of one part of it, is the same when the other
    part has none of them. -/
theorem union_diff_eq_iff {A B D : Set Ipv6Net} : (A ∪ B) \ D = A \ D ∪ B ↔ ∀ n ∈ D, n ∉ B := by
  refine ⟨fun h n hD hB => ?_, fun h => Set.ext fun n => ?_⟩
  · have hmem : n ∈ (A ∪ B) \ D := h ▸ .inr hB
    exact hmem.2 hD
  · refine ⟨fun hn => hn.1.imp (fun hA => ⟨hA, hn.2⟩) id, fun hn => ?_⟩
    rcases hn with hA | hB
    · exact ⟨.inl hA.1, hA.2⟩
    · exact ⟨.inr hB, fun hD => h n hD hB⟩

namespace MeshTable

variable {V E F : Type} (T : MeshTable V E F) (m : AddressManager)

def nets (m : AddressManager) : Set Ipv6Net := { n | n ∈ T.table m }

/-- The prefixes that the NCP reported. -/
def ncpNets (m : AddressManager) : Set Ipv6Net :=
  { n | ∃ e, (T.table m).lookup n = some e ∧ T.origin e = .ncp }

def otherNets (m : AddressManager) : Set Ipv6Net := { n | n ∈ T.other m }

section Updates

variable (o : Origin) (x : Ipv6Net × V) (d : Ipv6Net)

theorem put_other : T.other (T.put o m x).1 = T.other m := by
  by_cases hc : ((T.table m).lookup x.1).map T.value = some x.2
  · rw [T.put_same o m x hc]
  · exact (T.put_new o m x hc).2.1

variable {m o x} in
theorem nets_put_new (hc : ((T.table m).lookup x.1).map T.value ≠ some x.2) :
    T.nets (T.put o m x).1 = insert x.1 (T.nets m) ∧
      (T.put o m x).1.routeNets = insert x.1 m.routeNets := by
  obtain ⟨htable, -, hroutes⟩ := T.put_new o m x hc
  refine ⟨?_, Set.ext fun n => ?_⟩
  · rw [nets, htable]
    exact Set.ext fun _ => AList.mem_insert _
  · rw [mem_routeNets, hroutes, Set.mem_insert_iff, mem_routeNets]
    split <;> simp [*]

theorem put_covered (h : m.Covered) : (T.put o m x).1.Covered := by
  by_cases hc : ((T.table m).lookup x.1).map T.value = some x.2
  · rw [T.put_same o m x hc]
    exact h
  · obtain ⟨hnets, hroutes⟩ := T.nets_put_new hc
    rw [T.covered_iff] at h ⊢
    rw [hroutes, h, T.put_other, show { n | n ∈ T.table _ } = _ from hnets, Set.insert_union]
    rfl

theorem put_ncp {n : Ipv6Net} (hn : n ≠ x.1) : n ∈ T.ncpNets (T.put o m x).1 ↔ n ∈ T.ncpNets m := by
  by_cases hc : ((T.table m).lookup x.1).map T.value = some x.2
  · rw [T.put_same o m x hc]
  · show (∃ e, (T.table _).lookup n = some e ∧ _) ↔ _
    rw [(T.put_new o m x hc).1, AList.lookup_insert_ne hn]
    rfl

theorem drop_nets : T.nets (T.drop m d).1 = T.nets m \ {d} ∧
      (T.drop m d).1.routeNets = m.routeNets \ {d} := by
  obtain ⟨htable, -, hroutes⟩ := T.drop_spec m d
  refine ⟨?_, Set.ext fun n => ?_⟩
  · rw [nets, htable]
    exact Set.ext fun _ => AList.mem_erase.trans and_comm
  · rw [mem_routeNets, hroutes, Set.mem_sdiff, mem_routeNets]
    split <;> simp [*]

/-- **What is stale**, whatever the order of the iteration. -/
theorem mem_stale (iter : Iteration Ipv6Net E) (seen : List Ipv6Net) (n : Ipv6Net) :
    n ∈ T.stale m iter seen ↔ n ∈ T.ncpNets m ∧ n ∉ seen := by
  rw [T.stale_eq, iter.mem_filter_keys]
  simp [ncpNets, ← and_assoc]

end Updates

theorem forEach_put (xs : List (Ipv6Net × V)) :
    (m.Covered → (forEach (T.put .ncp) m xs).1.Covered) ∧ (∀ n, n ∉ xs.map Prod.fst →
      (n ∈ T.ncpNets (forEach (T.put .ncp) m xs).1 ↔ n ∈ T.ncpNets m)) := by
  induction xs generalizing m with
  | nil => exact ⟨id, fun _ _ => Iff.rfl⟩
  | cons x xs ih =>
    obtain ⟨hcov, hncp⟩ := ih (T.put .ncp m x).1
    refine ⟨fun h => hcov (T.put_covered m .ncp x h), fun n hn => ?_⟩
    rw [List.map_cons, List.mem_cons, not_or] at hn
    exact (hncp n hn.2).trans (T.put_ncp m .ncp x hn.1)

theorem forEach_drop (ds : List Ipv6Net) : T.nets (forEach T.drop m ds).1 = T.nets m \ { n | n ∈ ds } ∧
      (forEach T.drop m ds).1.routeNets = m.routeNets \ { n | n ∈ ds } := by
  induction ds generalizing m with
  | nil => exact ⟨by simp [forEach], by simp [forEach]⟩
  | cons d ds ih =>
    obtain ⟨hnets, hroutes⟩ := ih (T.drop m d).1
    have hset : { n | n ∈ d :: ds } = {d} ∪ { n | n ∈ ds } := Set.ext fun n => List.mem_cons
    rw [hset, ← Set.sdiff_sdiff, ← Set.sdiff_sdiff, ← (T.drop_nets m d).1, ← (T.drop_nets m d).2]
    exact ⟨hnets, hroutes⟩

theorem drop_other (d : Ipv6Net) : T.other (T.drop m d).1 = T.other m := (T.drop_spec m d).2.1

theorem apply_other (iter : Iteration Ipv6Net E) (xs : List (Ipv6Net × V)) :
    T.other (T.apply m iter xs).1 = T.other m := by
  rw [T.apply_eq]
  exact snapshot_keeps (fun m x => T.put_other m .ncp x) T.drop_other _ m xs

/-- **Dropping prefixes** keeps the routes the union of both tables exactly when the other table has
    none of them. -/
theorem drop_covered_iff (h : m.Covered) (ds : List Ipv6Net) :
    (forEach T.drop m ds).1.Covered ↔ ∀ n ∈ ds, n ∉ T.other m := by
  obtain ⟨hnets, hroutes⟩ := T.forEach_drop m ds
  rw [T.covered_iff, show { n | n ∈ T.table _ } = _ from hnets, hroutes, forEach_keeps T.drop_other,
    (T.covered_iff m).mp h]
  exact union_diff_eq_iff

/-- A call takes the prefix out, if it is there. -/
def Removed (net : Ipv6Net) (m' : AddressManager) : Prop :=
  net ∈ T.nets m ∧ m' = (T.drop m net).1 ∨ net ∉ T.nets m ∧ m' = m

theorem removed_covered_iff (h : m.Covered) {net : Ipv6Net} {m' : AddressManager}
    (hm' : T.Removed m net m') : m'.Covered ↔ (net ∈ T.nets m → net ∉ T.other m) := by
  rcases hm' with ⟨hin, rfl⟩ | ⟨hnot, rfl⟩
  · exact ((T.drop_covered_iff m h [net]).trans List.forall_mem_singleton).trans
      ⟨fun hn _ => hn, fun hn => hn hin⟩
  · exact iff_of_true h fun hin => absurd hin hnot

/-- **A snapshot** does so exactly when no prefix that the NCP no longer reports is in the other
    table. -/
theorem apply_covered_iff (h : m.Covered) (iter : Iteration Ipv6Net E) (xs : List (Ipv6Net × V)) :
    (T.apply m iter xs).1.Covered ↔ ∀ n ∈ T.ncpNets m, n ∉ xs.map Prod.fst → n ∉ T.other m := by
  obtain ⟨hcov, hncp⟩ := T.forEach_put m xs
  rw [T.apply_eq]
  refine (T.drop_covered_iff _ (hcov h) _).trans ?_
  rw [forEach_keeps fun m x => T.put_other m .ncp x]
  refine forall_congr' fun n => ?_
  rw [T.mem_stale, and_imp]
  constructor
  · intro hall hn hseen
    exact hall ((hncp n hseen).mpr hn) hseen
  · intro hall hn hseen
    exact hall ((hncp n hseen).mp hn) hseen

end MeshTable

/-! ## 3. The two tables -/

/-- The on-mesh table, with the off-mesh table beside it. A route that is there is kept. -/
def onMeshTable : MeshTable Bool OnMeshEntry OffMeshEntry where
  table := AddressManager.onMesh
  other := AddressManager.offMesh
  entry := OnMeshEntry.mk
  origin := OnMeshEntry.origin
  value := OnMeshEntry.stable
  metric _ old := old.getD 256
  put := putOnMesh
  drop := dropOnMesh
  stale := staleOnMesh
  apply := applyNcpOnMeshTable
  origin_entry _ _ := rfl
  value_entry _ _ := rfl
  covered_iff _ := Iff.rfl
  put_same o m x h := by rw [putOnMesh, onMeshChanges, if_neg (by simpa using h)]
  put_new o m x h := by
    rw [putOnMesh, onMeshChanges, if_pos (decide_eq_true h)]
    refine ⟨?_, ?_, fun n => lookup_addRouteIfVacant _ x.1 256 n⟩
    · rw [addRouteIfVacant_eq]
    · rw [addRouteIfVacant_eq]
  drop_spec m d := by
    unfold dropOnMesh
    refine ⟨?_, ?_, fun n => lookup_removeRoute _ d n⟩
    · rw [removeRoute_eq]
    · rw [removeRoute_eq]
  stale_eq _ _ _ := rfl
  apply_eq _ _ _ := rfl

/-- The off-mesh table, with the on-mesh table beside it. A route takes the new metric. -/
def offMeshTable : MeshTable UInt32 OffMeshEntry OnMeshEntry where
  table := AddressManager.offMesh
  other := AddressManager.onMesh
  entry := OffMeshEntry.mk
  origin := OffMeshEntry.origin
  value := OffMeshEntry.metric
  metric new _ := new
  put := putOffMesh
  drop := dropOffMesh
  stale := staleOffMesh
  apply := applyNcpOffMeshTable
  origin_entry _ _ := rfl
  value_entry _ _ := rfl
  covered_iff m := by
    rw [Set.union_comm]
    exact Iff.rfl
  put_same o m x h := by rw [putOffMesh, offMeshChanges, if_neg (by simpa using h)]
  put_new o m x h := by
    rw [putOffMesh, offMeshChanges, if_pos (decide_eq_true h)]
    refine ⟨?_, ?_, fun n => lookup_setRoute _ x.1 x.2 n⟩
    · rw [setRoute_eq]
    · rw [setRoute_eq]
  drop_spec m d := by
    unfold dropOffMesh
    refine ⟨?_, ?_, fun n => lookup_removeRoute _ d n⟩
    · rw [removeRoute_eq]
    · rw [removeRoute_eq]
  stale_eq _ _ _ := rfl
  apply_eq _ _ _ := rfl

theorem removed_removeOnMesh (m : AddressManager) (net : Ipv6Net) :
    onMeshTable.Removed m net (m.removeOnMesh net).2.1 := by
  unfold removeOnMesh
  cases hl : m.onMesh.lookup net with
  | some entry => exact .inl ⟨HashTable.mem_of_lookup hl, rfl⟩
  | none => exact .inr ⟨AList.lookup_eq_none.mp hl, rfl⟩

theorem removed_removeOffMesh (m : AddressManager) (net : Ipv6Net) :
    offMeshTable.Removed m net (m.removeOffMesh net).2.1 := by
  unfold removeOffMesh
  cases hl : m.offMesh.lookup net with
  | some entry => exact .inl ⟨HashTable.mem_of_lookup hl, rfl⟩
  | none => exact .inr ⟨AList.lookup_eq_none.mp hl, rfl⟩

/-! ## 4. Calls and runs -/

/-- **The call drops no prefix that the other table has.** -/
def NoSharedDrop (m : AddressManager) : Event → Prop
  | .applyNcpOnMeshTable _ nets => ∀ n, (∃ e, m.onMesh.lookup n = some e ∧ e.origin = .ncp) →
      n ∉ nets.map Prod.fst → n ∉ m.offMesh
  | .applyNcpOffMeshTable _ nets => ∀ n, (∃ e, m.offMesh.lookup n = some e ∧ e.origin = .ncp) →
      n ∉ nets.map Prod.fst → n ∉ m.onMesh
  | .removeOnMesh net => net ∈ m.onMesh → net ∉ m.offMesh
  | .removeOffMesh net => net ∈ m.offMesh → net ∉ m.onMesh
  | _ => True

def routing (m : AddressManager) := (m.onMesh, m.offMesh, m.interfaceRoutes)

variable {m m' : AddressManager}

theorem nets_of_routing_eq (e : routing m' = routing m) :
    m'.onMeshNets = m.onMeshNets ∧ m'.offMeshNets = m.offMeshNets ∧ m'.routeNets = m.routeNets := by
  simp only [routing, Prod.mk.injEq] at e
  obtain ⟨hon, hoff, hroutes⟩ := e
  unfold routeNets onMeshNets offMeshNets
  rw [hon, hoff, hroutes]
  exact ⟨rfl, rfl, rfl⟩

theorem covered_of_routing_eq (h : m.Covered) (e : routing m' = routing m) : m'.Covered := by
  obtain ⟨hon, hoff, hroutes⟩ := nets_of_routing_eq e
  unfold Covered at h ⊢
  rw [hon, hoff, hroutes]
  exact h

theorem routing_addressTable (m : AddressManager) (iter : Iteration Ipv6Addr UnicastEntry)
    (addrs : List (Ipv6Addr × UInt8)) : routing (m.applyNcpAddressTable iter addrs).1 = routing m := by
  have hreport : ∀ (m : AddressManager) x, routing (m.reportAddress x).1 = routing m := by
    intro m x
    unfold reportAddress
    repeat' split
    all_goals rfl
  have hdrop : ∀ (m : AddressManager) x, routing (m.dropAddress x).1 = routing m := fun _ _ => rfl
  exact (forEach_keeps hdrop _ _).trans (forEach_keeps hreport m addrs)

theorem routing_multicastTable (m : AddressManager) (iter : Iteration Ipv6Addr Origin)
    (addrs : List Ipv6Addr) : routing (m.applyNcpMulticastTable iter addrs).1 = routing m := by
  have hreport : ∀ (m : AddressManager) x, routing (m.reportGroup x).1 = routing m := by
    intro m x
    unfold reportGroup
    split
    · rfl
    · rfl
  have hdrop : ∀ (m : AddressManager) x, routing (m.dropGroup x).1 = routing m := fun _ _ => rfl
  exact (forEach_keeps hdrop _ _).trans (forEach_keeps hreport m addrs)

/-- **One call.** -/
theorem covered_step_iff (h : m.Covered) (e : Event) : (m.step e).1.Covered ↔ NoSharedDrop m e := by
  cases e with
  | applyNcpAddressTable iter addrs =>
    exact iff_true_intro (covered_of_routing_eq h (routing_addressTable m iter addrs))
  | applyNcpMulticastTable iter addrs =>
    exact iff_true_intro (covered_of_routing_eq h (routing_multicastTable m iter addrs))
  | applyNcpOnMeshTable iter nets => exact onMeshTable.apply_covered_iff m h iter nets
  | applyNcpOffMeshTable iter nets => exact offMeshTable.apply_covered_iff m h iter nets
  | insertOnMesh net stable => exact iff_true_intro (onMeshTable.put_covered m .user _ h)
  | insertOffMesh net metric => exact iff_true_intro (offMeshTable.put_covered m .user _ h)
  | removeOnMesh net => exact onMeshTable.removed_covered_iff m h (removed_removeOnMesh m net)
  | removeOffMesh net => exact offMeshTable.removed_covered_iff m h (removed_removeOffMesh m net)

theorem covered_new : AddressManager.new.Covered :=
  Set.ext fun n => ⟨fun h => absurd h (AList.notMem_empty n),
    fun h => h.elim (fun h => absurd h (AList.notMem_empty n)) fun h => absurd h (AList.notMem_empty n)⟩

/-- **When the interface routes are those of both tables**: exactly if no call drops from one table a prefix
    that the other one has. -/
theorem routes_cover_iff (events : List Event) :
    Along (fun (m : AddressManager) e => (m.step e).1) (fun m e => (m.step e).1.Covered)
        AddressManager.new events ↔
      Along (fun (m : AddressManager) e => (m.step e).1) NoSharedDrop AddressManager.new events := by
  have hstep : ∀ (m : AddressManager) (e : Event), m.Covered → True → NoSharedDrop m e →
      (m.step e).1.Covered := fun m e h _ hn => (covered_step_iff h e).mpr hn
  exact along_iff hstep (fun m e h _ => covered_step_iff h e) covered_new (along_true _ _)

/-- `2020:abcd::/64`. -/
def meshNet : Ipv6Net :=
  ⟨⟨[0x20, 0x20, 0xAB, 0xCD, 0, 0, 0, 0, 0, 0, 0, 0, 0, 0, 0, 0], rfl⟩, 64, by decide⟩

/-- **A prefix of both tables loses its route** when it is removed from one. -/
theorem shared_prefix_loses_route :
    let m := run (fun (m : AddressManager) e => (m.step e).1) AddressManager.new
      [.insertOnMesh meshNet true, .insertOffMesh meshNet 256, .removeOffMesh meshNet]
    meshNet ∈ m.onMesh ∧ meshNet ∉ m.interfaceRoutes ∧ ¬ m.Covered := by
  intro m
  have hon : meshNet ∈ m.onMesh := by decide +kernel
  have hroute : meshNet ∉ m.interfaceRoutes := by decide +kernel
  refine ⟨hon, hroute, fun h => hroute ?_⟩
  have hmem : meshNet ∈ m.onMeshNets ∪ m.offMeshNets := .inl hon
  rw [← h] at hmem
  exact hmem

end DcuDaemon.Addresses
