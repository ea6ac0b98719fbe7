/-
  What one snapshot of the NCP leaves in the tables of the manager
  (`crates/dcu-tunnel-daemon/src/instance/addresses.rs`, the four `apply_ncp_*_table`).

  Each of the four functions is a loop over what is reported and a loop over what is stale, and each
  round touches one address or prefix: its entry, and for a prefix its interface route. This is the cell
  of the key (`CellTable`), and the rules for loops over cells say the rest.

  Main result: `ncp_tables_converge`.
-/
import DcuDaemon.Instance.RouteCover

namespace DcuDaemon.Addresses

open Lib AddressManager List Option

/-! ## 1. Tables that are reported -/

structure SameTables (m m' : AddressManager) : Prop where
  unicast : ∀ k, m.unicast.lookup k = m'.unicast.lookup k
  multicast : ∀ k, m.multicast.lookup k = m'.multicast.lookup k
  onMesh : ∀ k, m.onMesh.lookup k = m'.onMesh.lookup k
  offMesh : ∀ k, m.offMesh.lookup k = m'.offMesh.lookup k
  interfaceRoutes : ∀ k, m.interfaceRoutes.lookup k = m'.interfaceRoutes.lookup k

/-- A table with keys `K` and entries `E`; the NCP reports a `V` for every key. -/
structure NcpTable (K V E : Type) [DecidableEq K] where
  table : AddressManager → HashTable K E
  origin : E → Origin
  value : E → V
  apply : AddressManager → Iteration K E → List (K × V) → AddressManager × List TunOp

section Converges

variable {K V E : Type} [DecidableEq K]

/-- **What a snapshot leaves.** -/
structure Converges (T : NcpTable K V E) (m : AddressManager) (iter : Iteration K E)
    (xs : List (K × V)) : Prop where
  /-- A reported key is there with the reported value. -/
  present : ∀ x ∈ xs, ∃ e, (T.table (T.apply m iter xs).1).lookup x.1 = some e ∧ T.value e = x.2
  /-- What is left of the NCP's entries is reported. -/
  reported : ∀ k e, (T.table (T.apply m iter xs).1).lookup k = some e → T.origin e = .ncp →
    k ∈ xs.map Prod.fst
  /-- The other entries are kept where nothing is reported. -/
  kept : ∀ k e, (T.table m).lookup k = some e → T.origin e ≠ .ncp → k ∉ xs.map Prod.fst →
    (T.table (T.apply m iter xs).1).lookup k = some e
  /-- The same snapshot again. -/
  again : ∀ iter', T.apply (T.apply m iter xs).1 iter' xs = ((T.apply m iter xs).1, [])
  /-- The snapshot in another order. -/
  unordered : ∀ iter' xs', xs'.Perm xs → SameTables (T.apply m iter' xs').1 (T.apply m iter xs).1

end Converges

/-! ## 2. Cells -/

/-- A reported table whose loops work on cells: the entry of a key with what belongs to it. -/
structure CellTable (K V E D C : Type) [DecidableEq K] extends NcpTable K V E where
  put : AddressManager → K × V → AddressManager × List TunOp
  drop : AddressManager → D → AddressManager × List TunOp
  dropKey : D → K
  stale : AddressManager → Iteration K E → List K → List D
  apply_eq : ∀ m iter xs,
    apply m iter xs = snapshot put drop (fun m => stale m iter (xs.map Prod.fst)) m xs
  cell : AddressManager → K → C
  entry : C → Option E
  entry_cell : ∀ m k, entry (cell m k) = (table m).lookup k
  putCell : K × V → C → C
  gone : C
  put_local : LocalBody cell Prod.fst putCell put
  drop_local : LocalBody cell dropKey (fun _ _ => gone) drop
  mem_stale : ∀ m iter seen k, k ∈ (stale m iter seen).map dropKey ↔
    (∃ e, (table m).lookup k = some e ∧ origin e = .ncp) ∧ k ∉ seen
  putCell_entry : ∀ x c, ∃ e, entry (putCell x c) = some e ∧ value e = x.2
  entry_gone : entry gone = none
  put_idle : ∀ m x e, (table m).lookup x.1 = some e → value e = x.2 → put m x = (m, [])
  /-- What the two loops do not touch. -/
  rest : AddressManager → AddressManager
  put_rest : ∀ m x, rest (put m x).1 = rest m
  drop_rest : ∀ m y, rest (drop m y).1 = rest m
  sameTables : ∀ m m', (∀ k, cell m k = cell m' k) → rest m = rest m' → SameTables m m'

namespace CellTable

variable {K V E D C : Type} [DecidableEq K] (T : CellTable K V E D C)

/-- The cell has an entry of the NCP. -/
def StaleCell (c : C) : Prop := ∃ e, T.entry c = some e ∧ T.origin e = .ncp

instance (c : C) : Decidable (T.StaleCell c) :=
  match h : T.entry c with
  | none => isFalse fun ⟨_, he, _⟩ => by rw [h] at he; cases he
  | some e =>
    if ho : T.origin e = .ncp then isTrue ⟨e, h, ho⟩
    else isFalse fun ⟨e', he, ho'⟩ => by rw [h] at he; cases he; exact ho ho'

theorem mem_staleCell (iter : Iteration K E) (seen : List K) (m : AddressManager) (k : K) :
    k ∈ (T.stale m iter seen).map T.dropKey ↔ T.StaleCell (T.cell m k) ∧ k ∉ seen := by
  rw [T.mem_stale, StaleCell, T.entry_cell]

section Snapshot

variable (m : AddressManager) (iter : Iteration K E) {xs : List (K × V)}

theorem lookup_apply_mem (hnodup : (xs.map Prod.fst).Nodup) {x : K × V} (hx : x ∈ xs) :
    ∃ e, (T.table (T.apply m iter xs).1).lookup x.1 = some e ∧ T.value e = x.2 := by
  rw [← T.entry_cell, T.apply_eq, snapshot_cell_mem T.put_local T.drop_local
    (T.mem_staleCell iter (xs.map Prod.fst)) hnodup hx]
  exact T.putCell_entry x _

theorem lookup_apply_not_mem {k : K} (hk : k ∉ xs.map Prod.fst) :
    (T.table (T.apply m iter xs).1).lookup k =
      if T.StaleCell (T.cell m k) then none else (T.table m).lookup k := by
  rw [← T.entry_cell, T.apply_eq, snapshot_cell_not_mem T.put_local T.drop_local
    (T.mem_staleCell iter (xs.map Prod.fst)) hk]
  split
  · exact T.entry_gone
  · exact T.entry_cell m k

theorem reported_apply {k : K} {e : E} (he : (T.table (T.apply m iter xs).1).lookup k = some e)
    (ho : T.origin e = .ncp) : k ∈ xs.map Prod.fst := by
  by_contra hk
  rw [T.lookup_apply_not_mem m iter hk] at he
  split at he
  · cases he
  · rename_i hfresh
    exact hfresh ⟨e, (T.entry_cell m k).trans he, ho⟩

/-- **Every such table converges.** -/
theorem converges (hnodup : (xs.map Prod.fst).Nodup) : Converges T.toNcpTable m iter xs where
  present x hx := T.lookup_apply_mem m iter hnodup hx
  reported k e he ho := T.reported_apply m iter he ho
  kept k e he ho hk := by
    rw [T.lookup_apply_not_mem m iter hk, if_neg, he]
    intro ⟨e', he', ho'⟩
    rw [T.entry_cell, he] at he'
    cases he'
    exact ho ho'
  again iter' := by
    rw [T.apply_eq (T.apply m iter xs).1]
    refine snapshot_idle (fun x hx => ?_) (eq_nil_iff_forall_not_mem.mpr fun y hy => ?_)
    · obtain ⟨e, he, hv⟩ := T.lookup_apply_mem m iter hnodup hx
      exact T.put_idle _ x e he hv
    · -- what is stale would be the NCP's and not reported
      obtain ⟨⟨e, he, ho⟩, hk⟩ := (T.mem_stale _ iter' _ _).mp (mem_map_of_mem hy)
      exact hk (T.reported_apply m iter he ho)
  unordered iter' xs' hperm := by
    have hrest (iter : Iteration K E) (xs : List (K × V)) : T.rest (T.apply m iter xs).1 = T.rest m := by
      rw [T.apply_eq]
      exact snapshot_keeps T.put_rest T.drop_rest _ m xs
    refine T.sameTables _ _ (fun k => ?_) ((hrest iter' xs').trans (hrest iter xs).symm)
    rw [T.apply_eq, T.apply_eq]
    exact snapshot_cell_perm T.put_local T.drop_local (T.mem_staleCell iter (xs.map Prod.fst))
      (T.mem_staleCell iter' (xs'.map Prod.fst)) hnodup hperm m k

end Snapshot

end CellTable

/-! ## 3. Addresses and groups -/

theorem exists_entry_of_put {V E C : Type} [DecidableEq V] (entry : C → Option E) (value : E → V)
    {c new : C} {v : V} {e : E} (he : entry new = some e) (hv : value e = v) :
    ∃ e, entry (if (entry c).map value = some v then c else new) = some e ∧ value e = v := by
  by_cases h : (entry c).map value = some v
  · rw [if_pos h]
    exact map_eq_some_iff.mp h
  · rw [if_neg h]
    exact ⟨e, he, hv⟩

/-- `apply_ncp_address_table`. -/
def unicastTable : CellTable Ipv6Addr UInt8 UnicastEntry (Ipv6Addr × UInt8) (Option UnicastEntry) where
  table := AddressManager.unicast
  origin := UnicastEntry.origin
  value := UnicastEntry.prefixLen
  apply := applyNcpAddressTable
  put := reportAddress
  drop := dropAddress
  dropKey := Prod.fst
  stale := staleAddresses
  apply_eq _ _ _ := rfl
  cell m k := m.unicast.lookup k
  entry := id
  entry_cell _ _ := rfl
  putCell x c := if c.map (·.prefixLen) = some x.2 then c else some ⟨.ncp, x.2⟩
  gone := none
  put_local := by
    have hput (m : AddressManager) (x : Ipv6Addr × UInt8) : (m.reportAddress x).1.unicast =
        if (m.unicast.lookup x.1).map (·.prefixLen) = some x.2 then m.unicast
        else m.unicast.insert x.1 ⟨.ncp, x.2⟩ := by
      unfold reportAddress
      cases m.unicast.lookup x.1 with
      | none => rfl
      | some e =>
        simp only [Option.map_some, Option.some.injEq]
        split <;> rfl
    constructor
    · intro m x
      rw [hput]
      split
      · rfl
      · exact AList.lookup_insert _
    · intro m x k hk
      rw [hput]
      split
      · rfl
      · exact AList.lookup_insert_ne hk
  drop_local := ⟨fun m x => AList.lookup_erase _ _, fun m x k hk => AList.lookup_erase_ne hk⟩
  mem_stale m iter seen k := by
    rw [staleAddresses, List.map_map]
    refine (iter.mem_filter_keys m.unicast _ k).trans ?_
    simp only [decide_eq_true_eq, ← and_assoc, exists_and_right]
  putCell_entry x c := exists_entry_of_put id UnicastEntry.prefixLen rfl rfl
  entry_gone := rfl
  put_idle m x e he hv := by
    rw [reportAddress]
    simp only [he, hv, if_true]
  rest m := { m with unicast := ∅ }
  put_rest m x := by
    unfold reportAddress
    cases m.unicast.lookup x.1 with
    | none => rfl
    | some e =>
      dsimp only
      split <;> rfl
  drop_rest _ _ := rfl
  sameTables m m' hcell hrest := by
    cases m; cases m'; cases hrest
    exact ⟨hcell, fun _ => rfl, fun _ => rfl, fun _ => rfl, fun _ => rfl⟩

/-- `apply_ncp_multicast_table`; a group has no value. -/
def multicastTable : CellTable Ipv6Addr Unit Origin Ipv6Addr (Option Origin) where
  table := AddressManager.multicast
  origin := id
  value _ := ()
  apply m iter xs := m.applyNcpMulticastTable iter (xs.map Prod.fst)
  put m x := m.reportGroup x.1
  drop := dropGroup
  dropKey := id
  stale := staleGroups
  apply_eq m iter xs := by
    rw [applyNcpMulticastTable, forEach_map]
    rfl
  cell m k := m.multicast.lookup k
  entry := id
  entry_cell _ _ := rfl
  putCell _ c := c.or (some .ncp)
  gone := none
  put_local := by
    constructor
    · intro m x
      unfold reportGroup
      cases h : m.multicast.lookup x.1 with
      | some o => exact h
      | none => exact AList.lookup_insert _
    · intro m x k hk
      unfold reportGroup
      cases m.multicast.lookup x.1 with
      | some o => rfl
      | none => exact AList.lookup_insert_ne hk
  drop_local := ⟨fun m x => AList.lookup_erase _ _, fun m x k hk => AList.lookup_erase_ne hk⟩
  mem_stale m iter seen k := by
    rw [staleGroups, List.map_id]
    refine (iter.mem_filter_keys m.multicast _ k).trans ?_
    simp only [decide_eq_true_eq, ← and_assoc, exists_and_right, id]
  putCell_entry x c := by
    cases c with
    | none => exact ⟨_, rfl, rfl⟩
    | some o => exact ⟨o, rfl, rfl⟩
  entry_gone := rfl
  put_idle m x e he _ := by
    rw [reportGroup]
    simp only [he]
  rest m := { m with multicast := ∅ }
  put_rest m x := by
    unfold reportGroup
    cases m.multicast.lookup x.1 <;> rfl
  drop_rest _ _ := rfl
  sameTables m m' hcell hrest := by
    cases m; cases m'; cases hrest
    exact ⟨fun _ => rfl, hcell, fun _ => rfl, fun _ => rfl, fun _ => rfl⟩

/-! ## 4. Prefixes and routes -/

/-- A table of prefixes, each with its interface route. -/
def MeshTable.cells {V E F : Type} [DecidableEq V] (T : MeshTable V E F)
    (rest : AddressManager → AddressManager) (put_rest : ∀ m x, rest (T.put .ncp m x).1 = rest m)
    (drop_rest : ∀ m d, rest (T.drop m d).1 = rest m)
    (sameTables : ∀ m m', (∀ k, ((T.table m).lookup k, m.interfaceRoutes.lookup k) =
      ((T.table m').lookup k, m'.interfaceRoutes.lookup k)) → rest m = rest m' → SameTables m m') :
    CellTable Ipv6Net V E Ipv6Net (Option E × Option UInt32) where
  table := T.table
  origin := T.origin
  value := T.value
  apply := T.apply
  put := T.put .ncp
  drop := T.drop
  dropKey := id
  stale := T.stale
  apply_eq := T.apply_eq
  cell m k := ((T.table m).lookup k, m.interfaceRoutes.lookup k)
  entry := Prod.fst
  entry_cell _ _ := rfl
  putCell x c :=
    if c.1.map T.value = some x.2 then c else (some (T.entry .ncp x.2), some (T.metric x.2 c.2))
  gone := (none, none)
  put_local := by
    constructor
    · intro m x
      dsimp only
      split
      · rename_i hc
        rw [T.put_same .ncp m x hc]
      · rename_i hc
        obtain ⟨htable, -, hroutes⟩ := T.put_new .ncp m x hc
        rw [htable, hroutes, AList.lookup_insert, if_pos rfl]
    · intro m x k hk
      by_cases hc : ((T.table m).lookup x.1).map T.value = some x.2
      · rw [T.put_same .ncp m x hc]
      · obtain ⟨htable, -, hroutes⟩ := T.put_new .ncp m x hc
        rw [htable, hroutes, AList.lookup_insert_ne hk, if_neg hk]
  drop_local := by
    constructor
    · intro m d
      obtain ⟨htable, -, hroutes⟩ := T.drop_spec m d
      rw [htable, hroutes]
      exact Prod.ext (AList.lookup_erase _ _) (if_pos rfl)
    · intro m d k hk
      obtain ⟨htable, -, hroutes⟩ := T.drop_spec m d
      rw [htable, hroutes]
      exact Prod.ext (AList.lookup_erase_ne hk) (if_neg hk)
  mem_stale m iter seen k := by
    rw [List.map_id]
    exact T.mem_stale m iter seen k
  putCell_entry x c := exists_entry_of_put Prod.fst T.value rfl (T.value_entry .ncp x.2)
  entry_gone := rfl
  put_idle m x e he hv := T.put_same .ncp m x (by rw [he, Option.map_some, hv])
  rest := rest
  put_rest := put_rest
  drop_rest := drop_rest
  sameTables := sameTables

/-- `apply_ncp_on_mesh_table`. -/
def onMeshCells : CellTable Ipv6Net Bool OnMeshEntry Ipv6Net (Option OnMeshEntry × Option UInt32) :=
  onMeshTable.cells (fun m => { m with onMesh := ∅, interfaceRoutes := ∅ }) (fun m x => by
      show { (m.putOnMesh .ncp x).1 with onMesh := ∅, interfaceRoutes := ∅ } = _
      unfold putOnMesh
      split
      · rw [addRouteIfVacant_eq]
      · rfl)
    (fun m d => by
      show { (m.dropOnMesh d).1 with onMesh := ∅, interfaceRoutes := ∅ } = _
      rw [dropOnMesh, removeRoute_eq])
    (fun m m' hcell hrest => by
      cases m; cases m'; cases hrest
      exact ⟨fun _ => rfl, fun _ => rfl, fun k => congrArg Prod.fst (hcell k), fun _ => rfl,
        fun k => congrArg Prod.snd (hcell k)⟩)

/-- `apply_ncp_off_mesh_table`. -/
def offMeshCells : CellTable Ipv6Net UInt32 OffMeshEntry Ipv6Net (Option OffMeshEntry × Option UInt32) :=
  offMeshTable.cells (fun m => { m with offMesh := ∅, interfaceRoutes := ∅ }) (fun m x => by
      show { (m.putOffMesh .ncp x).1 with offMesh := ∅, interfaceRoutes := ∅ } = _
      unfold putOffMesh
      split
      · rw [setRoute_eq]
      · rfl)
    (fun m d => by
      show { (m.dropOffMesh d).1 with offMesh := ∅, interfaceRoutes := ∅ } = _
      rw [dropOffMesh, removeRoute_eq])
    (fun m m' hcell hrest => by
      cases m; cases m'; cases hrest
      exact ⟨fun _ => rfl, fun _ => rfl, fun _ => rfl, fun k => congrArg Prod.fst (hcell k),
        fun k => congrArg Prod.snd (hcell k)⟩)

/-! ## 5. The four tables -/

/-- **Every snapshot converges**, for each table, from every state, in every order, if no key comes twice. -/
theorem ncp_tables_converge (m : AddressManager) :
    (∀ iter (addrs : List (Ipv6Addr × UInt8)), (addrs.map Prod.fst).Nodup →
        Converges unicastTable.toNcpTable m iter addrs) ∧
      (∀ iter (groups : List (Ipv6Addr × Unit)), (groups.map Prod.fst).Nodup →
        Converges multicastTable.toNcpTable m iter groups) ∧
      (∀ iter (nets : List (Ipv6Net × Bool)), (nets.map Prod.fst).Nodup →
        Converges onMeshCells.toNcpTable m iter nets) ∧
      (∀ iter (nets : List (Ipv6Net × UInt32)), (nets.map Prod.fst).Nodup →
        Converges offMeshCells.toNcpTable m iter nets) :=
  ⟨fun iter _ h => unicastTable.converges m iter h, fun iter _ h => multicastTable.converges m iter h,
    fun iter _ h => onMeshCells.converges m iter h, fun iter _ h => offMeshCells.converges m iter h⟩

/-- Two prefixes of the user; the NCP reports one of them with another flag, beside a new one. -/
theorem ncp_tables_converge_user_prefix :
    Converges onMeshCells.toNcpTable ((AddressManager.new.insertOnMesh meshNet false).2.1.insertOnMesh
        ⟨meshNet.addr, 48, by decide⟩ false).2.1
      (Iteration.stored _ _) [(meshNet, true), (⟨meshNet.addr, 56, by decide⟩, true)] :=
  (ncp_tables_converge _).2.2.1 _ _ (by decide)

end DcuDaemon.Addresses
