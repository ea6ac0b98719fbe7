/-
  `PropInsert` and `PropRemove` (`base.rs`: `handle_command`, `address_prop_insert`,
  `address_prop_remove`, `mirror_address_state`; `addresses.rs`: the read views).

  A command on a list property first changes the address manager, the TUN and the views of
  `DaemonState`, and then looks the property up to send the value to the NCP. The map of handlers has
  neither of the two properties whose lists the manager keeps.

  Main result: `error_keeps_state_iff`.
-/
import DcuDaemon.Dbus.Properties
import DcuDaemon.Instance.PropertyHandlers
import DcuDaemon.Instance.Requests
import DcuDaemon.Instance.RouteCover

namespace DcuDaemon.Instance

open Addresses Dbus Lib Spinel AddressManager

/-! ## 1. The views of the manager -/

/-- What `std::net` and `ipnet` print and read. -/
structure NetTexts where
  /-- `{}` of an `Ipv6Addr`. -/
  ofAddr : Ipv6Addr → String
  /-- `{}` of an `Ipv6Net`. -/
  ofNet : Ipv6Net → String
  /-- `s.parse::<Ipv6Net>()`. -/
  parse : String → Option Ipv6Net

def originTag : Origin → String
  | .ncp => "NCP"
  | .interface => "IFA"
  | .user => "USER"

section Views

variable (t : NetTexts) (m : AddressManager)

/-- The texts of a table's entries, sorted; the order of the table does not matter. -/
def sortedTexts {K V : Type} (table : HashTable K V) (text : K → V → String) : List String :=
  (table.entries.map fun x => text x.1 x.2).mergeSort fun a b => decide (a ≤ b)

theorem sortedTexts_empty {K V : Type} (text : K → V → String) :
    sortedTexts (∅ : HashTable K V) text = [] :=
  List.mergeSort_nil

def allAddresses : List String := sortedTexts m.unicast fun addr e =>
    t.ofAddr addr ++ "/" ++ toString e.prefixLen.toNat ++ "/" ++ originTag e.origin

def routes : List String := sortedTexts m.interfaceRoutes fun net metric =>
    t.ofNet net ++ " metric:" ++ toString metric.toNat

def onMeshPrefixes : List String := sortedTexts m.onMesh fun net e =>
    t.ofNet net ++ " stable:" ++ toString e.stable ++ "/" ++ originTag e.origin

def offMeshRoutes : List String := sortedTexts m.offMesh fun net e =>
    t.ofNet net ++ " metric:" ++ toString e.metric.toNat ++ "/" ++ originTag e.origin

def mirrorAddressState (ds : DaemonState) : DaemonState :=
  { ds with
    ipv6AllAddresses := allAddresses t m
    ipv6Routes := routes t m
    onMeshPrefixes := onMeshPrefixes t m
    offMeshRoutes := offMeshRoutes t m }

end Views

/-! ## 2. The instance -/

/-- What a list command touches. `mirror_address_state` follows every change, so the views are never
    behind. -/
structure NcpInstance (t : NetTexts) where
  addressManager : AddressManager
  /-- Whether the TUN interface is open. -/
  tunOpen : Bool
  /-- The operations applied to it so far. -/
  tunOps : List TunOp
  sharedState : DaemonState
  mirrored : mirrorAddressState t addressManager sharedState = sharedState

namespace NcpInstance

variable {t : NetTexts}

def new (t : NetTexts) (tunOpen : Bool) : NcpInstance t where
  addressManager := .new
  tunOpen := tunOpen
  tunOps := []
  sharedState := DaemonState.default
  mirrored := by
    simp only [mirrorAddressState, allAddresses, routes, onMeshPrefixes, offMeshRoutes,
      AddressManager.new, sortedTexts_empty]
    rfl

/-- The manager after a call, `apply_tun_ops` and `mirror_address_state`. -/
def update (s : NcpInstance t) (call : AddressManager × List TunOp) : NcpInstance t where
  addressManager := call.1
  tunOpen := s.tunOpen
  tunOps := if s.tunOpen then s.tunOps ++ call.2 else s.tunOps
  sharedState := mirrorAddressState t call.1 s.sharedState
  mirrored := rfl

theorem update_self (s : NcpInstance t) : s.update (s.addressManager, []) = s := by
  obtain ⟨m, tunOpen, tunOps, ds, hds⟩ := s
  unfold update
  simp only [List.append_nil, ite_self, hds]

end NcpInstance

section Commands

variable {ω : Type} (lib : Externals ω) {t : NetTexts}

def addressPropInsert (s : NcpInstance t) (name : String) (value : Variant ω) : NcpInstance t :=
  if name = "Thread:OnMeshPrefixes" then
    match t.parse (variantToString lib value) with
    | some net => s.update (s.addressManager.insertOnMesh net true).2
    | none => s
  else if name = "Thread:OffMeshRoutes" then
    match t.parse (variantToString lib value) with
    | some net => s.update (s.addressManager.insertOffMesh net 256).2
    | none => s
  else s

def addressPropRemove (s : NcpInstance t) (name : String) (value : Variant ω) : NcpInstance t :=
  if name = "Thread:OnMeshPrefixes" then
    match t.parse (variantToString lib value) with
    | some net => s.update (s.addressManager.removeOnMesh net).2
    | none => s
  else if name = "Thread:OffMeshRoutes" then
    match t.parse (variantToString lib value) with
    | some net => s.update (s.addressManager.removeOffMesh net).2
    | none => s
  else s

/-- The bytes of an inserted or removed value; a type without bytes of its own goes by its text. -/
def listWireBytes : Variant ω → List UInt8
  | .str s => asBytes s
  | .u8 n => [n]
  | .u16 n => leBytes 2 n.toNat
  | .u32 n => leBytes 4 n.toNat
  | .i16 n => leBytes 2 n.toUInt16.toNat
  | .bool b => [if b then 1 else 0]
  | v => asBytes (variantToString lib v)

/-- `Command`, the two that change a list property. -/
inductive ListCommand (ω : Type) where
  | propInsert (name : String) (value : Variant ω)
  | propRemove (name : String) (value : Variant ω)

/-- What follows the local change: the handler, and the round trip to the NCP. -/
def pushToNcp (ncp : UInt32 → List UInt8 → Except DaemonError SpinelFrame) (commandId : UInt32)
    (name done : String) (value : Variant ω) : Except DaemonError String :=
  match lookup name with
  | none => .error (.ncp ("unknown property: " ++ name))
  | some h => (ncp commandId (h.payload (listWireBytes lib value))).map fun _ => done ++ name

/-- `handle_command` on a list command; `ncp` is the outcome of `send_command`. -/
def handleCommand (ncp : UInt32 → List UInt8 → Except DaemonError SpinelFrame)
    (s : NcpInstance t) : ListCommand ω → Except DaemonError String × NcpInstance t
  | .propInsert name value =>
    (pushToNcp lib ncp cmdPropValueInsert name "Inserted into " value, addressPropInsert lib s name value)
  | .propRemove name value =>
    (pushToNcp lib ncp cmdPropValueRemove name "Removed from " value, addressPropRemove lib s name value)

end Commands

/-! ## 3. The two lists of the manager -/

/-- The list properties that the manager keeps. -/
inductive MeshList where
  | onMeshPrefixes
  | offMeshRoutes
  deriving DecidableEq, Repr

def MeshList.key : MeshList → String
  | .onMeshPrefixes => "Thread:OnMeshPrefixes"
  | .offMeshRoutes => "Thread:OffMeshRoutes"

theorem lookup_key (list : MeshList) : lookup list.key = none := by
  cases list <;> decide

/-- What `insert` would change: the entry is missing or has another flag or metric. -/
def MeshList.InsertChanges (m : AddressManager) (net : Ipv6Net) : MeshList → Prop
  | .onMeshPrefixes => m.onMeshChanges net true
  | .offMeshRoutes => m.offMeshChanges net 256

/-- What `remove` would change: the entry is there. -/
def MeshList.RemoveChanges (m : AddressManager) (net : Ipv6Net) : MeshList → Prop
  | .onMeshPrefixes => net ∈ m.onMesh
  | .offMeshRoutes => net ∈ m.offMesh

section Changes

variable (m : AddressManager) (net : Ipv6Net)

/-- Both insertions, as one call. -/
def MeshList.insert : MeshList → AddressManager × List TunOp
  | .onMeshPrefixes => (m.insertOnMesh net true).2
  | .offMeshRoutes => (m.insertOffMesh net 256).2

/-- Both removals, as one call. -/
def MeshList.remove : MeshList → AddressManager × List TunOp
  | .onMeshPrefixes => (m.removeOnMesh net).2
  | .offMeshRoutes => (m.removeOffMesh net).2

theorem insert_of_not_changes {list : MeshList} (h : ¬ list.InsertChanges m net) :
    list.insert m net = (m, []) := by
  cases list with
  | onMeshPrefixes => exact if_neg h
  | offMeshRoutes => exact if_neg h

theorem not_changes_insert (list : MeshList) : ¬ list.InsertChanges (list.insert m net).1 net := by
  by_cases h : list.InsertChanges m net
  · cases list with
    | onMeshPrefixes =>
      have e : (m.putOnMesh .user (net, true)).1.onMesh = m.onMesh.insert net ⟨.user, true⟩ :=
        (onMeshTable.put_new .user m (net, true) (of_decide_eq_true h)).1
      simp [MeshList.InsertChanges, MeshList.insert, insertOnMesh, onMeshChanges, e]
    | offMeshRoutes =>
      have e : (m.putOffMesh .user (net, 256)).1.offMesh = m.offMesh.insert net ⟨.user, 256⟩ :=
        (offMeshTable.put_new .user m (net, 256) (of_decide_eq_true h)).1
      simp [MeshList.InsertChanges, MeshList.insert, insertOffMesh, offMeshChanges, e]
  · rw [insert_of_not_changes m net h]
    exact h

theorem remove_of_not_changes {list : MeshList} (h : ¬ list.RemoveChanges m net) :
    list.remove m net = (m, []) := by
  cases list with
  | onMeshPrefixes =>
    have e : m.onMesh.lookup net = none := AList.lookup_eq_none.mpr h
    simp [MeshList.remove, removeOnMesh, e]
  | offMeshRoutes =>
    have e : m.offMesh.lookup net = none := AList.lookup_eq_none.mpr h
    simp [MeshList.remove, removeOffMesh, e]

theorem not_changes_remove (list : MeshList) : ¬ list.RemoveChanges (list.remove m net).1 net := by
  by_cases h : list.RemoveChanges m net
  · cases list with
    | onMeshPrefixes =>
      obtain ⟨entry, e⟩ := Option.isSome_iff_exists.mp (AList.lookup_isSome.mpr h)
      have hdrop : (m.dropOnMesh net).1.onMesh = _ := (onMeshTable.drop_spec m net).1
      simp [MeshList.RemoveChanges, MeshList.remove, removeOnMesh, e, hdrop]
    | offMeshRoutes =>
      obtain ⟨entry, e⟩ := Option.isSome_iff_exists.mp (AList.lookup_isSome.mpr h)
      have hdrop : (m.dropOffMesh net).1.offMesh = _ := (offMeshTable.drop_spec m net).1
      simp [MeshList.RemoveChanges, MeshList.remove, removeOffMesh, e, hdrop]
  · rw [remove_of_not_changes m net h]
    exact h

end Changes

/-! ## 4. What an error leaves behind -/

section Errors

variable {ω : Type} (lib : Externals ω) {t : NetTexts} (s : NcpInstance t)

/-- A call keeps the instance exactly if it keeps the manager; `Changes` tells whether it has
    something to change. -/
theorem update_eq_iff (Changes : AddressManager → Prop) {call : AddressManager × List TunOp}
    (hkeep : ¬ Changes s.addressManager → call = (s.addressManager, []))
    (hdone : ¬ Changes call.1) : s.update call = s ↔ ¬ Changes s.addressManager := by
  constructor
  · intro e
    have hm : call.1 = s.addressManager := congrArg NcpInstance.addressManager e
    rw [← hm]
    exact hdone
  · intro h
    rw [hkeep h, NcpInstance.update_self]

theorem addressPropInsert_eq (list : MeshList) (value : Variant ω) :
    addressPropInsert lib s list.key value =
      match t.parse (variantToString lib value) with
      | some net => s.update (list.insert s.addressManager net)
      | none => s := by
  cases list <;> rfl

theorem addressPropRemove_eq (list : MeshList) (value : Variant ω) :
    addressPropRemove lib s list.key value =
      match t.parse (variantToString lib value) with
      | some net => s.update (list.remove s.addressManager net)
      | none => s := by
  cases list <;> rfl

end Errors

/-- The commands on a list of the manager. -/
inductive MeshCommand where
  | insert
  | remove
  deriving DecidableEq, Repr

def MeshCommand.on {ω : Type} (list : MeshList) (value : Variant ω) : MeshCommand → ListCommand ω
  | .insert => .propInsert list.key value
  | .remove => .propRemove list.key value

/-- The command has something to change. -/
def MeshCommand.Changes (m : AddressManager) (list : MeshList) (net : Ipv6Net) :
    MeshCommand → Prop
  | .insert => list.InsertChanges m net
  | .remove => list.RemoveChanges m net

/-- **A list command returns an error, and everything is as before exactly if the value is no prefix or there
    was nothing to change.** -/
theorem error_keeps_state_iff {ω : Type} (lib : Externals ω) {t : NetTexts}
    (ncp : UInt32 → List UInt8 → Except DaemonError SpinelFrame) (s : NcpInstance t)
    (cmd : MeshCommand) (list : MeshList) (value : Variant ω) :
    ((∃ e, (handleCommand lib ncp s (cmd.on list value)).1 = .error e) →
        (handleCommand lib ncp s (cmd.on list value)).2 = s) ↔
      ∀ net, t.parse (variantToString lib value) = some net → ¬ cmd.Changes s.addressManager list net := by
  have herr : (handleCommand lib ncp s (cmd.on list value)).1 =
      .error (.ncp ("unknown property: " ++ list.key)) := by
    cases cmd <;> simp only [MeshCommand.on, handleCommand, pushToNcp, lookup_key]
  rw [herr, imp_iff_right ⟨_, rfl⟩]
  cases cmd with
  | insert =>
    simp only [MeshCommand.on, handleCommand, addressPropInsert_eq, MeshCommand.Changes]
    cases t.parse (variantToString lib value) with
    | none => simp
    | some net =>
      rw [update_eq_iff s (list.InsertChanges · net) (insert_of_not_changes s.addressManager net)
        (not_changes_insert s.addressManager net list)]
      simp
  | remove =>
    simp only [MeshCommand.on, handleCommand, addressPropRemove_eq, MeshCommand.Changes]
    cases t.parse (variantToString lib value) with
    | none => simp
    | some net =>
      rw [update_eq_iff s (list.RemoveChanges · net) (remove_of_not_changes s.addressManager net)
        (not_changes_remove s.addressManager net list)]
      simp

def meshNetTexts : NetTexts where
  ofAddr _ := "::"
  ofNet _ := "2020:abcd::/64"
  parse s := if s = "2020:abcd::/64" then some meshNet else none

/-- A failed insertion leaves the prefix, its route on the TUN and both views behind. -/
theorem failed_insert_leaves_prefix :
    let s := NcpInstance.new meshNetTexts true
    let r := handleCommand noExternals (fun _ _ => .ok ⟨0x81, cmdPropValueIs, [0, 0]⟩) s
      (.propInsert "Thread:OnMeshPrefixes" (.str "2020:abcd::/64"))
    r.1 = .error (.ncp "unknown property: Thread:OnMeshPrefixes") ∧
      s.addressManager.onMesh.lookup meshNet = none ∧
      r.2.addressManager.onMesh.lookup meshNet = some ⟨.user, true⟩ ∧
      s.tunOps = [] ∧ r.2.tunOps = [.addRoute meshNet 256] ∧
      s.sharedState.onMeshPrefixes = [] ∧
      r.2.sharedState.onMeshPrefixes = ["2020:abcd::/64 stable:true/USER"] ∧
      s.sharedState.ipv6Routes = [] ∧
      r.2.sharedState.ipv6Routes = ["2020:abcd::/64 metric:256"] := by
  refine ⟨by decide, by decide, by decide, rfl, by decide, rfl, ?_, rfl, ?_⟩
  · exact List.mergeSort_singleton _
  · exact List.mergeSort_singleton _

end DcuDaemon.Instance
