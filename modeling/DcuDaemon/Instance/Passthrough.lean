/-
  The commands whose parameters go to the NCP as they are
  (`crates/dcu-tunnel-daemon/src/instance/base.rs`: `serialize_params` and the arms of `handle_command`
  that use it).

  The parameters are a hash map. Its entries are written one behind the other in the order in which the
  map is iterated over: the key, a NUL, the value. Nothing says how many there are, and nothing sorts
  them.

  Main result: `passthrough_order_iff`.
-/
import DcuDaemon.Dbus.Properties
import DcuDaemon.Lib.Words
import DcuDaemon.Spinel.Fields
import DcuDaemon.Spinel.Frame

namespace DcuDaemon.Instance

open Dbus Lib Spinel List

/-! ## 1. The commands -/

/-- `Command`, the members that pass their parameters on. -/
inductive Passthrough where
  | mlrRequest
  | backboneRouterConfig
  | announceBegin
  | panIdQuery
  | generatePskc
  | routeAdd
  | routeRemove
  | serviceAdd
  | serviceRemove
  deriving DecidableEq, Repr

/-- The command to the NCP and the property of an arm: `send_prop_set`, `send_prop_insert` or
    `send_prop_remove`. -/
def Passthrough.target : Passthrough → UInt32 × UInt32
  | .mlrRequest => (cmdPropValueSet, 0x1534)
  | .backboneRouterConfig => (cmdPropValueSet, 0x1538)
  | .announceBegin => (cmdPropValueSet, 0x1800)
  | .panIdQuery => (cmdPropValueSet, 0x1803)
  | .generatePskc => (cmdPropValueSet, 0x1807)
  | .routeAdd => (cmdPropValueInsert, propThreadOffMeshRoutes)
  | .routeRemove => (cmdPropValueRemove, propThreadOffMeshRoutes)
  | .serviceAdd => (cmdPropValueInsert, 0x1513)
  | .serviceRemove => (cmdPropValueRemove, 0x1513)

/-- `prop_value_set(prop, payload).payload`; `none` is the failed `assert!` of `write_uint_packed`. -/
def propValueSet (prop : UInt32) (payload : List UInt8) : Option (List UInt8) :=
  (PackWriter.new.writeUintPacked prop).map fun w => (w.writeBytes payload).intoBytes

theorem propValueSet_eq {prop : UInt32} (h : prop ≤ spinelMaxUintPacked) (payload : List UInt8) :
    propValueSet prop payload = some (PackWriter.uintPackedBytes prop ++ payload) := by
  rw [propValueSet, PackWriter.writeUintPacked, if_pos h]
  rfl

/-! ## 2. The parameters on the wire -/

section Serialize

variable {ω : Type} (lib : Externals ω)

/-- One round of the loop of `serialize_params`. -/
def writeParam (w : PackWriter) (x : Sigma fun _ : String => Variant ω) : PackWriter :=
  let w := w.writeUtf8 x.1
  match x.2 with
  | .str s => w.writeUtf8 s
  | .u8 n => w.writeUint8 n
  | .u16 n => w.writeUint16 n
  | .u32 n => w.writeUint32 n
  | .bool b => w.writeBool b
  | value => w.writeUtf8 (variantToString lib value)

/-- `serialize_params`, with the order in which the map is iterated over. -/
def serializeParams (iter : Iteration String (Variant ω)) (params : HashTable String (Variant ω)) :
    List UInt8 :=
  ((iter.order params).foldl (writeParam lib) PackWriter.new).intoBytes

/-- What an arm sends: the command to the NCP with its payload. -/
def Passthrough.sends (cmd : Passthrough) (iter : Iteration String (Variant ω))
    (params : HashTable String (Variant ω)) : UInt32 × Option (List UInt8) :=
  (cmd.target.1, propValueSet cmd.target.2 (serializeParams lib iter params))

def paramValueBytes : Variant ω → List UInt8
  | .str s => asBytes s ++ [0]
  | .u8 n => [n]
  | .u16 n => leBytes 2 n.toNat
  | .u32 n => leBytes 4 n.toNat
  | .bool b => [if b then 1 else 0]
  | value => asBytes (variantToString lib value) ++ [0]

def paramBytes (x : Sigma fun _ : String => Variant ω) : List UInt8 :=
  asBytes x.1 ++ 0 :: paramValueBytes lib x.2

theorem writeParam_eq (w : PackWriter) (x : Sigma fun _ : String => Variant ω) :
    writeParam lib w x = ⟨w.buf ++ paramBytes lib x⟩ := by
  obtain ⟨key, value⟩ := x
  cases value <;>
    simp [writeParam, paramBytes, paramValueBytes, PackWriter.writeUtf8, PackWriter.writeUint8,
      PackWriter.writeUint16, PackWriter.writeUint32, PackWriter.writeBool]

/-- **The blocks of the entries**, in the order in which the map is iterated over. -/
theorem serializeParams_eq (iter : Iteration String (Variant ω))
    (params : HashTable String (Variant ω)) :
    serializeParams lib iter params = (iter.order params).flatMap (paramBytes lib) := by
  have hfold (xs : List (Sigma fun _ : String => Variant ω)) (w : PackWriter) :
      (xs.foldl (writeParam lib) w).buf = w.buf ++ xs.flatMap (paramBytes lib) := by
    induction xs generalizing w with
    | nil => simp
    | cons x xs ih => rw [foldl_cons, ih, writeParam_eq, flatMap_cons, append_assoc]
  exact hfold _ _

/-! ## 3. The order of the entries -/

theorem exists_iteration {K V : Type} (t : HashTable K V) {xs : List (Sigma fun _ : K => V)}
    (h : xs.Perm t.entries) : ∃ iter : Iteration K V, iter.order t = xs := by
  classical
  refine ⟨⟨fun t' => if t' = t then xs else t'.entries, fun t' => ?_⟩, if_pos rfl⟩
  split
  · rename_i e
    rwa [e]
  · exact List.Perm.refl _

theorem sends_order_iff (cmd : Passthrough) (params : HashTable String (Variant ω)) :
    (∀ iter iter', cmd.sends lib iter params = cmd.sends lib iter' params) ↔
      ∀ x ∈ params.entries, ∀ y ∈ params.entries, WordsCommute (paramBytes lib x) (paramBytes lib y) := by
  have hprop : cmd.target.2 ≤ spinelMaxUintPacked := by
    cases cmd <;> decide
  have hsends (iter iter' : Iteration String (Variant ω)) :
      cmd.sends lib iter params = cmd.sends lib iter' params ↔
        (iter.order params).flatMap (paramBytes lib) = (iter'.order params).flatMap (paramBytes lib) := by
    simp only [Passthrough.sends, propValueSet_eq hprop, serializeParams_eq, Prod.mk.injEq,
      Option.some.injEq, append_cancel_left_eq, true_and]
  simp only [hsends]
  rw [← flatMap_perm_iff]
  constructor
  · intro h ys zs hys hzs
    obtain ⟨iter, hiter⟩ := exists_iteration params hys
    obtain ⟨iter', hiter'⟩ := exists_iteration params hzs
    rw [← hiter, ← hiter']
    exact h iter iter'
  · intro h iter iter'
    exact h _ _ (iter.perm params) (iter'.perm params)

theorem commute_iff_length_le_one (params : HashTable String (Variant ω))
    (hkeys : ∀ x ∈ params.entries, '\x00' ∉ x.1.toList) : (∀ x ∈ params.entries, ∀ y ∈ params.entries,
        WordsCommute (paramBytes lib x) (paramBytes lib y)) ↔ params.entries.length ≤ 1 := by
  have hnodup : params.entries.Pairwise fun x y => x.1 ≠ y.1 := nodupKeys_iff_pairwise.mp params.nodupKeys
  constructor
  · intro h
    match hentries : params.entries, hnodup with
    | [], _ => exact Nat.zero_le _
    | [_], _ => exact Nat.le_refl _
    | x :: y :: rest, hpair =>
      -- the blocks commute, so the two keys have the same bytes
      have hx : x ∈ params.entries := by simp [hentries]
      have hy : y ∈ params.entries := by simp [hentries]
      have hbytes : asBytes x.1 = asBytes y.1 :=
        eq_of_append_comm (zero_not_mem_asBytes (hkeys x hx)) (zero_not_mem_asBytes (hkeys y hy))
          (h x hx y hy)
      have hkey : x.1 = y.1 := asBytes_injective hbytes
      exact absurd hkey ((pairwise_cons.mp hpair).1 y mem_cons_self)
  · intro hlen x hx y hy
    match hentries : params.entries, hlen with
    | [], _ => rw [hentries] at hx; cases hx
    | [z], _ =>
      rw [hentries, mem_singleton] at hx hy
      rw [hx, hy]
      exact rfl

/-- **A command sends the same bytes for every order of the map exactly if the blocks of any two entries
    commute**: for keys without a NUL, exactly if there is at most one entry. -/
theorem passthrough_order_iff (cmd : Passthrough) (params : HashTable String (Variant ω)) :
    ((∀ iter iter', cmd.sends lib iter params = cmd.sends lib iter' params) ↔
      ∀ x ∈ params.entries, ∀ y ∈ params.entries, WordsCommute (paramBytes lib x) (paramBytes lib y)) ∧
    ((∀ x ∈ params.entries, '\x00' ∉ x.1.toList) →
      ((∀ iter iter', cmd.sends lib iter params = cmd.sends lib iter' params) ↔
        params.entries.length ≤ 1)) := by
  refine ⟨sends_order_iff lib cmd params, fun hkeys => ?_⟩
  rw [sends_order_iff, commute_iff_length_le_one lib params hkeys]

end Serialize

section Example

def reversedIteration (K V : Type) : Iteration K V :=
  ⟨fun t => t.entries.reverse, fun t => List.reverse_perm t.entries⟩

def routeParams : HashTable String (Variant Empty) :=
  ((∅ : HashTable String (Variant Empty)).insert "Route" (.str "fd00::/64")).insert "Preference" (.u8 1)

/-- The same route is sent as other bytes. -/
theorem routeAdd_depends_on_order :
    Passthrough.routeAdd.sends noExternals (Iteration.stored _ _) routeParams ≠
      Passthrough.routeAdd.sends noExternals (reversedIteration _ _) routeParams := by
  decide

end Example

end DcuDaemon.Instance
