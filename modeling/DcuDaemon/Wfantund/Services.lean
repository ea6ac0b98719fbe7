/-
  The services of the NCP's network data (`src/ncp-spinel/SpinelNCPInstance.cpp`,
  `handle_ncp_spinel_value_is_SERVICES`; `src/wfantund/NCPInstanceBase-Addresses.cpp`,
  `service_was_added`, `service_was_removed`).

  Services are compared by their enterprise number and their service data. A service that is in the
  table is not added again, so that it keeps the stable flag and the server data with which it was
  added.

  Main result: `services_current_iff`.
-/
import DcuDaemon.Instance.Addresses
import DcuDaemon.Lib.KeyedList
import DcuDaemon.Wfantund.Structs

namespace DcuDaemon.Wfantund

open Addresses (Origin)
open Lib List Option
open Spinel Spinel.Datatype

/-! ## 1. The handler -/

structure ServiceEntry where
  origin : Origin
  enterpriseNumber : UInt32
  serviceData : List UInt8
  stable : Bool
  serverData : List UInt8
  deriving DecidableEq

/-- What `operator==` compares. -/
def ServiceEntry.key (e : ServiceEntry) : UInt32 × List UInt8 := (e.enterpriseNumber, e.serviceData)

/-- `service_was_added`, at the table. -/
def serviceWasAdded (m : List ServiceEntry) (e : ServiceEntry) : List ServiceEntry :=
  KeyedList.insertNew ServiceEntry.key m e

/-- `service_was_removed`, at the table. -/
def serviceWasRemoved (m : List ServiceEntry) (key : UInt32 × List UInt8) : List ServiceEntry :=
  KeyedList.eraseKey ServiceEntry.key m key

/-- What reading a field of "d" inside a struct comes to. -/
inductive FieldRead where
  /-- The struct is not unpacked. -/
  | failed
  /-- The struct is left here, as if it was unpacked. -/
  | stopped
  | read (block post : List UInt8)

/-- "d" inside a struct. -/
def readField (data : List UInt8) : FieldRead :=
  match unpackUint16 data with
  | none => .stopped
  | some (n, post) =>
    if spinelFrameMaxSize ≤ n.toNat then .stopped
    else if post.length < n.toNat then .failed
    else .read (post.take n.toNat) (post.drop n.toNat)

/-- The variables that the struct is unpacked into; they are declared before the loop. -/
structure ServiceVars where
  enterpriseNumber : UInt32
  serviceData : List UInt8
  stable : Bool
  serverData : List UInt8

/-- The variables before the loop; the number is not set, and is not read either. -/
def ServiceVars.init : ServiceVars := ⟨0, [], false, []⟩

def ServiceVars.entry (vars : ServiceVars) : ServiceEntry :=
  ⟨.ncp, vars.enterpriseNumber, vars.serviceData, vars.stable, vars.serverData⟩

/-- The fields of a struct: "LdbdS". -/
def unpackService (vars : ServiceVars) (block : List UInt8) : Option ServiceVars := do
  let (enterpriseNumber, block) ← unpackUint32 block
  match readField block with
  | .failed => none
  | .stopped => some { vars with enterpriseNumber }
  | .read serviceData block =>
    let (stable, block) ← unpackBool block
    match readField block with
    | .failed => none
    | .stopped => some { vars with enterpriseNumber, serviceData, stable }
    | .read serverData block =>
      let _ ← unpackUint16 block
      some ⟨enterpriseNumber, serviceData, stable, serverData⟩

/-- The loop: its variables, the copy of the table, and the table. -/
structure ServiceLoop where
  vars : ServiceVars
  copy : List ServiceEntry
  table : List ServiceEntry

/-- One turn: the service is erased from the copy and added to the table. -/
def serviceTurn (l : ServiceLoop) (block : List UInt8) : Option ServiceLoop :=
  (unpackService l.vars block).map fun vars =>
    ⟨vars, serviceWasRemoved l.copy vars.entry.key, serviceWasAdded l.table vars.entry⟩

/-- `handle_ncp_spinel_value_is_SERVICES`. -/
def handleServices (m : List ServiceEntry) (data : List UInt8) : List ServiceEntry :=
  let l := (structLoop serviceTurn (data.length + 1) data ⟨.init, m, m⟩).1
  (l.copy.filter fun e => e.origin = .ncp).foldl (fun m e => serviceWasRemoved m e.key) l.table

/-! ## 2. Well-formed values -/

/-- The service of a block that is there with all its fields. -/
def ServiceEntry.unpack (block : List UInt8) : Option ServiceEntry := do
  let (enterpriseNumber, block) ← unpackUint32 block
  let (serviceData, block) ← unpackBlock block
  let (stable, block) ← unpackBool block
  let (serverData, block) ← unpackBlock block
  let _ ← unpackUint16 block
  return ⟨.ncp, enterpriseNumber, serviceData, stable, serverData⟩

def servicesOf (data : List UInt8) : List ServiceEntry := (unpackStructs ServiceEntry.unpack data).1

/-- A value that is read to its end, with no service twice. -/
structure WellFormedServices (data : List UInt8) : Prop where
  complete : (unpackStructs ServiceEntry.unpack data).2 = true
  distinct : KeyedList.Distinct ServiceEntry.key (servicesOf data)

variable {data block : List UInt8} {e : ServiceEntry}

theorem readField_of_unpackBlock {post : List UInt8}
    (h : unpackBlock data = some (block, post)) : readField data = .read block post := by
  obtain ⟨-, hsize, rfl⟩ := unpackBlock_eq_some.mp h
  have hlt : block.length < 65536 := lt_of_lt_of_le hsize (by decide)
  have hn : (UInt16.ofNat block.length).toNat = block.length := UInt16.toNat_ofNat_of_lt' hlt
  have hsize16 : unpackUint16 (structEntry block ++ post) =
      some (UInt16.ofNat block.length, block ++ post) := by
    have h16 := unpackUint16_leBytes (UInt16.ofNat block.length) (block ++ post)
    rw [hn] at h16
    exact h16
  unfold readField
  rw [hsize16]
  dsimp only
  rw [hn, if_neg (not_le.mpr hsize), if_neg (by rw [length_append]; omega), take_left, drop_left]

theorem unpackService_of_unpack (h : ServiceEntry.unpack block = some e) (vars : ServiceVars) :
    ∃ vars', unpackService vars block = some vars' ∧ vars'.entry = e := by
  simp only [ServiceEntry.unpack, bind_eq_bind, bind_eq_some_iff, Prod.exists,
    Option.pure_def, some.injEq] at h
  obtain ⟨number, b₁, h₁, serviceData, b₂, h₂, stable, b₃, h₃, serverData, b₄, h₄, rloc, b₅, h₅, rfl⟩ := h
  refine ⟨⟨number, serviceData, stable, serverData⟩, ?_, rfl⟩
  simp only [unpackService, bind_eq_bind, h₁, bind_some, readField_of_unpackBlock h₂, h₃,
    readField_of_unpackBlock h₄, h₅]

theorem foldlM_serviceTurn {blocks : List (List UInt8)} {es : List ServiceEntry}
    (h : blocks.map ServiceEntry.unpack = es.map some) (l : ServiceLoop) :
    ∃ vars, blocks.foldlM serviceTurn l =
      some ⟨vars, (KeyedList.mergeLoop ServiceEntry.key l.copy l.table es).1,
        (KeyedList.mergeLoop ServiceEntry.key l.copy l.table es).2⟩ := by
  induction blocks generalizing es l with
  | nil =>
    obtain rfl := map_eq_nil_iff.mp h.symm
    exact ⟨l.vars, rfl⟩
  | cons block blocks ih =>
    cases es with
    | nil => cases h
    | cons e es =>
      obtain ⟨hblock, hrest⟩ := cons.inj h
      obtain ⟨vars, hvars, rfl⟩ := unpackService_of_unpack hblock l.vars
      obtain ⟨last, hlast⟩ := ih hrest
        ⟨vars, serviceWasRemoved l.copy vars.entry.key, serviceWasAdded l.table vars.entry⟩
      refine ⟨last, ?_⟩
      rw [foldlM_cons, serviceTurn, hvars]
      exact hlast

theorem WellFormedServices.blocks (h : WellFormedServices data) :
    ∃ blocks, data = structEntries blocks ∧ HasRoom blocks ∧
      blocks.map ServiceEntry.unpack = (servicesOf data).map some :=
  unpackStructs_eq_true_iff.mp (Prod.ext rfl h.complete)

/-- **A well-formed value is merged by the key of the services.** -/
theorem handleServices_eq (h : WellFormedServices data) (m : List ServiceEntry) :
    handleServices m data =
      KeyedList.merge ServiceEntry.key (fun e => decide (e.origin = .ncp)) m (servicesOf data) := by
  obtain ⟨blocks, hdata, hroom, hblocks⟩ := h.blocks
  obtain ⟨vars, hfold⟩ := foldlM_serviceTurn hblocks ⟨.init, m, m⟩
  have hloop := (structLoop_eq_true_iff (Nat.lt_succ_self data.length)).mpr ⟨blocks, hdata, hroom, hfold⟩
  unfold handleServices
  rw [hloop]
  rfl

theorem origin_of_mem_servicesOf (h : WellFormedServices data)
    (he : e ∈ servicesOf data) : e.origin = .ncp := by
  obtain ⟨blocks, -, -, hblocks⟩ := h.blocks
  obtain ⟨block, -, hblock⟩ := mem_map.mp (hblocks ▸ mem_map_of_mem (f := some) he)
  obtain ⟨vars, -, rfl⟩ := unpackService_of_unpack hblock .init
  rfl

/-! ## 3. Sequences of values -/

/-- A table without services of the user, and with no service twice. -/
structure FromNcp (m : List ServiceEntry) : Prop where
  distinct : KeyedList.Distinct ServiceEntry.key m
  origin : ∀ e ∈ m, e.origin = .ncp

/-- A service that is reported and is in the table has the same contents there. -/
def SameContents (m : List ServiceEntry) (data : List UInt8) : Prop :=
  ∀ x ∈ servicesOf data, ∀ y ∈ m, y.key = x.key → y.stable = x.stable ∧ y.serverData = x.serverData

section Values

variable {m : List ServiceEntry} {data : List UInt8}

theorem ServiceEntry.eq_iff_of_key {x y : ServiceEntry} (hx : x.origin = .ncp) (hy : y.origin = .ncp)
    (hk : y.key = x.key) : y = x ↔ y.stable = x.stable ∧ y.serverData = x.serverData := by
  obtain ⟨origin, number, serviceData, stable, serverData⟩ := x
  obtain ⟨origin', number', serviceData', stable', serverData'⟩ := y
  obtain rfl : origin = .ncp := hx
  obtain rfl : origin' = .ncp := hy
  obtain ⟨rfl, rfl⟩ := Prod.mk.inj hk
  simp

variable (hm : FromNcp m) (h : WellFormedServices data)

include hm h

theorem separated_iff : KeyedList.Separated ServiceEntry.key m (servicesOf data) ↔ SameContents m data := by
  constructor
  · intro hsep x hx y hy hk
    have heq := hsep x hx y (.inl hy) hk
    rw [heq]
    exact ⟨rfl, rfl⟩
  · intro hsame x hx y hy hk
    rcases hy with hy | hy
    · exact (ServiceEntry.eq_iff_of_key (origin_of_mem_servicesOf h hx) (hm.origin y hy) hk).mpr
        (hsame x hx y hy hk)
    · exact h.distinct.eq_of_key hy hx hk

theorem fromNcp_handleServices : FromNcp (handleServices m data) := by
  rw [handleServices_eq h]
  refine ⟨KeyedList.distinct_merge hm.distinct _ _, fun e he => ?_⟩
  have hncp : ∀ x ∈ servicesOf data, decide (x.origin = .ncp) :=
    fun x hx => decide_eq_true (origin_of_mem_servicesOf h hx)
  have hnone : (m.filter fun x => !decide (x.origin = .ncp)) = [] :=
    filter_eq_nil_iff.mpr fun x hx => by simp [hm.origin x hx]
  have hothers := (KeyedList.filter_merge hm.distinct hncp).trans hnone
  have hmine := filter_eq_nil_iff.mp hothers e he
  simpa using hmine

/-- **One value** leaves the services that it reports exactly if it changes the contents of none. -/
theorem services_value_iff : (handleServices m data).Perm (servicesOf data) ↔ SameContents m data := by
  have hncp : ∀ x ∈ servicesOf data, decide (x.origin = .ncp) :=
    fun x hx => decide_eq_true (origin_of_mem_servicesOf h hx)
  have hafter := fromNcp_handleServices hm h
  rw [perm_ext_iff_of_nodup hafter.distinct.nodup h.distinct.nodup, ← separated_iff hm h,
    ← KeyedList.merge_owned_iff hm.distinct hncp, ← handleServices_eq h]
  refine forall_congr' fun e => iff_congr ?_ Iff.rfl
  exact (and_iff_left_of_imp fun he => decide_eq_true (hafter.origin e he)).symm

end Values

/-- **After each SERVICES value the table has its services**, if and only if none reports another stable flag
    or other server data for a service in the table. -/
theorem services_current_iff {m : List ServiceEntry} (hm : FromNcp m) {values : List (List UInt8)}
    (hvalues : ∀ data ∈ values, WellFormedServices data) :
    Along handleServices (fun m data => (handleServices m data).Perm (servicesOf data)) m values ↔
      Along handleServices SameContents m values := by
  have hstep : ∀ (m : List ServiceEntry) (data : List UInt8), FromNcp m → WellFormedServices data →
      SameContents m data → FromNcp (handleServices m data) :=
    fun m data hm h _ => fromNcp_handleServices hm h
  exact along_iff hstep (fun m data hm h => services_value_iff hm h) hm
    (along_of_forall (fun data hdata _ => hvalues data hdata) m)

def oneService (stable : UInt8) (serverData : List UInt8) : List UInt8 :=
  structEntries [leBytes 4 44970 ++ structEntry [0x5C] ++ [stable] ++ structEntry serverData ++ [0, 0x54]]

/-- The same service twice. -/
theorem services_current_alike :
    Along handleServices (fun m data => (handleServices m data).Perm (servicesOf data)) []
      [oneService 1 [1, 2], oneService 1 [1, 2]] := by
  have hwell : WellFormedServices (oneService 1 [1, 2]) := ⟨by decide +kernel, by decide +kernel⟩
  have hempty : FromNcp [] := ⟨nodup_nil, fun e he => absurd he not_mem_nil⟩
  refine (services_current_iff hempty ?_).mpr ⟨?_, ?_, trivial⟩
  · intro data hdata
    rcases mem_pair.mp hdata with rfl | rfl
    · exact hwell
    · exact hwell
  · unfold SameContents
    decide +kernel
  · unfold SameContents
    decide +kernel

/-- Other server data is reported for a service: the table keeps the old one. -/
theorem server_data_stays :
    WellFormedServices (oneService 1 [1, 2]) ∧ WellFormedServices (oneService 1 [3]) ∧
      servicesOf (oneService 1 [3]) = [⟨.ncp, 44970, [0x5C], true, [3]⟩] ∧
      run handleServices [] [oneService 1 [1, 2], oneService 1 [3]] =
        [⟨.ncp, 44970, [0x5C], true, [1, 2]⟩] ∧
      ¬ Along handleServices (fun m data => (handleServices m data).Perm (servicesOf data)) []
        [oneService 1 [1, 2], oneService 1 [3]] := by
  refine ⟨⟨by decide +kernel, by decide +kernel⟩, ⟨by decide +kernel, by decide +kernel⟩,
    by decide +kernel, by decide +kernel, ?_⟩
  intro h
  have hlast := h.2.1
  revert hlast
  decide +kernel

end DcuDaemon.Wfantund
