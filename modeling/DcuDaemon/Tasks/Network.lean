/-
  The tasks that bring the network up and down (`crates/dcu-tunnel-daemon/src/tasks/form.rs`, `join.rs`,
  `leave.rs`, and `configure_network` of `payload.rs`).

  `form` and `join` set the state ASSOCIATING before their exchanges with the NCP and ASSOCIATED behind
  them. Each exchange is an `.await?`: the first one that fails ends the task, and the state is then
  still ASSOCIATING. (The C++ task goes back to the state before: `finish` of `SpinelNCPTaskForm.cpp`.)

  Main result: `bringUp_restores_iff`.
-/
import DcuDaemon.Tasks.Exchange
import DcuDaemon.Tasks.Params

namespace DcuDaemon.Tasks

open Dbus Instance Lib Spinel Routine.Sat Routine Routine.Returns

/-! ## 1. The tasks -/

def propPhyChan : UInt32 := 0x21
def propMac154Panid : UInt32 := 0x36
def propMacPromiscuousMode : UInt32 := 0x38
def propNetIfUp : UInt32 := 0x41
def propNetNetworkName : UInt32 := 0x44
def propNetXpanid : UInt32 := 0x45
def propNetMasterKey : UInt32 := 0x46
def propNetKeySequenceCounter : UInt32 := 0x47
def propNetRequireJoinExisting : UInt32 := 0x49
def propIpv6MlPrefix : UInt32 := 0x62
def capRoleRouter : UInt32 := 48

section Tasks

variable {δ μ ω : Type} (ops : DatasetOps δ μ) (link : NcpLink) (display : Variant ω → String)
  (params : HashTable String (Variant ω))

/-- `ncp.send_prop_set(..).await?`. -/
def setProp (prop : UInt32) (payload : List UInt8) : NcpTask δ μ Unit :=
  Routine.void (sendPropSet ops link prop payload)

def configureNetwork : NcpTask δ μ Unit := do
  Routine.void (sendCommand ops link cmdNetClear [])
  Routine.whenSome (getU8 params "NCP:Channel") fun ch => setProp ops link propPhyChan (u8Payload ch)
  setProp ops link propMacPromiscuousMode (u8Payload 0)
  Routine.whenSome (getU16 params "Network:PANID") fun panid =>
    setProp ops link propMac154Panid (u16Payload panid)
  let xpanid ← Routine.orAbort (getBytes params "Network:XPANID")
  Routine.whenSome xpanid fun xpanid => setProp ops link propNetXpanid (bytesPayload xpanid)
  Routine.whenSome (getStr params "Network:Name" display) fun name =>
    setProp ops link propNetNetworkName (utf8Payload name)
  let key ← Routine.orAbort (getBytes params "Network:Key")
  Routine.whenSome key fun key => setProp ops link propNetMasterKey (bytesPayload key)
  Routine.whenSome (getU16 params "Network:KeyIndex") fun idx =>
    setProp ops link propNetKeySequenceCounter (u32Payload idx.toUInt32)
  let addr ← Routine.orAbort (getBytes params "IPv6:MeshLocalPrefix")
  Routine.whenSome addr fun addr =>
    setProp ops link propIpv6MlPrefix
      (meshLocalPrefixPayload addr ((getU8 params "IPv6:MeshLocalPrefixLen").getD 64))

def form : NcpTask δ μ Unit := do
  waitForState fun s => !s.isInitializing
  waitForState fun s => !s.isAssociated
  let s ← Routine.get
  if capRoleRouter ∉ s.capabilities then
    Routine.fail (.ncp "NCP lacks router capability; cannot form")
  setNcpState ops link .associating
  configureNetwork ops link display params
  setProp ops link propNetIfUp (boolPayload true)
  setProp ops link propNetStackUp (boolPayload true)
  setNcpState ops link .associated

def join : NcpTask δ μ Unit := do
  waitForState fun s => !s.isInitializing
  waitForState fun s => !s.isAssociated
  setNcpState ops link .associating
  configureNetwork ops link display params
  setProp ops link propNetIfUp (boolPayload true)
  setProp ops link propNetRequireJoinExisting (boolPayload true)
  setProp ops link propNetStackUp (boolPayload true)
  setNcpState ops link .associated

def leave : NcpTask δ μ Unit := do
  waitForState fun s => !s.isInitializing
  setProp ops link propNetStackUp (boolPayload false)
  setProp ops link propNetIfUp (boolPayload false)
  Routine.void (sendCommand ops link cmdNetClear [])
  Routine.void (sendCommand ops link cmdReset [])
  waitForState fun s => s.isInitializing
  waitForState fun s => !s.isInitializing
  waitForDriverReady

/-! ## 2. Exchanges that leave the stack alone -/

/-- The value that an exchange writes to NET_STACK_UP, if it does: whether it is 1. -/
def stackWrite (commandId : UInt32) (payload : List UInt8) : Option Bool :=
  if commandId = cmdPropValueSet then
    match (PackReader.new payload).readUintPacked with
    | (.ok prop, r) => if prop = propNetStackUp then some (r.rest == [1]) else none
    | (.error _, _) => none
  else none

/-- Neither a reset nor a write to NET_STACK_UP. -/
def LeavesStack (commandId : UInt32) (payload : List UInt8) : Prop :=
  commandId ≠ cmdReset ∧ stackWrite commandId payload = none

variable {prop : UInt32}

theorem stackWrite_setProp (h : prop ≤ spinelMaxUintPacked) (payload : List UInt8) :
    stackWrite cmdPropValueSet (PackWriter.uintPackedBytes prop ++ payload) =
      if prop = propNetStackUp then some (payload == [1]) else none := by
  obtain ⟨hread, hat⟩ := PackReader.readUintPacked_append h
    (PackReader.at_new (PackWriter.uintPackedBytes prop ++ payload))
  rw [stackWrite, if_pos rfl, hread]
  dsimp only
  rw [hat.2]

theorem leavesStack_setProp (h : prop ≤ spinelMaxUintPacked)
    (hne : prop ≠ propNetStackUp) (payload : List UInt8) :
    LeavesStack cmdPropValueSet (PackWriter.uintPackedBytes prop ++ payload) := by
  refine ⟨by decide, ?_⟩
  rw [stackWrite_setProp h, if_neg hne]

def stackPayload (up : Bool) : List UInt8 := PackWriter.uintPackedBytes propNetStackUp ++ boolPayload up

theorem stackWrite_stackPayload (up : Bool) : stackWrite cmdPropValueSet (stackPayload up) = some up := by
  cases up with
  | false => rfl
  | true => rfl

theorem setStack_cases (up : Bool) (s : NcpBase δ μ) :
    (acked ops link cmdPropValueSet (stackPayload up) s ∧
        setProp ops link propNetStackUp (boolPayload up) s =
          some (.ok (), exchanged ops link cmdPropValueSet (stackPayload up) s)) ∨
      ∃ e, acked ops link cmdPropValueSet (stackPayload up) s = false ∧
        setProp ops link propNetStackUp (boolPayload up) s =
          some (.error e, exchanged ops link cmdPropValueSet (stackPayload up) s) := by
  unfold setProp Routine.void
  obtain ⟨resp, hacked, hsend⟩ | ⟨e, hacked, hsend⟩ :=
    sendCommand_cases ops link cmdPropValueSet (stackPayload up) s
  · exact .inl ⟨hacked, Routine.bind_ok hsend⟩
  · exact .inr ⟨e, hacked, Routine.bind_error hsend⟩

/-- A command and its payload; `none` is a panic that comes in its place. -/
abbrev Request := Option (UInt32 × List UInt8)

def propRequest (prop : UInt32) (payload : List UInt8) : Request :=
  some (cmdPropValueSet, PackWriter.uintPackedBytes prop ++ payload)

/-- Requests in their order, up to the first one that fails. -/
def exchangeAll : List Request → NcpTask δ μ Unit
  | [] => pure ()
  | none :: _ => Routine.abort
  | some x :: requests => do
    Routine.void (sendCommand ops link x.1 x.2)
    exchangeAll requests

/-- **The NCP answers every one of the requests**, from this state on. -/
def Answered : NcpBase δ μ → List Request → Prop
  | _, [] => True
  | _, none :: _ => True
  | s, some x :: requests =>
    acked ops link x.1 x.2 s ∧ Answered (exchanged ops link x.1 x.2 s) requests

theorem exchangeAll_append (xs ys : List Request) :
    (exchangeAll ops link (xs ++ ys) : NcpTask δ μ Unit) =
      (exchangeAll ops link xs >>= fun _ => exchangeAll ops link ys) := by
  fun_induction exchangeAll ops link xs with
  | case1 => simp
  | case2 => rfl
  | case3 x xs ih => rw [List.cons_append, exchangeAll, ih, bind_assoc]

theorem setProp_eq (h : prop ≤ spinelMaxUintPacked) (payload : List UInt8) :
    (setProp ops link prop payload : NcpTask δ μ Unit) = exchangeAll ops link [propRequest prop payload] := by
  rw [setProp, sendPropSet_eq ops link h]
  simp [exchangeAll, propRequest]

/-- **Requests fail exactly if one of them is not answered.** -/
theorem exchangeAll_error_iff (s : NcpBase δ μ) (requests : List Request) :
    (∃ e s', exchangeAll ops link requests s = some (.error e, s')) ↔ ¬ Answered ops link s requests := by
  fun_induction Answered ops link s requests with
  | case1 s => simp [exchangeAll, Pure.pure]
  | case2 s => simp [exchangeAll, Routine.abort]
  | case3 s x requests ih =>
    unfold exchangeAll Routine.void
    obtain ⟨resp, hacked, hsend⟩ | ⟨e, hacked, hsend⟩ := sendCommand_cases ops link x.1 x.2 s
    · rw [bind_ok (bind_ok hsend), ih]
      simp [hacked]
    · rw [bind_error (bind_error hsend)]
      simp [hacked]

/-- Requests of one kind. -/
def Only (P : UInt32 → List UInt8 → Prop) (requests : List Request) : Prop :=
  ∀ c p, some (c, p) ∈ requests → P c p

theorem only_nil {P : UInt32 → List UInt8 → Prop} : Only P [] := nofun

theorem only_append {P : UInt32 → List UInt8 → Prop} {xs ys : List Request} :
    Only P (xs ++ ys) ↔ Only P xs ∧ Only P ys := by
  simp [Only, or_imp, forall_and]

theorem sat_exchangeAll {P : UInt32 → List UInt8 → Prop} {requests : List Request}
    (h : Only P requests) :
    Routine.Sat (exchangeAll ops link requests) (Exchanged P :
      NcpBase δ μ → Option DaemonError → NcpBase δ μ → Prop) := by
  have hR : Routine.Chains (Exchanged P : NcpBase δ μ → Option DaemonError → NcpBase δ μ → Prop) :=
    chains_exchanged P
  fun_induction exchangeAll ops link requests with
  | case1 => exact pure hR ()
  | case2 =>
    intro s r s' hrun
    cases hrun
  | case3 x requests ih =>
    exact bind hR (void hR (sat_sendCommand ops link (h _ _ List.mem_cons_self))) fun _ =>
      ih fun c p hc => h c p (List.mem_cons_of_mem _ hc)

/-- The request for a parameter, if it is there. -/
def optRequest {α : Type} (o : Option α) (prop : UInt32) (payload : α → List UInt8) : List Request :=
  (o.map fun a => propRequest prop (payload a)).toList

theorem whenSome_request {α : Type} (o : Option α) (payload : α → List UInt8) :
    (Routine.whenSome o fun a => exchangeAll ops link [propRequest prop (payload a)] : NcpTask δ μ Unit) =
      exchangeAll ops link (optRequest o prop payload) := by
  cases o with
  | none => rfl
  | some a => rfl

/-- The same for a parameter whose reading may panic. -/
def bytesRequest {α : Type} (o : Option (Option α)) (prop : UInt32) (payload : α → List UInt8) :
    List Request := o.elim [none] fun o => optRequest o prop payload

theorem orAbort_request {α : Type} (o : Option (Option α)) (payload : α → List UInt8) :
    (Routine.orAbort o >>= fun a => exchangeAll ops link (optRequest a prop payload) : NcpTask δ μ Unit) =
      exchangeAll ops link (bytesRequest o prop payload) := by
  cases o with
  | none => rfl
  | some o => rfl

theorem orAbort_request_then {α : Type} (o : Option (Option α)) (payload : α → List UInt8)
    (t : NcpTask δ μ Unit) :
    (Routine.orAbort o >>= fun a => exchangeAll ops link (optRequest a prop payload) >>= fun _ => t) =
      exchangeAll ops link (bytesRequest o prop payload) >>= fun _ => t := by
  rw [← orAbort_request, bind_assoc]

theorem only_propRequest (h : prop ≤ spinelMaxUintPacked) (hne : prop ≠ propNetStackUp) (payload : List UInt8) :
    Only LeavesStack [propRequest prop payload] := by
  intro c p hc
  cases List.mem_singleton.mp hc
  exact leavesStack_setProp h hne payload

theorem only_optRequest {α : Type} (o : Option α) (h : prop ≤ spinelMaxUintPacked)
    (hne : prop ≠ propNetStackUp) (payload : α → List UInt8) :
    Only LeavesStack (optRequest o prop payload) := by
  cases o with
  | none => exact nofun
  | some a => exact only_propRequest h hne (payload a)

theorem only_bytesRequest {α : Type} (o : Option (Option α)) (h : prop ≤ spinelMaxUintPacked)
    (hne : prop ≠ propNetStackUp) (payload : α → List UInt8) :
    Only LeavesStack (bytesRequest o prop payload) := by
  cases o with
  | none => exact fun c p hc => nomatch List.mem_singleton.mp hc
  | some o => exact only_optRequest o h hne payload

/-- The requests of `configure_network`. -/
def configRequests : List Request :=
  [some (cmdNetClear, [])] ++ optRequest (getU8 params "NCP:Channel") propPhyChan u8Payload ++
    [propRequest propMacPromiscuousMode (u8Payload 0)] ++
    optRequest (getU16 params "Network:PANID") propMac154Panid u16Payload ++
    bytesRequest (getBytes params "Network:XPANID") propNetXpanid bytesPayload ++
    optRequest (getStr params "Network:Name" display) propNetNetworkName utf8Payload ++
    bytesRequest (getBytes params "Network:Key") propNetMasterKey bytesPayload ++
    optRequest (getU16 params "Network:KeyIndex") propNetKeySequenceCounter
      (fun idx => u32Payload idx.toUInt32) ++
    bytesRequest (getBytes params "IPv6:MeshLocalPrefix") propIpv6MlPrefix fun addr =>
      meshLocalPrefixPayload addr ((getU8 params "IPv6:MeshLocalPrefixLen").getD 64)

/-- **The configuration** is the exchange of these requests. -/
theorem configureNetwork_eq : (configureNetwork ops link display params : NcpTask δ μ Unit) =
    exchangeAll ops link (configRequests display params) := by
  have hclear : (Routine.void (sendCommand ops link cmdNetClear []) : NcpTask δ μ Unit) =
      exchangeAll ops link [some (cmdNetClear, [])] := by simp [exchangeAll]
  simp (disch := decide) only [configureNetwork, configRequests, exchangeAll_append, bind_assoc, hclear,
    setProp_eq, whenSome_request, orAbort_request, orAbort_request_then]

/-! ## 3. Bringing the network up -/

/-- The two tasks. -/
inductive BringUp where
  | form
  | join
  deriving DecidableEq

namespace BringUp

def task : BringUp → NcpTask δ μ Unit
  | .form => Tasks.form ops link display params
  | .join => Tasks.join ops link display params

/-- A task goes past its first checks. -/
def Admits (b : BringUp) (s : NcpBase δ μ) : Prop :=
  s.ncpState.isInitializing = false ∧ s.ncpState.isAssociated = false ∧
    (b = .form → capRoleRouter ∈ s.capabilities)

instance (b : BringUp) (s : NcpBase δ μ) : Decidable (b.Admits s) := by
  unfold Admits
  infer_instance

def prepare (b : BringUp) : NcpTask δ μ Unit := do
  configureNetwork ops link display params
  setProp ops link propNetIfUp (boolPayload true)
  if b = .join then setProp ops link propNetRequireJoinExisting (boolPayload true)

def raiseStack : NcpTask δ μ Unit := do
  setProp ops link propNetStackUp (boolPayload true)
  setNcpState ops link .associated

def prepareRequests (b : BringUp) : List Request :=
  configRequests display params ++ [propRequest propNetIfUp (boolPayload true)] ++
    if b = .join then [propRequest propNetRequireJoinExisting (boolPayload true)] else []

/-- All requests of a task. -/
def requests (b : BringUp) : List Request :=
  b.prepareRequests display params ++ [propRequest propNetStackUp (boolPayload true)]

theorem prepare_eq (b : BringUp) : (b.prepare ops link display params : NcpTask δ μ Unit) =
    exchangeAll ops link (b.prepareRequests display params) := by
  simp (disch := decide) only [prepare, prepareRequests, configureNetwork_eq, exchangeAll_append, bind_assoc,
    setProp_eq]
  split
  · rfl
  · rfl

theorem sat_prepare (b : BringUp) :
    Routine.Sat (b.prepare ops link display params) (Exchanged LeavesStack) := by
  rw [prepare_eq]
  refine sat_exchangeAll ops link ?_
  have hclear : Only LeavesStack [some (cmdNetClear, [])] := by
    simpa [Only] using show LeavesStack cmdNetClear [] from ⟨by decide, by decide⟩
  unfold prepareRequests configRequests
  split
  · simp (disch := decide) only [only_append, hclear, only_propRequest, only_optRequest, only_bytesRequest,
      and_self]
  · simp (disch := decide) only [only_append, hclear, only_propRequest, only_optRequest, only_bytesRequest,
      only_nil, and_self]

variable {ops link display params} {b : BringUp} {s s' : NcpBase δ μ} {r : Except DaemonError Unit}

theorem task_of_not_admits (h : ¬ b.Admits s) :
    ∃ e, b.task ops link display params s = some (.error e, s) := by
  by_cases hinit : s.ncpState.isInitializing
  · have hwait : waitForState (fun st => !st.isInitializing) s = _ := waitForState_of_false (by simp [hinit])
    cases b with
    | form => exact ⟨_, bind_error hwait⟩
    | join => exact ⟨_, bind_error hwait⟩
  have hwait : waitForState (fun st => !st.isInitializing) s = _ := waitForState_of_true (by simp [hinit])
  by_cases hassoc : s.ncpState.isAssociated
  · have hfree : waitForState (fun st => !st.isAssociated) s = _ := waitForState_of_false (by simp [hassoc])
    cases b with
    | form => exact ⟨_, (bind_ok hwait).trans (bind_error hfree)⟩
    | join => exact ⟨_, (bind_ok hwait).trans (bind_error hfree)⟩
  have hfree : waitForState (fun st => !st.isAssociated) s = _ := waitForState_of_true (by simp [hassoc])
  have hcap : b = .form ∧ capRoleRouter ∉ s.capabilities := by
    simpa [Admits, hinit, hassoc] using h
  obtain ⟨rfl, hcap⟩ := hcap
  refine ⟨.ncp "NCP lacks router capability; cannot form", ?_⟩
  show Tasks.form ops link display params s = _
  unfold Tasks.form
  rw [bind_ok hwait, bind_ok hfree, bind_ok (show get s = some (.ok s, s) from rfl), if_pos hcap]
  rfl

theorem task_of_admits (h : b.Admits s) :
    b.task ops link display params s =
      (b.prepare ops link display params >>= fun _ => raiseStack ops link) (s.entered .associating) := by
  obtain ⟨hinit, hassoc, hcap⟩ := h
  have hwait : waitForState (fun st => !st.isInitializing) s = some (.ok (), s) :=
    waitForState_of_true (by simp [hinit])
  have hfree : waitForState (fun st => !st.isAssociated) s = some (.ok (), s) :=
    waitForState_of_true (by simp [hassoc])
  have henter := setNcpState_of_quiet ops link (show Quiet .associating by decide) s
  cases b with
  | form =>
    show Tasks.form ops link display params s = _
    unfold Tasks.form
    rw [bind_ok hwait, bind_ok hfree, bind_ok (show get s = some (.ok s, s) from rfl),
      if_neg (not_not_intro (hcap rfl))]
    dsimp only
    rw [bind_ok henter]
    simp [prepare, raiseStack]
  | join =>
    show Tasks.join ops link display params s = _
    unfold Tasks.join
    rw [bind_ok hwait, bind_ok hfree, bind_ok henter]
    simp [prepare, raiseStack]

/-- **An admitted task**: an exchange before the stack fails, or the one with the stack does, or the state is
    set. -/
theorem task_cases (h : b.Admits s) (hrun : b.task ops link display params s = some (r, s')) :
    (∃ e, Exchanged LeavesStack (s.entered .associating) (some e) s' ∧ r = .error e) ∨
      ∃ s₁, Exchanged LeavesStack (s.entered .associating) none s₁ ∧
        ((∃ e, acked ops link cmdPropValueSet (stackPayload true) s₁ = false ∧ r = .error e ∧
            s' = exchanged ops link cmdPropValueSet (stackPayload true) s₁) ∨
          (acked ops link cmdPropValueSet (stackPayload true) s₁ ∧ r = .ok () ∧
            s' = (exchanged ops link cmdPropValueSet (stackPayload true) s₁).entered .associated)) := by
  have hprepare := sat_prepare ops link display params b (s.entered .associating)
  rw [task_of_admits h] at hrun
  obtain ⟨e, he, rfl⟩ | ⟨u, s₁, hok, hraise⟩ := bind_eq_some hrun
  · exact .inl ⟨e, hprepare _ _ he, rfl⟩
  refine .inr ⟨s₁, hprepare _ _ hok, ?_⟩
  unfold raiseStack at hraise
  obtain ⟨hacked, hset⟩ | ⟨e, hacked, hset⟩ := setStack_cases ops link true s₁
  · rw [bind_ok hset, setNcpState_of_quiet ops link (by decide)] at hraise
    cases hraise
    exact .inr ⟨hacked, rfl, rfl⟩
  · rw [bind_error hset] at hraise
    cases hraise
    exact .inl ⟨e, hacked, rfl, rfl⟩

/-- **An admitted task fails exactly if a request is not answered.** -/
theorem task_fails_iff (h : b.Admits s) :
    (∃ e s', b.task ops link display params s = some (.error e, s')) ↔
      ¬ Answered ops link (s.entered .associating) (b.requests display params) := by
  have hraise : (raiseStack ops link : NcpTask δ μ Unit) =
      exchangeAll ops link [propRequest propNetStackUp (boolPayload true)] >>= fun _ =>
        setNcpState ops link .associated := by
    rw [raiseStack, setProp_eq ops link (by decide)]
  rw [task_of_admits h, prepare_eq, hraise, ← bind_assoc, ← exchangeAll_append, ← exchangeAll_error_iff]
  constructor
  · rintro ⟨e, s', hrun⟩
    obtain ⟨e, he, -⟩ | ⟨u, s₁, -, hset⟩ := bind_eq_some hrun
    · exact ⟨e, s', he⟩
    · rw [setNcpState_of_quiet ops link (by decide)] at hset
      cases hset
  · rintro ⟨e, s', he⟩
    exact ⟨e, s', bind_error he⟩

theorem ncpState_of_error {e : DaemonError} (h : b.Admits s)
    (hrun : b.task ops link display params s = some (.error e, s')) : s'.ncpState = .associating := by
  obtain ⟨e, hex, -⟩ | ⟨s₁, hex, ⟨e, -, -, rfl⟩ | ⟨-, hr, -⟩⟩ := task_cases h hrun
  · exact hex.ncpState.trans (s.entered_ncpState _)
  · exact hex.ncpState.trans (s.entered_ncpState _)
  · cases hr

end BringUp

/-- **A failed `form` or `join` leaves the state as it was** exactly if it ended at its first checks, the
    state was ASSOCIATING, or the NCP answers every request, so that the task does not fail. -/
theorem bringUp_restores_iff (b : BringUp) (s : NcpBase δ μ) :
    (∀ e s', b.task ops link display params s = some (.error e, s') → s'.ncpState = s.ncpState) ↔
      ¬ b.Admits s ∨ s.ncpState = .associating ∨
        Answered ops link (s.entered .associating) (b.requests display params) := by
  by_cases hadmits : b.Admits s
  · rw [← not_not (a := Answered ..), ← BringUp.task_fails_iff hadmits]
    simp only [hadmits, not_true, false_or]
    constructor
    · intro hkeeps
      refine or_iff_not_imp_left.mpr ?_
      rintro hstate ⟨e, s', hrun⟩
      exact hstate ((hkeeps e s' hrun).symm.trans (BringUp.ncpState_of_error hadmits hrun))
    · intro hgood e s' hrun
      rw [BringUp.ncpState_of_error hadmits hrun]
      exact hgood.elim Eq.symm fun hok => absurd ⟨e, s', hrun⟩ hok
  · refine ⟨fun _ => .inl hadmits, fun _ e s' hrun => ?_⟩
    have hfail : ∃ e', b.task ops link display params s = some (.error e', s) :=
      BringUp.task_of_not_admits hadmits
    obtain ⟨e', he⟩ := hfail
    rw [he] at hrun
    cases hrun
    rfl

/-! ## 4. Leaving -/

def NoStackWrite (commandId : UInt32) (payload : List UInt8) : Prop := stackWrite commandId payload = none

/-- The exchanges of `leave` behind the stack. -/
def tearDown : NcpTask δ μ Unit := do
  setProp ops link propNetIfUp (boolPayload false)
  Routine.void (sendCommand ops link cmdNetClear [])
  Routine.void (sendCommand ops link cmdReset [])

theorem sat_tearDown : Routine.Sat (tearDown ops link) (Exchanged NoStackWrite :
    NcpBase δ μ → Option DaemonError → NcpBase δ μ → Prop) := by
  have hR : Routine.Chains (Exchanged NoStackWrite :
    NcpBase δ μ → Option DaemonError → NcpBase δ μ → Prop) := chains_exchanged NoStackWrite
  have hset : NoStackWrite cmdPropValueSet (PackWriter.uintPackedBytes propNetIfUp ++ boolPayload false) :=
    (leavesStack_setProp (by decide) (by decide) _).2
  have hclear : NoStackWrite cmdNetClear [] := rfl
  have hreset : NoStackWrite cmdReset [] := rfl
  unfold tearDown setProp
  refine bind hR (void hR (sat_sendPropSet ops link hset)) fun _ => ?_
  refine bind hR (void hR (sat_sendCommand ops link hclear)) fun _ => ?_
  exact void hR (sat_sendCommand ops link hreset)

theorem leave_eq :
    leave ops link = (do
      waitForState fun s => !s.isInitializing
      setProp ops link propNetStackUp (boolPayload false)
      tearDown ops link
      waitForState fun s => s.isInitializing
      waitForState fun s => !s.isInitializing
      waitForDriverReady : NcpTask δ μ Unit) := by
  simp only [leave, tearDown, bind_assoc]

theorem returns_setProp (h : prop ≤ spinelMaxUintPacked) (payload : List UInt8) :
    Routine.Returns (setProp ops link prop payload : NcpTask δ μ Unit) :=
  void (returns_sendPropSet ops link h payload)

theorem returns_leave : Routine.Returns (leave ops link : NcpTask δ μ Unit) := by
  refine bind (returns_waitForState _) fun _ => ?_
  refine bind (returns_setProp ops link (by decide) _) fun _ => ?_
  refine bind (returns_setProp ops link (by decide) _) fun _ => ?_
  refine bind (void (returns_sendCommand ops link _ _)) fun _ => ?_
  refine bind (void (returns_sendCommand ops link _ _)) fun _ => ?_
  refine bind (returns_waitForState _) fun _ => ?_
  exact bind (returns_waitForState _) fun _ => returns_waitForDriverReady

/-- **`leave` never succeeds**: nothing sets the state that it waits for behind its exchanges. The
    state stays as it was. -/
theorem leave_cases {s s' : NcpBase δ μ} {r : Except DaemonError Unit}
    (hinit : s.ncpState.isInitializing = false) (hrun : leave ops link s = some (r, s')) :
    (∃ e, r = .error e) ∧
      ((acked ops link cmdPropValueSet (stackPayload false) s = false ∧
          s' = exchanged ops link cmdPropValueSet (stackPayload false) s) ∨
        (acked ops link cmdPropValueSet (stackPayload false) s ∧
          Kept NoStackWrite (exchanged ops link cmdPropValueSet (stackPayload false) s) s')) := by
  have hwait : waitForState (fun st => !st.isInitializing) s = some (.ok (), s) :=
    waitForState_of_true (by simp [hinit])
  rw [leave_eq, bind_ok hwait] at hrun
  obtain ⟨hacked, hset⟩ | ⟨e, hacked, hset⟩ := setStack_cases ops link false s
  · rw [bind_ok hset] at hrun
    obtain ⟨e, he, rfl⟩ | ⟨u, s₁, hdown, hrest⟩ := bind_eq_some hrun
    · exact ⟨⟨e, rfl⟩, .inr ⟨hacked, (sat_tearDown ops link _ _ _ he).kept⟩⟩
    · have hkept := sat_tearDown ops link _ _ _ hdown
      have hstate : s₁.ncpState = s.ncpState := hkept.ncpState
      rw [bind_error (waitForState_of_false (by rw [hstate, hinit]))] at hrest
      cases hrest
      exact ⟨⟨_, rfl⟩, .inr ⟨hacked, hkept.kept⟩⟩
  · rw [bind_error hset] at hrun
    cases hrun
    exact ⟨⟨e, rfl⟩, .inl ⟨hacked, rfl⟩⟩

end Tasks

/-! ## 5. A failed task -/

/-- The instance after its initialization, with an NCP that is a router. -/
def initialized : NcpBase Unit Unit where
  ncpState := .offline
  driverState := .normalOperation
  capabilities := [capRoleRouter]
  config := ⟨false, false, none, none⟩
  sharedState := { DaemonState.default with ncpState := .offline }
  nextTid := 0
  task := idleTask
  exchanges := []

def silentLink : NcpLink := ⟨fun _ => true, fun _ _ => []⟩

/-- **A task that fails does not put the state back**: the first exchange times out, and the instance
    stays in ASSOCIATING. -/
theorem bringUp_stays_associating :
    (form idleOps silentLink (fun _ : Variant Unit => "") ∅ initialized).map
        (fun x => (Routine.errorOf x.1, x.2.ncpState)) =
      some (some (.ncp "timeout"), .associating) ∧
    (join idleOps silentLink (fun _ : Variant Unit => "") ∅ initialized).map
        (fun x => (Routine.errorOf x.1, x.2.ncpState)) =
      some (some (.ncp "timeout"), .associating) ∧
    initialized.ncpState = .offline := by
  decide +kernel

end DcuDaemon.Tasks
