/-
  The commands for the network (`handle_command` of `crates/dcu-tunnel-daemon/src/instance/base.rs` for
  Attach, JoinerAttach, Form, Join, Leave and Reset; `validate_command` of `control_interface.rs`), and
  sequences of them.

  The daemon keeps the state of the NCP on its own: each command sets it, or does not, before or behind
  its exchanges. The record of the exchanges tells what the NCP was told: the last write to NET_STACK_UP
  that it acknowledged since the last reset.

  Main results: `commands_agree_iff`, `reset_never_completes`.
-/
import DcuDaemon.Tasks.Network

namespace DcuDaemon.Tasks

open Dbus Instance Lib Spinel List Option Routine NcpBase

/-! ## 1. The commands -/

inductive NetCommand (ω : Type) where
  | attach
  /-- Its parameters are not looked at. -/
  | joinerAttach
  | form (params : HashTable String (Variant ω))
  | join (params : HashTable String (Variant ω))
  | leave
  | reset

/-- The check of `validate_command` for one command. -/
def requireState (allowed : List NcpState) (verb : String) (state : NcpState) : Except DaemonError Unit :=
  if state ∈ allowed then .ok ()
  else .error (.ncp ("cannot " ++ verb ++ " in state " ++ state.toText))

def validateCommand {ω : Type} : NetCommand ω → NcpState → Except DaemonError Unit
  | .form _ => requireState [.offline, .fault] "form"
  | .join _ => requireState [.offline, .fault] "join"
  | .leave => requireState [.associated, .isolated, .netWakeWaking, .netWakeAsleep, .commissioned] "leave"
  | .attach => requireState [.offline] "attach"
  | .reset | .joinerAttach => fun _ => .ok ()

section Commands

variable {δ μ ω : Type} (ops : DatasetOps δ μ) (link : NcpLink) (display : Variant ω → String)

/-- `Command::Attach` and `Command::JoinerAttach`. -/
def attachStack (answer : String) : NcpTask δ μ String := do
  waitForState fun s => !s.isInitializing
  setProp ops link propNetStackUp [1]
  pure answer

/-- `Command::Reset`, without the GPIO reset. -/
def resetNcp : NcpTask δ μ String := do
  setNcpState ops link .uninitialized
  Routine.void (sendCommand ops link cmdReset [])
  waitForState fun s => !s.isInitializing
  let s ← Routine.get
  pure ("NCP:State: " ++ s.ncpState.toText)

/-- The arms of `handle_command`. -/
def runCommand : NetCommand ω → NcpTask δ μ String
  | .reset => resetNcp ops link
  | .leave => do
    leave ops link
    pure "Left network"
  | .form params => do
    form ops link display params
    pure "Formed network"
  | .join params => do
    join ops link display params
    pure "Joined network"
  | .attach => attachStack ops link "Attached"
  | .joinerAttach => attachStack ops link "JoinerAttach: attached"

def handleCommand (cmd : NetCommand ω) : NcpTask δ μ String := do
  let s ← Routine.get
  Routine.ofExcept (validateCommand cmd s.ncpState)
  runCommand ops link display cmd

/-- The instance behind a command; none behind a panic. -/
def step (o : Option (NcpBase δ μ)) (cmd : NetCommand ω) : Option (NcpBase δ μ) :=
  o.bind fun s => (handleCommand ops link display cmd s).map Prod.snd

/-! ## 2. What each command does -/

theorem attachStack_cases (answer : String) (s : NcpBase δ μ) :
    (s.ncpState.isInitializing ∧ ∃ e, attachStack ops link answer s = some (.error e, s)) ∨
      (s.ncpState.isInitializing = false ∧ ∃ r, attachStack ops link answer s =
        some (r, exchanged ops link cmdPropValueSet (stackPayload true) s)) := by
  unfold attachStack
  cases hinit : s.ncpState.isInitializing with
  | true => exact .inl ⟨rfl, _, bind_error (waitForState_of_false (by simp [hinit]))⟩
  | false =>
    refine .inr ⟨rfl, ?_⟩
    rw [bind_ok (waitForState_of_true (by simp [hinit]))]
    obtain ⟨-, hset⟩ | ⟨e, -, hset⟩ := setStack_cases ops link true s
    · exact ⟨_, bind_ok hset⟩
    · exact ⟨_, bind_error hset⟩

theorem returns_attachStack (answer : String) :
    Routine.Returns (attachStack ops link answer : NcpTask δ μ String) := by
  refine Routine.Returns.bind (returns_waitForState _) fun _ => ?_
  exact Routine.Returns.bind (returns_setProp ops link (by decide) _) fun _ => Routine.Returns.pure _

section Effects

variable {ops link display} {cmd : NetCommand ω} {s s' : NcpBase δ μ} {r : Except DaemonError String}

theorem handleCommand_of_ok (h : validateCommand cmd s.ncpState = .ok ()) :
    handleCommand ops link display cmd s = runCommand ops link display cmd s := by
  unfold handleCommand
  rw [bind_ok (show get s = some (.ok s, s) from rfl), h]
  rfl

theorem handleCommand_of_error {e : DaemonError} (h : validateCommand cmd s.ncpState = .error e) :
    handleCommand ops link display cmd s = some (.error e, s) := by
  unfold handleCommand
  rw [bind_ok (show get s = some (.ok s, s) from rfl), h]
  rfl

/-- **A command** is refused and changes nothing, or its arm runs. -/
theorem handleCommand_cases (hrun : handleCommand ops link display cmd s = some (r, s')) :
    (validateCommand cmd s.ncpState ≠ .ok () ∧ s' = s) ∨
      (validateCommand cmd s.ncpState = .ok () ∧ runCommand ops link display cmd s = some (r, s')) := by
  cases hvalid : validateCommand cmd s.ncpState with
  | error e =>
    rw [handleCommand_of_error hvalid] at hrun
    cases hrun
    exact .inl ⟨by simp, rfl⟩
  | ok u =>
    rw [handleCommand_of_ok hvalid] at hrun
    exact .inr ⟨rfl, hrun⟩

theorem handleCommand_refused {allowed : List NcpState} {verb : String}
    (hcheck : validateCommand cmd = requireState allowed verb) (h : s.ncpState ∉ allowed) :
    handleCommand ops link display cmd s =
      some (.error (.ncp ("cannot " ++ verb ++ " in state " ++ s.ncpState.toText)), s) := by
  refine handleCommand_of_error ?_
  rw [hcheck, requireState, if_neg h]

theorem requireState_eq_ok_iff {allowed : List NcpState} {verb : String} {state : NcpState} :
    requireState allowed verb state = .ok () ↔ state ∈ allowed := by
  simp [requireState]

theorem task_of_answer {t : NcpTask δ μ Unit} {answer : String}
    (h : (t >>= fun _ => pure answer) s = some (r, s')) : ∃ r', t s = some (r', s') := by
  obtain ⟨e, he, -⟩ | ⟨u, s₁, hok, hrest⟩ := bind_eq_some h
  · exact ⟨_, he⟩
  · cases hrest
    exact ⟨_, hok⟩

end Effects

/-! ## 3. The record -/

/-- The last acknowledged write to NET_STACK_UP since the last reset. A reset that was not acknowledged may
    count. -/
def noteExchange (unanswered : Bool) (up : Option Bool) (x : Exchange) : Option Bool :=
  if x.commandId = cmdReset then if unanswered || x.acked then none else up
  else if x.acked then (stackWrite x.commandId x.payload).or up
  else up

def lastStackWrite (unanswered : Bool) (exchanges : List Exchange) : Option Bool :=
  exchanges.foldl (noteExchange unanswered) none

/-- **State and record agree**: the state is associated exactly if the last write was 1, and `is_connected`
    says the same. -/
def Agree (unanswered : Bool) (s : NcpBase δ μ) : Prop :=
  (s.ncpState.isAssociated = true ↔ lastStackWrite unanswered s.exchanges = some true) ∧
    s.sharedState.isConnected = s.ncpState.isAssociated

instance (unanswered : Bool) (s : NcpBase δ μ) : Decidable (Agree unanswered s) :=
  inferInstanceAs (Decidable (_ ∧ _))

section Record

variable {unanswered : Bool}

theorem lastStackWrite_concat (exchanges : List Exchange) (x : Exchange) :
    lastStackWrite unanswered (exchanges ++ [x]) =
      noteExchange unanswered (lastStackWrite unanswered exchanges) x := by
  rw [lastStackWrite, foldl_append]
  rfl

theorem lastStackWrite_of_leavesStack {exchanges new : List Exchange}
    (h : ∀ x ∈ new, LeavesStack x.commandId x.payload) :
    lastStackWrite unanswered (exchanges ++ new) = lastStackWrite unanswered exchanges := by
  induction new using reverseRecOn with
  | nil => rw [append_nil]
  | append_singleton new x ih =>
    obtain ⟨hnew, hx⟩ := forall_mem_append.mp h
    obtain ⟨hreset, hstack⟩ := hx x mem_cons_self
    rw [← append_assoc, lastStackWrite_concat, ih hnew, noteExchange, if_neg hreset, hstack,
      none_or, ite_self]

theorem lastStackWrite_of_noStackWrite {exchanges new : List Exchange}
    (h : ∀ x ∈ new, NoStackWrite x.commandId x.payload)
    (hold : lastStackWrite unanswered exchanges ≠ some true) :
    lastStackWrite unanswered (exchanges ++ new) ≠ some true := by
  induction new using reverseRecOn with
  | nil => rwa [append_nil]
  | append_singleton new x ih =>
    obtain ⟨hnew, hx⟩ := forall_mem_append.mp h
    have hstack : stackWrite x.commandId x.payload = none := hx x mem_cons_self
    rw [← append_assoc, lastStackWrite_concat, noteExchange, hstack, none_or, ite_self]
    split
    · split
      · simp
      · exact ih hnew
    · exact ih hnew

theorem lastStackWrite_stackSet (up : Bool) (s : NcpBase δ μ) :
    lastStackWrite unanswered (exchanged ops link cmdPropValueSet (stackPayload up) s).exchanges =
      if acked ops link cmdPropValueSet (stackPayload up) s then some up
      else lastStackWrite unanswered s.exchanges := by
  show lastStackWrite unanswered (s.exchanges ++ [_]) = _
  rw [lastStackWrite_concat, noteExchange, if_neg (show cmdPropValueSet ≠ cmdReset by decide)]
  rw [stackWrite_stackPayload, some_or]

theorem lastStackWrite_reset (s : NcpBase δ μ) :
    lastStackWrite unanswered (exchanged ops link cmdReset [] s).exchanges =
      if unanswered || acked ops link cmdReset [] s then none
      else lastStackWrite unanswered s.exchanges := by
  show lastStackWrite unanswered (s.exchanges ++ [_]) = _
  rw [lastStackWrite_concat, noteExchange, if_pos rfl]

end Record

/-! ## 4. One command -/

/-- **The commands after which state and record agree again**: Attach, JoinerAttach and Leave do not set the
    state; Reset sets it even when the NCP was not reset. -/
def Safe (unanswered : Bool) (s : NcpBase δ μ) : NetCommand ω → Prop
  | .attach => s.ncpState = .offline → acked ops link cmdPropValueSet (stackPayload true) s = false
  | .joinerAttach => s.ncpState.isInitializing = false → s.ncpState.isAssociated = false →
      acked ops link cmdPropValueSet (stackPayload true) s = false
  | .form _ | .join _ => True
  | .leave => s.ncpState.isAssociated = true → acked ops link cmdPropValueSet (stackPayload false) s = false
  | .reset => s.ncpState.isAssociated = true → unanswered = true ∨ acked ops link cmdReset [] s = true

section Steps

variable {ops link display} {unanswered : Bool} {s s' : NcpBase δ μ}

theorem agree_stackSet_iff (h : Agree unanswered s) (up : Bool) :
    Agree unanswered (exchanged ops link cmdPropValueSet (stackPayload up) s) ↔
      (acked ops link cmdPropValueSet (stackPayload up) s → s.ncpState.isAssociated = up) := by
  unfold Agree
  rw [lastStackWrite_stackSet]
  show ((s.ncpState.isAssociated ↔ _) ∧ s.sharedState.isConnected = s.ncpState.isAssociated) ↔ _
  rw [and_iff_left h.2]
  cases acked ops link cmdPropValueSet (stackPayload up) s with
  | false => simpa using h.1
  | true =>
    cases up with
    | false => simp
    | true => simp

variable {r : Except DaemonError String} {state : NcpState} {cmd : NetCommand ω}

theorem agree_attachStack_iff (h : Agree unanswered s) {answer : String}
    (hrun : attachStack ops link answer s = some (r, s')) :
    Agree unanswered s' ↔ (s.ncpState.isInitializing = false → s.ncpState.isAssociated = false →
      acked ops link cmdPropValueSet (stackPayload true) s = false) := by
  obtain ⟨hinit, e, hfail⟩ | ⟨hinit, r', hset⟩ := attachStack_cases ops link answer s
  · rw [hfail] at hrun
    cases hrun
    simp [hinit, h]
  · rw [hset] at hrun
    cases hrun
    rw [agree_stackSet_iff h]
    cases acked ops link cmdPropValueSet (stackPayload true) s with
    | false => simp
    | true => simp [hinit]

theorem agree_iff_of_leavesStack (hkept : Kept LeavesStack s s') :
    Agree unanswered s' ↔ Agree unanswered s := by
  obtain ⟨new, hnew, hleaves⟩ := hkept.made
  unfold Agree
  rw [hkept.ncpState, hkept.sharedState, hnew, lastStackWrite_of_leavesStack hleaves]

theorem agree_entered_associating (h : Agree unanswered s) (hfree : s.ncpState.isAssociated = false) :
    Agree unanswered (s.entered .associating) := by
  have hconnected : (s.entered .associating).sharedState.isConnected = s.sharedState.isConnected := by
    unfold entered
    split
    · rfl
    · rfl
  obtain ⟨hstate, hshared⟩ := h
  rw [hfree] at hstate hshared
  unfold Agree
  rw [hconnected, entered_exchanges, entered_ncpState]
  exact ⟨hstate, hshared⟩

theorem agree_bringUp (h : Agree unanswered s) {b : BringUp} {params : HashTable String (Variant ω)}
    {r : Except DaemonError Unit} (hrun : b.task ops link display params s = some (r, s')) :
    Agree unanswered s' := by
  by_cases hadmits : b.Admits s
  case neg =>
    have hfail : ∃ e, b.task ops link display params s = some (.error e, s) :=
      BringUp.task_of_not_admits hadmits
    obtain ⟨e, he⟩ := hfail
    rw [he] at hrun
    cases hrun
    exact h
  have hassociating := agree_entered_associating h hadmits.2.1
  obtain ⟨e, hex, rfl⟩ | ⟨s₁, hex, hstack⟩ := BringUp.task_cases hadmits hrun
  · exact (agree_iff_of_leavesStack hex.kept).mpr hassociating
  have hstate : s₁.ncpState = .associating := hex.ncpState.trans (s.entered_ncpState _)
  obtain ⟨e, hacked, rfl, rfl⟩ | ⟨hacked, rfl, rfl⟩ := hstack
  · have hready := (agree_iff_of_leavesStack hex.kept).mpr hassociating
    refine (agree_stackSet_iff hready true).mpr fun hyes => ?_
    rw [hacked] at hyes
    cases hyes
  · have hwrite : lastStackWrite unanswered
        (exchanged ops link cmdPropValueSet (stackPayload true) s₁).exchanges = some true := by
      rw [lastStackWrite_stackSet, hacked, if_pos rfl]
    have hnew : (exchanged ops link cmdPropValueSet (stackPayload true) s₁).ncpState ≠ .associated := by
      show s₁.ncpState ≠ .associated
      rw [hstate]
      decide
    refine ⟨?_, ?_⟩
    · rw [entered_exchanges, hwrite]
      simp [NcpState.isAssociated]
    · rw [entered_ncpState, entered_sharedState hnew]
      rfl

theorem agree_leave_iff (h : Agree unanswered s) (hinit : s.ncpState.isInitializing = false)
    {r : Except DaemonError Unit} (hrun : leave ops link s = some (r, s')) :
    Agree unanswered s' ↔ (s.ncpState.isAssociated →
      acked ops link cmdPropValueSet (stackPayload false) s = false) := by
  obtain ⟨-, ⟨hacked, rfl⟩ | ⟨hacked, hkept⟩⟩ := leave_cases ops link hinit hrun
  · rw [agree_stackSet_iff h]
    simp
  obtain ⟨new, hnew, hnone⟩ := hkept.made
  have hwrite : lastStackWrite unanswered s'.exchanges ≠ some true := by
    rw [hnew]
    refine lastStackWrite_of_noStackWrite hnone ?_
    rw [lastStackWrite_stackSet, hacked]
    simp
  unfold Agree
  rw [hkept.ncpState, hkept.sharedState]
  show ((s.ncpState.isAssociated ↔ _) ∧ s.sharedState.isConnected = s.ncpState.isAssociated) ↔ _
  rw [and_iff_left h.2, hacked, iff_false_right hwrite]
  simp

/-- **Reset fails**: with the error of its exchange, or behind it, for it waits for another state than
    the one it set. -/
theorem reset_eq (s : NcpBase δ μ) : handleCommand ops link display .reset s =
      some (.error ((errorOf (reply ops link cmdReset [] (s.entered .uninitialized)).1).getD
          (.ncp "timeout waiting for NCP state")),
        exchanged ops link cmdReset [] (s.entered .uninitialized)) := by
  show resetNcp ops link s = _
  unfold resetNcp void
  rw [bind_ok (setNcpState_of_quiet ops link (by decide) s)]
  have hsend : sendCommand ops link cmdReset [] (s.entered .uninitialized) =
    some ((reply ops link cmdReset [] (s.entered .uninitialized)).1,
      exchanged ops link cmdReset [] (s.entered .uninitialized)) := rfl
  cases hreply : (reply ops link cmdReset [] (s.entered .uninitialized)).1 with
  | error e =>
    rw [hreply] at hsend
    exact bind_error (bind_error hsend)
  | ok resp =>
    rw [hreply] at hsend
    rw [bind_ok (bind_ok hsend)]
    exact bind_error (waitForState_of_false (by simp [exchanged, NcpState.isInitializing]))

theorem agree_reset_iff (h : Agree unanswered s) :
    Agree unanswered (exchanged ops link cmdReset [] (s.entered .uninitialized)) ↔
      (s.ncpState.isAssociated → unanswered ∨ acked ops link cmdReset [] s) := by
  have hconnected : (s.entered .uninitialized).sharedState.isConnected = false := by
    by_cases hstate : s.ncpState = .uninitialized
    · rw [entered, if_pos hstate, h.2, hstate]
      rfl
    · rw [entered_sharedState hstate]
      rfl
  unfold Agree
  rw [lastStackWrite_reset, acked_entered]
  show (((s.entered .uninitialized).ncpState.isAssociated ↔ _) ∧
    (s.entered .uninitialized).sharedState.isConnected = (s.entered .uninitialized).ncpState.isAssociated) ↔ _
  rw [hconnected, h.1]
  cases unanswered with
  | true => simp [NcpState.isAssociated]
  | false =>
    cases acked ops link cmdReset [] s with
    | true => simp [NcpState.isAssociated]
    | false => simp [NcpState.isAssociated]

theorem isInitializing_of_leavable
    (h : state ∈ [.associated, .isolated, .netWakeWaking, .netWakeAsleep, .commissioned]) :
    state.isInitializing = false := by
  revert state
  decide

theorem leavable_of_isAssociated (h : state.isAssociated) :
    state ∈ [.associated, .isolated, .netWakeWaking, .netWakeAsleep, .commissioned] := by
  cases state with
  | associated | isolated | netWakeWaking | netWakeAsleep => decide
  | _ => cases h

/-- **One command.** -/
theorem step_agree_iff (h : Agree unanswered s) (hrun : handleCommand ops link display cmd s = some (r, s')) :
    Agree unanswered s' ↔ Safe ops link unanswered s cmd := by
  obtain ⟨hrefused, rfl⟩ | ⟨hvalid, harm⟩ := handleCommand_cases hrun
  · refine iff_of_true h ?_
    cases cmd with
    | attach => exact fun hstate => absurd (requireState_eq_ok_iff.mpr (by simp [hstate])) hrefused
    | joinerAttach => exact absurd rfl hrefused
    | form params => exact trivial
    | join params => exact trivial
    | leave =>
      intro hassoc
      exact absurd (requireState_eq_ok_iff.mpr (leavable_of_isAssociated hassoc)) hrefused
    | reset => exact absurd rfl hrefused
  · cases cmd with
    | attach =>
      have hstate : s.ncpState = .offline := mem_singleton.mp (requireState_eq_ok_iff.mp hvalid)
      rw [agree_attachStack_iff h harm]
      simp [Safe, hstate, NcpState.isInitializing, NcpState.isAssociated]
    | joinerAttach => exact agree_attachStack_iff h harm
    | form params =>
      obtain ⟨r', hform⟩ := task_of_answer harm
      exact iff_of_true (agree_bringUp h (show BringUp.form.task ops link display params s = _ from hform))
        trivial
    | join params =>
      obtain ⟨r', hjoin⟩ := task_of_answer harm
      exact iff_of_true (agree_bringUp h (show BringUp.join.task ops link display params s = _ from hjoin))
        trivial
    | leave =>
      obtain ⟨r', hleave⟩ := task_of_answer harm
      exact agree_leave_iff h (isInitializing_of_leavable (requireState_eq_ok_iff.mp hvalid)) hleave
    | reset =>
      rw [reset_eq] at hrun
      cases hrun
      exact agree_reset_iff h

theorem safe_of_panic (h : handleCommand ops link display cmd s = none) : Safe ops link unanswered s cmd := by
  have hreturns : ∀ {t : NcpTask δ μ String}, runCommand ops link display cmd = t → ¬ Routine.Returns t := by
    intro t ht hret
    cases hvalid : validateCommand cmd s.ncpState with
    | error e =>
      rw [handleCommand_of_error hvalid] at h
      cases h
    | ok u =>
      rw [handleCommand_of_ok hvalid, ht] at h
      exact hret s h
  cases cmd with
  | attach => exact absurd (returns_attachStack ops link _) (hreturns rfl)
  | joinerAttach => exact absurd (returns_attachStack ops link _) (hreturns rfl)
  | form params => exact trivial
  | join params => exact trivial
  | leave =>
    exact absurd (Routine.Returns.bind (returns_leave ops link) fun _ => Routine.Returns.pure _)
      (hreturns rfl)
  | reset =>
    rw [reset_eq] at h
    cases h

end Steps

/-! ## 5. Sequences of commands -/

/-- **State and record agree along a sequence of commands** exactly if at its beginning and after each of
    them. -/
theorem commands_agree_iff (unanswered : Bool) (s : NcpBase δ μ) (cmds : List (NetCommand ω)) :
    (Agree unanswered s ∧ Along (step ops link display)
        (fun o cmd => ∀ s' ∈ step ops link display o cmd, Agree unanswered s') (some s) cmds) ↔
      (Agree unanswered s ∧ Along (step ops link display)
        (fun o cmd => ∀ s ∈ o, Safe ops link unanswered s cmd) (some s) cmds) := by
  -- behind a panic there is no state left to speak about
  have hiff : ∀ (o : Option (NcpBase δ μ)) (cmd : NetCommand ω), (∀ s ∈ o, Agree unanswered s) → True →
      ((∀ s' ∈ step ops link display o cmd, Agree unanswered s') ↔
        ∀ s ∈ o, Safe ops link unanswered s cmd) := by
    intro o cmd ho _
    cases o with
    | none => simp [step]
    | some s =>
      have hstep : step ops link display (some s) cmd =
        (handleCommand ops link display cmd s).map Prod.snd := rfl
      rw [hstep]
      rcases hrun : handleCommand ops link display cmd s with _ | ⟨r, s'⟩
      · simpa using safe_of_panic hrun
      · simpa using step_agree_iff (ho s rfl) hrun
  refine and_congr_right fun hs => along_iff ?_ hiff (by simpa using hs) (along_true _ _)
  intro o cmd ho _ hsafe
  exact (hiff o cmd ho trivial).mpr hsafe

/-! ## 6. Reset -/

theorem command_of_uninitialized {s : NcpBase δ μ} (h : s.ncpState = .uninitialized) (cmd : NetCommand ω) :
    ∃ e s', handleCommand ops link display cmd s = some (.error e, s') ∧ s'.ncpState = .uninitialized := by
  cases cmd with
  | attach => exact ⟨_, s, handleCommand_refused rfl (by rw [h]; decide), h⟩
  | form params => exact ⟨_, s, handleCommand_refused rfl (by rw [h]; decide), h⟩
  | join params => exact ⟨_, s, handleCommand_refused rfl (by rw [h]; decide), h⟩
  | leave => exact ⟨_, s, handleCommand_refused rfl (by rw [h]; decide), h⟩
  | joinerAttach =>
    refine ⟨.ncp "timeout waiting for NCP state", s, ?_, h⟩
    rw [handleCommand_of_ok rfl]
    exact bind_error (waitForState_of_false (by simp [h, NcpState.isInitializing]))
  | reset => exact ⟨_, _, reset_eq s, entered_ncpState s _⟩

def Fails (o : Option (NcpBase δ μ)) (cmd : NetCommand ω) : Prop :=
  ∃ s e s', o = some s ∧ handleCommand ops link display cmd s = some (.error e, s')

theorem fails_along {s : NcpBase δ μ} (h : s.ncpState = .uninitialized) (cmds : List (NetCommand ω)) :
    Along (step ops link display) (Fails ops link display) (some s) cmds := by
  induction cmds generalizing s with
  | nil => exact trivial
  | cons cmd cmds ih =>
    obtain ⟨e, s', hrun, hstate⟩ := command_of_uninitialized ops link display h cmd
    have hstep : step ops link display (some s) cmd = some s' := by
      rw [step, bind_some, hrun]
      rfl
    refine ⟨⟨s, e, s', rfl, hrun⟩, ?_⟩
    rw [hstep]
    exact ih hstate

/-- **Reset never completes**: it returns an error, the instance stays in an initializing state, and every
    command fails. -/
theorem reset_never_completes (s : NcpBase δ μ) :
    ∃ e s', handleCommand ops link display .reset s = some (.error e, s') ∧
      s'.ncpState.isInitializing = true ∧ ∀ cmds : List (NetCommand ω),
        Along (step ops link display) (Fails ops link display) (some s') cmds := by
  have hstate : (exchanged ops link cmdReset [] (s.entered .uninitialized)).ncpState = .uninitialized :=
    entered_ncpState s _
  refine ⟨_, _, reset_eq s, ?_, fails_along ops link display hstate⟩
  rw [hstate]
  rfl

end Commands

/-! ## 7. Runs of the daemon -/

def acknowledgingLink : NcpLink := ⟨fun _ => true, fun _ frame => [⟨frame.header, cmdPropValueIs, [0, 0]⟩]⟩

/-- **Attach and Leave do not set the state.** Behind Attach it is still OFFLINE, behind Form and Leave still
    ASSOCIATED. -/
theorem attach_leave_keep_state :
    Agree true initialized ∧ Agree false initialized ∧
    (run (step idleOps acknowledgingLink (fun _ : Variant Unit => "")) (some initialized)
        [.attach]).map (fun s => (s.ncpState, lastStackWrite true s.exchanges,
          lastStackWrite false s.exchanges, s.sharedState.isConnected)) =
      some (.offline, some true, some true, false) ∧
    (run (step idleOps acknowledgingLink (fun _ : Variant Unit => "")) (some initialized)
        [.form ∅, .leave]).map (fun s => (s.ncpState, lastStackWrite true s.exchanges,
          lastStackWrite false s.exchanges, s.sharedState.isConnected)) =
      some (.associated, none, none, true) := by
  decide +kernel

/-- An NCP that answers a reset as the initialization expects it. -/
def notifyingLink : NcpLink := ⟨fun _ => true, fun _ _ => [⟨makeHeader 0 0, cmdPropValueIs, [0, 0x72]⟩]⟩

/-- **Reset is answered and times out**, and a Form behind it is refused. -/
theorem reset_notified_times_out :
    (handleCommand idleOps notifyingLink (fun _ : Variant Unit => "") .reset initialized).map
        (fun x => (Routine.errorOf x.1, x.2.ncpState)) =
      some (some (.ncp "timeout"), .uninitialized) ∧
    ((run (step idleOps notifyingLink (fun _ : Variant Unit => "")) (some initialized) [.reset]).bind
        (handleCommand idleOps notifyingLink (fun _ : Variant Unit => "") (.form ∅))).map
        (fun x => Routine.errorOf x.1) =
      some (some (.ncp "cannot form in state uninitialized")) := by
  decide +kernel

end DcuDaemon.Tasks
