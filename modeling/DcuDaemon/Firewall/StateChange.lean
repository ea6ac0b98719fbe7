/-
  The primary interface across the state changes of the NCP (`handle_ncp_state_change` of
  `src/wfantund/NCPInstanceBase.cpp`, `set_online` and `reset_interface` of
  `NCPInstanceBase-NetInterface.cpp`).

  `reset_interface` takes the interface down and leaves `mIsInterfaceOnline`, by which `set_online` decides
  whether there is anything to do. The calls of the system do not fail.

  Main result: `reset_interface_stays_down`.
-/
import DcuDaemon.Firewall.NetInterface

namespace DcuDaemon.Firewall

open Lib

/-- What `handle_ncp_state_change` does with the interface; `early` is a `return`. -/
inductive StateBranch where
  | early
  | online
  | reset
  | offline
  | other
  deriving DecidableEq

def stateBranch (tiWisunFan : Bool) (s : NcpInstance) (new old : NcpState) : StateBranch :=
  if !old.isDetachedFromNcp && new.isDetachedFromNcp then .early
  else if !old.isInterfaceUp && new.isInterfaceUp then .online
  else if old.isInterfaceUp && new = .commissioned && s.autoResume && s.enabled then .early
  else if old.isCommissioned && !new.isCommissioned && !new.isJoining tiWisunFan &&
      !new.isSleeping tiWisunFan && new ≠ .uninitialized then .reset
  else if old = .uninitialized ∧ new = .offline then .reset
  else if old.isInterfaceUp && !new.isInterfaceUp && new ≠ .netWakeWaking then .offline
  else .other

/-- The call of `handle_ncp_state_change` in `change_ncp_state`, with the new and the old state. -/
def changeCall (s : NcpInstance) (new : NcpState) : Option (NcpState × NcpState) :=
  if s.ncpState = new ∨ s.ncpState.isDetachedFromNcp ∧ new ≠ .uninitialized then none
  else if !s.isInitializingNcp || new = .uninitialized || new = .fault || new = .upgrading then
    some (new, s.ncpState)
  else none

/-- The call that an event leads to. -/
def handlerCall (s : NcpInstance) : Event → Option (NcpState × NcpState)
  | .changeNcpState new => changeCall s new
  | .setInitializingNcp x =>
    if s.isInitializingNcp = x then none
    else if x then changeCall { s with isInitializingNcp := x } .uninitialized
    else if s.ncpState ≠ .uninitialized ∧ s.ncpState ≠ .fault ∧ s.ncpState ≠ .upgrading then
      some (s.ncpState, .uninitialized)
    else none
  | _ => none

/-- `mIsInterfaceOnline`, and whether the interface is running. -/
structure Primary where
  isInterfaceOnline : Bool
  running : Bool
  deriving DecidableEq

def Primary.setOnline (p : Primary) (isOnline : Bool) : Primary :=
  if p.isInterfaceOnline ≠ isOnline then ⟨isOnline, isOnline⟩ else p

def Primary.handle (p : Primary) : StateBranch → Primary
  | .online => p.setOnline true
  | .reset => { p with running := false }
  | .offline => p.setOnline false
  | _ => p

variable (tiWisunFan : Bool)

def branchAt (s : NcpInstance) (e : Event) : StateBranch :=
  match handlerCall s e with
  | none => .other
  | some (new, old) => stateBranch tiWisunFan s new old

/-- The instance and its interface, one event on. -/
def stepPrimary (x : NcpInstance × Primary) (e : Event) : NcpInstance × Primary :=
  (x.1.step tiWisunFan e, x.2.handle (branchAt tiWisunFan x.1 e))

theorem handleNcpStateChange_eq (s : NcpInstance) (new old : NcpState) :
    s.handleNcpStateChange tiWisunFan new old = match stateBranch tiWisunFan s new old with
      | .reset | .offline => s.stopCommissioning
      | _ => s := by
  unfold NcpInstance.handleNcpStateChange stateBranch
  split_ifs <;> rfl

/-- **An online interface that was reset stays down** through every run that has no transition of the
    general case from up to down. -/
theorem reset_interface_stays_down (x : NcpInstance × Primary) (e : Event) (events : List Event)
    (honline : x.2.isInterfaceOnline = true) (hreset : branchAt tiWisunFan x.1 e = .reset)
    (hrun : Along (stepPrimary tiWisunFan) (fun y e => branchAt tiWisunFan y.1 e ≠ .offline)
      (stepPrimary tiWisunFan x e) events) :
    (run (stepPrimary tiWisunFan) x (e :: events)).2 = ⟨true, false⟩ := by
  rw [run_cons]
  refine run_invariant (fun y e (hy : y.2 = ⟨true, false⟩) hbranch => ?_) ?_ hrun
  · show y.2.handle _ = _
    rw [hy]
    cases hcase : branchAt tiWisunFan y.1 e with
    | offline => exact absurd hcase hbranch
    | _ => rfl
  · show x.2.handle _ = _
    rw [hreset, Primary.handle, honline]

/-- Associated, offline, and associated again. -/
theorem reset_interface_stays_down_associated : (run (stepPrimary true)
    (stepPrimary true (NcpInstance.start .offline 0, ⟨false, false⟩) (.changeNcpState .associated))
    [.changeNcpState .offline, .changeNcpState .associated]).2 = ⟨true, false⟩ :=
  reset_interface_stays_down true _ _ _ rfl rfl (by decide)

end DcuDaemon.Firewall
