/-
  Unexpected resets of the NCP and the initialization that follows them
  (`src/wfantund/RunawayResetBackoffManager.cpp`, `src/ncp-spinel/SpinelNCPInstance-Protothreads.cpp`:
  `vprocess_event`, `vprocess_init`, `src/ncp-spinel/SpinelNCPInstance.cpp`: the resets of LAST_STATUS,
  `src/util/EventHandler.cpp`).

  The initialization sleeps before it talks to the NCP, for a time that grows with the unexpected resets
  that were counted. The handler of a reset does not count it: `count_unexpected_reset` has no caller.
  `EVENT_NCP_RESET` has no sender either, and its branches are left out. How the exchanges with the NCP
  end is given from outside.

  Main result: `backoff_wait_iff`.
-/
import DcuDaemon.Firewall.NetInterface
import Mathlib.Logic.Function.Iterate
import Mathlib.Tactic.Ring

namespace DcuDaemon.Wfantund

open Firewall (NcpState)
open Lib

/-! ## 1. The driver -/

/-- `RunawayResetBackoffManager`; the time is in seconds. -/
structure ResetBackoff where
  windowedResetCount : Int
  decrementAt : Int

namespace ResetBackoff

def start : ResetBackoff := ⟨0, 0⟩

/-- `delay_for_unexpected_reset`, in milliseconds. -/
def delayForUnexpectedReset (b : ResetBackoff) : Int :=
  if b.windowedResetCount > 4 then (b.windowedResetCount - 4) * (b.windowedResetCount - 4) * 500 else 0

def countUnexpectedReset (now : Int) (b : ResetBackoff) : ResetBackoff :=
  ⟨b.windowedResetCount + 1, now + 15⟩

def update (now : Int) (b : ResetBackoff) : ResetBackoff :=
  if b.windowedResetCount > 0 ∧ b.decrementAt < now then ⟨b.windowedResetCount - 1, now + 15⟩ else b

/-- **What is meant**: the delay after n resets that were counted. -/
theorem delay_counted (now : Int) (n : Nat) (hn : 4 < n) :
    ((countUnexpectedReset now)^[n] start).delayForUnexpectedReset = ((n : Int) - 4) ^ 2 * 500 := by
  have hcount : ((countUnexpectedReset now)^[n] start).windowedResetCount = n := by
    clear hn
    induction n with
    | zero => rfl
    | succ n ih =>
      rw [Function.iterate_succ_apply', countUnexpectedReset, ih]
      rfl
  rw [delayForUnexpectedReset, hcount, if_pos (by omega)]
  ring

end ResetBackoff

inductive DriverState where
  | initializing
  | initializingWaitingForReset
  | normalOperation
  deriving DecidableEq

/-- Where the protothread of the driver stands. -/
inductive InitPosition where
  /-- After `PT_INIT`. -/
  | begin
  | upgrading
  | resetWait
  /-- In the backoff wait: since when, and for how long it was asked for. -/
  | backoff (since : Nat) (asked : Int)
  /-- In the loop that talks to the NCP. -/
  | exchanges
  /-- Behind `vprocess_init`. -/
  | finished

/-- What the driver reads of the members of its instance; the clock is in milliseconds. -/
structure Driver where
  now : Nat
  resetBackoff : ResetBackoff
  driverState : DriverState
  resetIsExpected : Bool
  ncpState : NcpState
  failureCount : Nat
  failureThreshold : Nat
  position : InitPosition
  controlTime : BitVec 32

/-- How the exchanges with the NCP go; the last one leads to the fault state, which a `TI_WISUN_FAN`
    build does not do. -/
inductive InitExchange where
  | pending
  | failed
  | done
  | fault

/-- What happens to the driver. `update`, `reset` and `control` are the parts of `process`. -/
inductive DriverEvent where
  | elapse (ms : Nat)
  | update
  | reset
  /-- `process_event(EVENT_IDLE)`; no status while a firmware upgrade is in progress. -/
  | control (upgradeStatus : Option Int) (exchange : InitExchange)
  /-- A task expects a reset. -/
  | expectReset
  | changeNcpState (ncpState : NcpState)
  /-- The other callers of `reinitialize_ncp`. -/
  | reinitNcp
  /-- The driver was enabled: `EH_RESTART`. -/
  | restart
  /-- A turn of `process` with `mNCPIsMisbehaving`. -/
  | misbehaving

namespace Driver

variable (d : Driver)

def timeMs : BitVec 32 := BitVec.ofNat 32 d.now

def scheduleNextEvent (ms : Int) : Driver := { d with controlTime := d.timeMs + BitVec.ofInt 32 ms }

def getMsToNextEvent : Int :=
  if d.controlTime ≠ 0 then max 0 (d.controlTime - d.timeMs).toInt else 0x7FFFFFFF

def reinitializeNcp : Driver := { d with position := .begin, ncpState := .uninitialized }

/-- `vprocess_init`, from behind the firmware upgrade up to the first yield. -/
def beginInit : Driver :=
  if d.ncpState = .fault then { d with position := .begin }
  else
    let d := { d with ncpState := .uninitialized, driverState := .initializingWaitingForReset }
    if d.resetIsExpected then { d.scheduleNextEvent 5000 with position := .resetWait }
    else
      let delay := d.resetBackoff.delayForUnexpectedReset
      { d.scheduleNextEvent delay with position := .backoff d.now delay }

/-- The wait for a firmware upgrade. -/
def awaitUpgrade : Option Int → Driver
  | none => { d with position := .upgrading }
  | some status =>
    if status = 0 then d.beginInit
    else
      let d := { d with failureCount := d.failureCount + 1 }
      (if d.failureCount > d.failureThreshold then { d with ncpState := .fault } else d).beginInit

/-- Behind a wait: `unschedule_next_event`. -/
def leaveWait : Driver := { d with position := .exchanges, controlTime := 0 }

def vprocessEvent (upgradeStatus : Option Int) (exchange : InitExchange) : Driver :=
  if d.ncpState = .fault then { d with position := .begin }
  else
    match d.position with
    | .begin => if d.ncpState = .upgrading then d.awaitUpgrade upgradeStatus else d.beginInit
    | .upgrading => d.awaitUpgrade upgradeStatus
    | .resetWait =>
      if !d.resetIsExpected then d.leaveWait
      else if d.getMsToNextEvent = 0 then
        { d.leaveWait with failureCount := d.failureCount + 1, resetIsExpected := false }
      else d
    | .backoff _ _ => if d.getMsToNextEvent = 0 then d.leaveWait else d
    | .exchanges =>
      match exchange with
      | .pending => { d with driverState := .initializing }
      | .failed => { d with driverState := .initializing, failureCount := d.failureCount + 1 }
      | .done =>
        { d with
          failureCount := 0, resetIsExpected := false, driverState := .normalOperation
          position := .finished }
      | .fault => { d with ncpState := .fault, position := .begin }
    | .finished =>
      if d.ncpState = .uninitialized ∨ d.ncpState = .upgrading then { d with position := .begin } else d

/-- `handle_ncp_spinel_value_is`: LAST_STATUS is one of the resets. -/
def valueIsReset : Driver :=
  { (if d.driverState = .normalOperation then d.reinitializeNcp else d) with resetIsExpected := false }

def step : DriverEvent → Driver
  | .elapse ms => { d with now := d.now + ms }
  | .update => { d with resetBackoff := d.resetBackoff.update (d.now / 1000 : Nat) }
  | .reset => d.valueIsReset
  | .control upgradeStatus exchange => d.vprocessEvent upgradeStatus exchange
  | .expectReset => { d with resetIsExpected := true }
  | .changeNcpState ncpState => { d with ncpState }
  | .reinitNcp => d.reinitializeNcp
  | .restart => { d with position := .begin }
  | .misbehaving =>
    let d := { d.reinitializeNcp with failureCount := d.failureCount + 1 }
    if d.failureCount ≥ d.failureThreshold then { d with ncpState := .fault } else d

end Driver

/-! ## 2. Runs -/

/-- An initialization past the backoff wait: the reset that started it, 0 for none, the wait asked for, and
    its length. -/
structure Continuation where
  resets : Nat
  asked : Int
  elapsed : Nat
  deriving DecidableEq

/-- The driver, and what is seen of it: the unexpected resets in a row, each within 15 seconds, the last one,
    which of them started the initialization under way, and what got past the wait. -/
structure Watched where
  driver : Driver
  resets : Nat
  lastReset : Nat
  startedBy : Nat
  continued : List Continuation

namespace Watched

/-- The state of the driver is not set by the constructor. -/
def start (now : Nat) (driverState : DriverState) (resetIsExpected : Bool) (failureThreshold : Nat) :
    Watched :=
  ⟨⟨now, .start, driverState, resetIsExpected, .uninitialized, 0, failureThreshold, .begin, 0⟩, 0, 0, 0, []⟩

def step (w : Watched) (e : DriverEvent) : Watched :=
  let w' := { w with driver := w.driver.step e }
  match e with
  | .reset =>
    if w.driver.driverState = .normalOperation then
      if w.driver.resetIsExpected then { w' with startedBy := 0 }
      else
        let resets := if w.driver.now < w.lastReset + 15000 then w.resets + 1 else 1
        { w' with resets, lastReset := w.driver.now, startedBy := resets }
    else w'
  | .reinitNcp | .restart | .misbehaving => { w' with startedBy := 0 }
  | .control _ _ =>
    match w.driver.position, w'.driver.position with
    | .backoff since asked, .exchanges =>
      { w' with continued := ⟨w.startedBy, asked, w.driver.now - since⟩ :: w.continued }
    | .finished, .begin => { w' with startedBy := 0 }
    | _, _ => w'
  | _ => w'

end Watched

/-! ## 3. The wait -/

namespace Driver

variable {d d' : Driver}

/-- No reset is counted, and no wait is asked for. -/
structure Quiet (d : Driver) : Prop where
  count : d.resetBackoff.windowedResetCount = 0
  asked : ∀ since asked, d.position = .backoff since asked → asked = 0

theorem Quiet.move (h : d.Quiet) (hbackoff : d'.resetBackoff = d.resetBackoff)
    (hposition : d'.position = d.position ∨ ∀ since asked, d'.position ≠ .backoff since asked) : d'.Quiet := by
  refine ⟨hbackoff ▸ h.count, fun since asked hd' => ?_⟩
  rcases hposition with heq | hne
  · exact h.asked since asked (heq ▸ hd')
  · exact absurd hd' (hne since asked)

theorem Quiet.beginInit (h : d.Quiet) : d.beginInit.Quiet := by
  have hdelay : d.resetBackoff.delayForUnexpectedReset = 0 := by
    rw [ResetBackoff.delayForUnexpectedReset, h.count]
    rfl
  unfold Driver.beginInit
  split
  · exact h.move rfl (.inr nofun)
  dsimp only
  split
  · exact h.move rfl (.inr nofun)
  · refine ⟨h.count, fun since asked hd => ?_⟩
    injection hd with _ hasked
    exact hasked.symm.trans hdelay

theorem Quiet.awaitUpgrade (h : d.Quiet) (status : Option Int) : (d.awaitUpgrade status).Quiet := by
  cases status with
  | none => exact h.move rfl (.inr nofun)
  | some status =>
    unfold Driver.awaitUpgrade
    dsimp only
    split
    · exact h.beginInit
    refine Quiet.beginInit ?_
    split
    · exact h.move rfl (.inl rfl)
    · exact h.move rfl (.inl rfl)

theorem Quiet.vprocessEvent (h : d.Quiet) (status : Option Int) (exchange : InitExchange) :
    (d.vprocessEvent status exchange).Quiet := by
  unfold Driver.vprocessEvent
  split
  · exact h.move rfl (.inr nofun)
  split
  · split
    · exact h.awaitUpgrade status
    · exact h.beginInit
  · exact h.awaitUpgrade status
  · split
    · exact h.move rfl (.inr nofun)
    split
    · exact h.move rfl (.inr nofun)
    · exact h
  · split
    · exact h.move rfl (.inr nofun)
    · exact h
  · split
    · exact h.move rfl (.inl rfl)
    · exact h.move rfl (.inl rfl)
    · exact h.move rfl (.inr nofun)
    · exact h.move rfl (.inr nofun)
  · split
    · exact h.move rfl (.inr nofun)
    · exact h

/-- **One event** leaves no reset counted: none of them counts one. -/
theorem Quiet.step (h : d.Quiet) (e : DriverEvent) : (d.step e).Quiet := by
  cases e with
  | elapse ms => exact h.move rfl (.inl rfl)
  | update =>
    have hupdate : d.resetBackoff.update (d.now / 1000 : Nat) = d.resetBackoff :=
      if_neg fun hpos => absurd hpos.1 (by rw [h.count]; decide)
    exact h.move hupdate (.inl rfl)
  | reset =>
    show d.valueIsReset.Quiet
    unfold valueIsReset
    split
    · exact h.move rfl (.inr nofun)
    · exact h.move rfl (.inl rfl)
  | control status exchange => exact h.vprocessEvent status exchange
  | expectReset => exact h.move rfl (.inl rfl)
  | changeNcpState ncpState => exact h.move rfl (.inl rfl)
  | reinitNcp => exact h.move rfl (.inr nofun)
  | restart => exact h.move rfl (.inr nofun)
  | misbehaving =>
    show (if _ then _ else _ : Driver).Quiet
    split
    · exact h.move rfl (.inr nofun)
    · exact h.move rfl (.inr nofun)

end Driver

namespace Watched

/-- Nothing has got past the wait that was asked to wait. -/
structure NeverAsked (w : Watched) : Prop where
  quiet : w.driver.Quiet
  continued : ∀ c ∈ w.continued, c.asked = 0

theorem NeverAsked.step {w : Watched} (h : w.NeverAsked) (e : DriverEvent) : (w.step e).NeverAsked := by
  have hdriver := h.quiet.step e
  have hsame : ∀ resets lastReset startedBy,
      NeverAsked ⟨w.driver.step e, resets, lastReset, startedBy, w.continued⟩ :=
    fun _ _ _ => ⟨hdriver, h.continued⟩
  cases e with
  | reset =>
    unfold Watched.step
    dsimp only
    split
    · split
      · exact hsame _ _ _
      · exact hsame _ _ _
    · exact hsame _ _ _
  | control status exchange =>
    unfold Watched.step
    dsimp only
    split
    · rename_i since asked hposition _
      refine ⟨hdriver, List.forall_mem_cons.mpr ⟨h.quiet.asked since asked hposition, h.continued⟩⟩
    · exact hsame _ _ _
    · exact hsame _ _ _
  | _ => exact hsame _ _ _

/-- **The backoff wait** is never asked for. So an initialization of the n-th reset in a row, n above 4, is
    never past it with less than (n - 4)² half seconds, if and only if none gets past it. -/
theorem backoff_wait_iff (now : Nat) (driverState : DriverState) (resetIsExpected : Bool)
    (failureThreshold : Nat) (es : List DriverEvent) :
    let w := run step (start now driverState resetIsExpected failureThreshold) es
    (∀ c ∈ w.continued, c.asked = 0) ∧
      ((∀ c ∈ w.continued, 4 < c.resets → ((c.resets : Int) - 4) ^ 2 * 500 ≤ c.asked) ↔
        ∀ c ∈ w.continued, c.resets ≤ 4) := by
  intro w
  have hstart : (start now driverState resetIsExpected failureThreshold).NeverAsked := ⟨⟨rfl, nofun⟩, nofun⟩
  have hstep : ∀ w e, NeverAsked w → True → (w.step e).NeverAsked := fun _ e h _ => h.step e
  have hw : w.NeverAsked := run_invariant hstep hstart (along_true _ es)
  refine ⟨hw.continued, forall₂_congr fun c hc =>
    ⟨fun hwait => ?_, fun hfew hmany => absurd hfew (not_le.mpr hmany)⟩⟩
  by_contra hmany
  have hle := hwait (not_le.mp hmany)
  have hpos : 0 < ((c.resets : Int) - 4) ^ 2 := Int.pow_pos (by omega)
  rw [hw.continued c hc] at hle
  omega

/-- The NCP resets itself, is initialized anew in a fifth of a second, and runs for one second. -/
def resetCycle : List DriverEvent :=
  [.update, .reset, .control none .pending, .elapse 10, .update, .control none .pending, .elapse 190,
    .changeNcpState .offline, .control none .done, .elapse 1000]

/-- **The fifth reset in a row** is followed by no wait: the initialization goes on after 10 milliseconds. -/
theorem fifth_reset_not_delayed :
    ⟨5, 0, 10⟩ ∈ (run step (start 1000 .initializing false 3) ([.control none .pending, .elapse 10,
      .control none .pending, .changeNcpState .offline, .control none .done] ++
      resetCycle ++ resetCycle ++ resetCycle ++ resetCycle ++ resetCycle)).continued := by
  decide +kernel

end Watched

end DcuDaemon.Wfantund
