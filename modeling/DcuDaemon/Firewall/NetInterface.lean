/-
  Commissioning and the packet decisions of the C++ driver
  (`src/wfantund/NCPInstanceBase-NetInterface.cpp`; the state changes of `NCPInstanceBase.cpp`; the
  predicates of `NCPTypes.cpp`).

  Main definition: `NcpInstance.step`.

  The statistics and log calls are left out: they decide nothing.
-/
import DcuDaemon.Firewall.PacketMatcher
import DcuDaemon.Lib.Run

namespace DcuDaemon.Firewall

open Lib

/-! ## 1. States of the NCP -/

inductive NcpState where
  | uninitialized
  | fault
  | upgrading
  | deepSleep
  | offline
  | commissioned
  | associating
  | credentialsNeeded
  | associated
  | isolated
  | netWakeWaking
  | netWakeAsleep
  deriving DecidableEq, Repr

namespace NcpState

/-- `ncp_state_is_sleeping`; always false in a `TI_WISUN_FAN` build. -/
def isSleeping (tiWisunFan : Bool) : NcpState → Bool
  | .deepSleep | .netWakeAsleep => !tiWisunFan
  | _ => false

/-- `ncp_state_is_joining`; always false in a `TI_WISUN_FAN` build. -/
def isJoining (tiWisunFan : Bool) : NcpState → Bool
  | .associating | .credentialsNeeded => !tiWisunFan
  | _ => false

/-- `ncp_state_is_interface_up`. -/
def isInterfaceUp : NcpState → Bool
  | .credentialsNeeded | .associated | .netWakeAsleep => true
  | _ => false

/-- `ncp_state_is_commissioned`. -/
def isCommissioned : NcpState → Bool
  | .commissioned | .associated | .netWakeAsleep | .isolated | .netWakeWaking => true
  | _ => false

/-- `ncp_state_is_detached_from_ncp`. -/
def isDetachedFromNcp : NcpState → Bool
  | .fault | .upgrading => true
  | _ => false

end NcpState

/-! ## 2. The instance -/

inductive FrameType where
  | data
  | insecureData
  | legacyData
  deriving DecidableEq, Repr

/-- What `set_commissioniner` returns. -/
inductive Status where
  | ok
  | invalidArgument
  deriving DecidableEq, Repr

/-- A call of `set_commissioniner` with the expiration it set; 0 when it stopped commissioning. -/
structure Call where
  expiration : Nat
  trafficType : UInt8
  trafficPort : InPort
  deriving DecidableEq, Repr

/-- `NCPInstanceBase`, the part that commissioning and the packet decisions use. -/
structure NcpInstance where
  ncpState : NcpState
  isInitializingNcp : Bool
  autoResume : Bool
  enabled : Bool
  legacyInterfaceEnabled : Bool
  ncpIsMisbehaving : Bool
  /-- `time_get_monotonic()`, in seconds. -/
  now : Nat
  commissioningRule : Rule
  /-- 0 when commissioning is off. -/
  commissioningExpiration : Nat
  insecureFirewall : Matcher
  legacyCommissioningMatcher : Matcher
  /-- History variable, read by no function: the last `set_commissioniner` call that returned Ok. -/
  lastOk : Call

def dropFirewall : Matcher :=
  let group (last : UInt8) : In6Addr := ⟨[0xFF, 0x02, 0, 0, 0, 0, 0, 0, 0, 0, 0, 0, 0, 0, 0, last], rfl⟩
  let routers : Rule :=
    { Rule.clear with type := typeIcmp, remoteAddress := group 0x02, remoteMatchMask := 128 }
  let neighbors : Rule := { Rule.clear with type := typeIcmp }
  StdSet.empty
    |>.insert { Rule.clear with type := typeHopByHop, remoteAddress := group 0x16, remoteMatchMask := 128 }
    |>.insert { routers with subtype := subtypeIcmpRouterAdv }
    |>.insert { routers with subtype := subtypeIcmpRouterSol }
    |>.insert { neighbors with subtype := subtypeIcmpNeighborAdv }
    |>.insert { neighbors with subtype := subtypeIcmpNeighborSol }
    |>.insert { neighbors with subtype := subtypeIcmpRedirect }

/-- `mDropFirewall.match_outbound(ip_packet) != mDropFirewall.end()`. -/
def dropsOutbound (p : Packet) : Bool := dropFirewall.elems.any (·.matchOutbound p)

/-- The rule of commissioning traffic: the given protocol and port, to a link-local address. -/
def startRule (trafficType : UInt8) (trafficPort : InPort) : Rule :=
  { Rule.clear with
    type := trafficType
    localPort := trafficPort
    localPortMatch := true
    localAddress := ⟨[0xFE, 0x80, 0, 0, 0, 0, 0, 0, 0, 0, 0, 0, 0, 0, 0, 0], rfl⟩
    localMatchMask := 10 }

namespace NcpInstance

variable (tiWisunFan : Bool) (s : NcpInstance) (type : FrameType)

def setCommissioniner (seconds : Int) (trafficType : UInt8) (trafficPort : InPort) : Status × NcpInstance :=
  -- the rule is gone even when the call is rejected
  let s := { s with commissioningRule := Rule.clear }
  if seconds > 0 ∧ trafficPort = 0 then (.invalidArgument, s)
  else if seconds > 0 ∧ trafficPort ≠ 0 then
    (.ok, { s with
      commissioningExpiration := s.now + seconds.toNat
      commissioningRule := startRule trafficType trafficPort
      lastOk := ⟨s.now + seconds.toNat, trafficType, trafficPort⟩ })
  else
    (.ok, { s with
      commissioningExpiration := 0
      insecureFirewall := StdSet.empty
      lastOk := ⟨0, trafficType, trafficPort⟩ })

/-- `set_commissioniner(0, 0, 0)`. -/
def stopCommissioning : NcpInstance := (s.setCommissioniner 0 0 0).2

/-- The end of commissioning, as a packet notices it. -/
def endCommissioning : NcpInstance :=
  { s with commissioningExpiration := 0, insecureFirewall := StdSet.empty }

def joining : Bool := s.ncpState.isJoining tiWisunFan

/-- The checks on a packet of the insecure channel: whether it is kept, and what is tracked. -/
def insecureChannel (p : Packet) : Bool × NcpInstance :=
  let rule := Rule.updateFromInboundPacket p
  if s.joining tiWisunFan then (true, s)
  else if s.commissioningExpiration ≠ 0 then
    if s.commissioningExpiration > s.now then
      if s.insecureFirewall.count rule then (true, s)
      else if s.commissioningRule.matchInbound p then
        (true, { s with insecureFirewall := s.insecureFirewall.insert rule.anySubtype })
      else if rule.type = typeIcmp then
        -- inserted with the ICMP type of this packet
        (true, { s with insecureFirewall := s.insecureFirewall.insert rule })
      else (false, s)
    else (false, s.endCommissioning)
  else (false, s)

/-- A packet of a secure channel takes its rule off the insecure firewall. -/
def secureChannel (rule : Rule) : NcpInstance :=
  if s.insecureFirewall.size > 0 ∧ s.insecureFirewall.count rule then
    let s := { s with insecureFirewall := s.insecureFirewall.erase rule }
    if type = .legacyData then
      { s with legacyCommissioningMatcher := s.legacyCommissioningMatcher.insert rule }
    else s
  else s

/-- `should_forward_hostbound_frame`: the decision, the type of the frame, the instance. -/
def shouldForwardHostboundFrame (p : Packet) : Bool × FrameType × NcpInstance :=
  let rule := Rule.updateFromInboundPacket p
  let (keep, s) := match type with
    | .insecureData => s.insecureChannel tiWisunFan p
    | .data => (true, s.secureChannel .data rule)
    | .legacyData => (s.legacyInterfaceEnabled, s.secureChannel .legacyData rule)
  let up := s.ncpState.isInterfaceUp
  let s := if !up && s.ncpState.isSleeping tiWisunFan then { s with ncpIsMisbehaving := true }
    else s
  let type := if type = .legacyData ∧ s.legacyCommissioningMatcher.count rule then .data else type
  (keep && up, type, s)

/-- A connection of the legacy interface stays on the normal one, and is forgotten when seen there. -/
def legacyOutbound (rule : Rule) : FrameType × NcpInstance :=
  if s.legacyCommissioningMatcher.count rule then
    if type = .legacyData then (.data, s)
    else (type, { s with legacyCommissioningMatcher := s.legacyCommissioningMatcher.erase rule })
  else (type, s)

/-- The type an outbound packet is sent with. The lookup comes before the check of the
    expiration. -/
def insecureOutbound (rule : Rule) : FrameType × NcpInstance :=
  let type := if s.insecureFirewall.count rule.anySubtype then .insecureData else type
  if s.joining tiWisunFan then (.insecureData, s)
  else if s.commissioningExpiration ≠ 0 ∧ s.commissioningExpiration < s.now then
    (type, s.endCommissioning)
  else (type, s)

def shouldForwardNcpboundFrame (p : Packet) : Bool × FrameType × NcpInstance :=
  if !s.ncpState.isInterfaceUp then (false, type, s)
  else if !isValidIpv6Packet p then (false, type, s)
  else if dropsOutbound p then (false, type, s)
  else
    let rule := Rule.updateFromOutboundPacket p
    let (type, s) := s.legacyOutbound type rule
    (true, s.insecureOutbound tiWisunFan type rule)

/-- `handle_ncp_state_change`, its effect on commissioning. -/
def handleNcpStateChange (new old : NcpState) : NcpInstance :=
  if !old.isDetachedFromNcp && new.isDetachedFromNcp then s
  else if !old.isInterfaceUp && new.isInterfaceUp then s
  else if old.isInterfaceUp && new = .commissioned && s.autoResume && s.enabled then s
  else if old.isCommissioned && !new.isCommissioned && !new.isJoining tiWisunFan &&
      !new.isSleeping tiWisunFan && new ≠ .uninitialized then
    -- `reset_interface`
    s.stopCommissioning
  else if old = .uninitialized ∧ new = .offline then s.stopCommissioning
  else if old.isInterfaceUp && !new.isInterfaceUp && new ≠ .netWakeWaking then s.stopCommissioning
  else s

def changeNcpState (new : NcpState) : NcpInstance :=
  let old := s.ncpState
  if old = new then s
  -- `is_state_change_valid`: a detached NCP only becomes uninitialized
  else if old.isDetachedFromNcp ∧ new ≠ .uninitialized then s
  else
    let s := { s with ncpState := new }
    if !s.isInitializingNcp || new = .uninitialized || new = .fault || new = .upgrading then
      s.handleNcpStateChange tiWisunFan new old
    else s

def setInitializingNcp (x : Bool) : NcpInstance :=
  if s.isInitializingNcp = x then s
  else
    let s := { s with isInitializingNcp := x }
    if x then s.changeNcpState tiWisunFan .uninitialized
    else if s.ncpState ≠ .uninitialized ∧ s.ncpState ≠ .fault ∧ s.ncpState ≠ .upgrading then
      s.handleNcpStateChange tiWisunFan s.ncpState .uninitialized
    else s

end NcpInstance

/-! ## 3. Runs -/

inductive Event where
  | setCommissioniner (seconds : Int) (trafficType : UInt8) (trafficPort : InPort)
  /-- The clock goes on. -/
  | tick (seconds : Nat)
  | changeNcpState (new : NcpState)
  | setInitializingNcp (x : Bool)
  | setFlags (autoResume enabled legacyInterfaceEnabled : Bool)
  | hostbound (type : FrameType) (p : Packet)
  | ncpbound (type : FrameType) (p : Packet)

def NcpInstance.step (tiWisunFan : Bool) (s : NcpInstance) : Event → NcpInstance
  | .setCommissioniner seconds trafficType trafficPort =>
    (s.setCommissioniner seconds trafficType trafficPort).2
  | .tick seconds => { s with now := s.now + seconds }
  | .changeNcpState new => s.changeNcpState tiWisunFan new
  | .setInitializingNcp x => s.setInitializingNcp tiWisunFan x
  | .setFlags autoResume enabled legacyInterfaceEnabled =>
    { s with autoResume, enabled, legacyInterfaceEnabled }
  | .hostbound type p => (s.shouldForwardHostboundFrame tiWisunFan type p).2.2
  | .ncpbound type p => (s.shouldForwardNcpboundFrame tiWisunFan type p).2.2

def NcpInstance.start (ncpState : NcpState) (now : Nat) : NcpInstance :=
  ⟨ncpState, false, true, true, false, false, now,
    ⟨0, 0, 0, false, .zero, 0, 0, false, .zero, 0⟩, 0, StdSet.empty, StdSet.empty, ⟨0, 0, 0⟩⟩

/-- The part of the instance that commissioning is about. -/
structure Window where
  now : Nat
  rule : Rule
  expiration : Nat
  firewall : Matcher
  lastOk : Call

namespace Window

/-- Commissioning is on: a window is open and not past. -/
def Active (w : Window) : Prop := w.now < w.expiration

instance (w : Window) : Decidable w.Active := inferInstanceAs (Decidable (_ < _))

/-- `set_commissioniner` with nothing to start. -/
def stopped (w : Window) (trafficType : UInt8) (trafficPort : InPort) : Window :=
  ⟨w.now, Rule.clear, 0, StdSet.empty, ⟨0, trafficType, trafficPort⟩⟩

/-- `set_commissioniner` with a window to open. -/
def started (w : Window) (seconds : Nat) (trafficType : UInt8) (trafficPort : InPort) : Window :=
  ⟨w.now, startRule trafficType trafficPort, w.now + seconds, w.firewall,
    ⟨w.now + seconds, trafficType, trafficPort⟩⟩

/-- The cleanup by a packet. -/
def ended (w : Window) : Window := ⟨w.now, w.rule, 0, StdSet.empty, w.lastOk⟩

end Window

namespace NcpInstance

def window (s : NcpInstance) : Window :=
  ⟨s.now, s.commissioningRule, s.commissioningExpiration, s.insecureFirewall, s.lastOk⟩

variable (tiWisunFan : Bool) (s : NcpInstance)

/-- **`set_commissioniner`, its three outcomes.** -/
theorem setCommissioniner_cases (seconds : Int) (t : UInt8) (port : InPort) : (seconds > 0 ∧ port = 0 ∧
        (s.setCommissioniner seconds t port).2.window = { s.window with rule := Rule.clear }) ∨
      (seconds > 0 ∧ port ≠ 0 ∧
        (s.setCommissioniner seconds t port).2.window = s.window.started seconds.toNat t port) ∨
      (¬ seconds > 0 ∧ (s.setCommissioniner seconds t port).2.window = s.window.stopped t port) := by
  unfold setCommissioniner
  dsimp only
  by_cases hs : seconds > 0
  · by_cases hp : port = 0
    · rw [if_pos ⟨hs, hp⟩]
      exact .inl ⟨hs, hp, rfl⟩
    · rw [if_neg fun h => hp h.2, if_pos ⟨hs, hp⟩]
      exact .inr (.inl ⟨hs, hp, rfl⟩)
  · rw [if_neg fun h => hs h.1, if_neg fun h => hs h.1]
    exact .inr (.inr ⟨hs, rfl⟩)

theorem window_handleNcpStateChange (new old : NcpState) :
    (s.handleNcpStateChange tiWisunFan new old).window = s.window ∨
      (s.handleNcpStateChange tiWisunFan new old).window = s.window.stopped 0 0 := by
  unfold handleNcpStateChange
  repeat' split
  all_goals first | exact .inl rfl | exact .inr rfl

/-- **A state change leaves the window or stops commissioning.** -/
theorem window_changeNcpState (new : NcpState) : (s.changeNcpState tiWisunFan new).window = s.window ∨
      (s.changeNcpState tiWisunFan new).window = s.window.stopped 0 0 := by
  unfold changeNcpState
  dsimp only
  split
  · exact .inl rfl
  · split
    · exact .inl rfl
    · split
      · exact window_handleNcpStateChange tiWisunFan { s with ncpState := new } new s.ncpState
      · exact .inl rfl

theorem window_setInitializingNcp (x : Bool) : (s.setInitializingNcp tiWisunFan x).window = s.window ∨
      (s.setInitializingNcp tiWisunFan x).window = s.window.stopped 0 0 := by
  unfold setInitializingNcp
  dsimp only
  split
  · exact .inl rfl
  · split
    · exact window_changeNcpState tiWisunFan { s with isInitializingNcp := x } .uninitialized
    · split
      · exact window_handleNcpStateChange tiWisunFan { s with isInitializingNcp := x } s.ncpState
          .uninitialized
      · exact .inl rfl

/-- **The insecure channel while joining**: everything is kept, nothing is tracked. -/
theorem insecureChannel_joining (p : Packet) (h : s.joining tiWisunFan) :
    s.insecureChannel tiWisunFan p = (true, s) := by
  unfold insecureChannel
  simp [h]

/-- **The insecure channel while commissioning is off**: nothing is kept. -/
theorem insecureChannel_inactive (p : Packet) (hj : s.joining tiWisunFan = false)
    (ha : ¬ s.window.Active) :
    (s.insecureChannel tiWisunFan p).1 = false ∧
      (s.insecureChannel tiWisunFan p).2.window =
        if s.commissioningExpiration = 0 then s.window else s.window.ended := by
  unfold insecureChannel
  simp only [hj, Bool.false_eq_true, if_false]
  by_cases he : s.commissioningExpiration = 0
  · rw [if_neg (fun h => h he), if_pos he]
    exact ⟨rfl, rfl⟩
  · rw [if_pos he, if_neg (show ¬ s.commissioningExpiration > s.now from ha), if_neg he]
    exact ⟨rfl, rfl⟩

/-- **The insecure channel while commissioning is on.** -/
theorem insecureChannel_active (p : Packet) (hj : s.joining tiWisunFan = false)
    (ha : s.window.Active) :
    s.insecureChannel tiWisunFan p =
      if s.insecureFirewall.count (Rule.updateFromInboundPacket p) then (true, s)
      else if s.commissioningRule.matchInbound p then
        (true, { s with insecureFirewall :=
          s.insecureFirewall.insert (Rule.updateFromInboundPacket p).anySubtype })
      else if (Rule.updateFromInboundPacket p).type = typeIcmp then
        (true, { s with insecureFirewall := s.insecureFirewall.insert (Rule.updateFromInboundPacket p) })
      else (false, s) := by
  have hgt : s.commissioningExpiration > s.now := ha
  have hne : s.commissioningExpiration ≠ 0 := Nat.ne_of_gt (Nat.zero_lt_of_lt hgt)
  unfold insecureChannel
  simp only [hj, Bool.false_eq_true, if_false, if_pos hne, if_pos hgt]

theorem hostbound_insecure (p : Packet) : (s.shouldForwardHostboundFrame tiWisunFan .insecureData p).1 =
        ((s.insecureChannel tiWisunFan p).1 && (s.insecureChannel tiWisunFan p).2.ncpState.isInterfaceUp) ∧
      (s.step tiWisunFan (.hostbound .insecureData p)).window =
        (s.insecureChannel tiWisunFan p).2.window := by
  refine ⟨rfl, ?_⟩
  unfold step shouldForwardHostboundFrame
  dsimp only
  split
  · rfl
  · rfl

theorem secureChannel_window (type : FrameType) (rule : Rule) : (s.secureChannel type rule).window =
      { s.window with firewall := s.insecureFirewall.erase rule } := by
  unfold secureChannel
  by_cases h : s.insecureFirewall.size > 0 ∧ s.insecureFirewall.count rule
  · rw [if_pos h]
    split
    · rfl
    · rfl
  · rw [if_neg h]
    have hcount : s.insecureFirewall.count rule = false := by
      cases hc : s.insecureFirewall.count rule with
      | false => rfl
      | true =>
        -- an element is found, so the set is not empty
        refine absurd ⟨?_, hc⟩ h
        obtain ⟨y, hy, _⟩ := List.any_eq_true.mp hc
        exact List.length_pos_of_mem hy
    rw [StdSet.erase_of_not_count hcount]
    rfl

variable {type : FrameType}

/-- **A packet of a secure channel** takes its own rule off the firewall, and does no more. -/
theorem window_hostbound_secure (ht : type ≠ .insecureData) (p : Packet) :
    (s.step tiWisunFan (.hostbound type p)).window = { s.window with
        firewall := s.insecureFirewall.erase (Rule.updateFromInboundPacket p) } := by
  rw [← secureChannel_window s type]
  unfold step shouldForwardHostboundFrame
  cases type with
  | insecureData => exact absurd rfl ht
  | data =>
    dsimp only
    split
    · rfl
    · rfl
  | legacyData =>
    dsimp only
    split
    · rfl
    · rfl

theorem legacyOutbound_keeps (type : FrameType) (rule : Rule) :
    (s.legacyOutbound type rule).2.window = s.window ∧
      (s.legacyOutbound type rule).2.ncpState = s.ncpState := by
  unfold legacyOutbound
  split
  · split
    · exact ⟨rfl, rfl⟩
    · exact ⟨rfl, rfl⟩
  · exact ⟨rfl, rfl⟩

theorem legacyOutbound_type (ht : type ≠ .insecureData) (rule : Rule) :
    (s.legacyOutbound type rule).1 ≠ .insecureData := by
  unfold legacyOutbound
  split
  · split
    · exact fun e => (by cases e)
    · exact ht
  · exact ht

theorem insecureOutbound_window (type : FrameType) (rule : Rule) :
    (s.insecureOutbound tiWisunFan type rule).2.window = s.window ∨
      (s.commissioningExpiration ≠ 0 ∧ s.commissioningExpiration < s.now ∧
        (s.insecureOutbound tiWisunFan type rule).2.window = s.window.ended) := by
  unfold insecureOutbound
  dsimp only
  split
  · exact .inl rfl
  · split
    · rename_i h
      exact .inr ⟨h.1, h.2, rfl⟩
    · exact .inl rfl

theorem insecureOutbound_type (ht : type ≠ .insecureData) (rule : Rule) :
    (s.insecureOutbound tiWisunFan type rule).1 = .insecureData ↔
      s.joining tiWisunFan ∨ rule.anySubtype ∈ s.insecureFirewall := by
  rw [← Matcher.count_iff]
  unfold insecureOutbound
  repeat' split
  all_goals simp_all

/-- **An outbound packet** leaves the window or ends an expired one. -/
theorem window_ncpbound (type : FrameType) (p : Packet) :
    (s.step tiWisunFan (.ncpbound type p)).window = s.window ∨
      (s.commissioningExpiration ≠ 0 ∧ s.commissioningExpiration < s.now ∧
        (s.step tiWisunFan (.ncpbound type p)).window = s.window.ended) := by
  unfold step shouldForwardNcpboundFrame
  dsimp only
  split
  · exact .inl rfl
  · split
    · exact .inl rfl
    · split
      · exact .inl rfl
      · have hl := (s.legacyOutbound_keeps type (Rule.updateFromOutboundPacket p)).1
        have ho := insecureOutbound_window tiWisunFan
          (s.legacyOutbound type (Rule.updateFromOutboundPacket p)).2
          (s.legacyOutbound type (Rule.updateFromOutboundPacket p)).1
          (Rule.updateFromOutboundPacket p)
        rw [hl] at ho
        have he : (s.legacyOutbound type (Rule.updateFromOutboundPacket p)).2.commissioningExpiration =
            s.commissioningExpiration := congrArg Window.expiration hl
        have hn : (s.legacyOutbound type (Rule.updateFromOutboundPacket p)).2.now = s.now :=
          congrArg Window.now hl
        rw [he, hn] at ho
        exact ho

/-- An outbound packet gets past the checks in front of the lookups. -/
def PassesOutbound (p : Packet) : Prop :=
  s.ncpState.isInterfaceUp = true ∧ isValidIpv6Packet p = true ∧ dropsOutbound p = false

/-- **When an outbound packet is tagged insecure**; the expiration plays no part. -/
theorem ncpbound_insecure_iff (ht : type ≠ .insecureData) (p : Packet) :
    (s.shouldForwardNcpboundFrame tiWisunFan type p).2.1 = .insecureData ↔
      s.PassesOutbound p ∧ (s.joining tiWisunFan ∨
        (Rule.updateFromOutboundPacket p).anySubtype ∈ s.insecureFirewall) := by
  unfold shouldForwardNcpboundFrame PassesOutbound
  cases hup : s.ncpState.isInterfaceUp with
  | false => simp [ht]
  | true =>
    cases hv : isValidIpv6Packet p with
    | false => simp [ht]
    | true =>
      cases hd : dropsOutbound p with
      | true => simp [ht]
      | false =>
        obtain ⟨hw, hs⟩ := s.legacyOutbound_keeps type (Rule.updateFromOutboundPacket p)
        have ht' := s.legacyOutbound_type ht (Rule.updateFromOutboundPacket p)
        have ho := insecureOutbound_type tiWisunFan
          (s.legacyOutbound type (Rule.updateFromOutboundPacket p)).2 ht'
          (Rule.updateFromOutboundPacket p)
        have hf : (s.legacyOutbound type (Rule.updateFromOutboundPacket p)).2.insecureFirewall =
            s.insecureFirewall := congrArg Window.firewall hw
        unfold joining at ho ⊢
        rw [hf, hs] at ho
        simpa using ho

end NcpInstance

/-! ## 4. What a step can do -/

inductive WindowStep (tiWisunFan : Bool) (s : NcpInstance) : Event → Window → Prop where
  | same (e : Event) (h : ∀ type p, e = .hostbound type p → type = .insecureData) :
      WindowStep tiWisunFan s e s.window
  | tick (seconds : Nat) : WindowStep tiWisunFan s (.tick seconds) { s.window with now := s.now + seconds }
  | reject (seconds : Int) (t : UInt8) (h : seconds > 0) :
      WindowStep tiWisunFan s (.setCommissioniner seconds t 0) { s.window with rule := Rule.clear }
  | start (seconds : Int) (t : UInt8) (port : InPort) (h : seconds > 0) (hp : port ≠ 0) :
      WindowStep tiWisunFan s (.setCommissioniner seconds t port) (s.window.started seconds.toNat t port)
  | stop (e : Event) (t : UInt8) (port : InPort) (h : ∀ type p, e ≠ .hostbound type p) :
      WindowStep tiWisunFan s e (s.window.stopped t port)
  | ended (e : Event) (he : s.commissioningExpiration ≠ 0)
      (hle : s.commissioningExpiration ≤ s.now)
      (h : ∀ type p, e = .hostbound type p → type = .insecureData) :
      WindowStep tiWisunFan s e s.window.ended
  /-- A packet that the commissioning rule matches. -/
  | trackRule (p : Packet) (hj : s.joining tiWisunFan = false) (ha : s.window.Active)
      (hm : s.commissioningRule.matchInbound p = true) :
      WindowStep tiWisunFan s (.hostbound .insecureData p)
        { s.window with firewall := s.insecureFirewall.insert (Rule.updateFromInboundPacket p).anySubtype }
  /-- An ICMPv6 packet that it does not match. -/
  | trackIcmp (p : Packet) (hj : s.joining tiWisunFan = false) (ha : s.window.Active)
      (hm : s.commissioningRule.matchInbound p = false)
      (ht : (Rule.updateFromInboundPacket p).type = typeIcmp) :
      WindowStep tiWisunFan s (.hostbound .insecureData p)
        { s.window with firewall := s.insecureFirewall.insert (Rule.updateFromInboundPacket p) }
  | secure (type : FrameType) (p : Packet) (ht : type ≠ .insecureData) :
      WindowStep tiWisunFan s (.hostbound type p)
        { s.window with firewall := s.insecureFirewall.erase (Rule.updateFromInboundPacket p) }

section WindowStep

variable (tiWisunFan : Bool) (s : NcpInstance)

theorem windowStep_insecure (p : Packet) : WindowStep tiWisunFan s (.hostbound .insecureData p)
      (s.insecureChannel tiWisunFan p).2.window := by
  have honly : ∀ type q, Event.hostbound .insecureData p = .hostbound type q → type = .insecureData := by
    intro type q e
    cases e
    rfl
  cases hj : s.joining tiWisunFan with
  | true =>
    rw [NcpInstance.insecureChannel_joining tiWisunFan s p hj]
    exact .same _ honly
  | false =>
    by_cases ha : s.window.Active
    · rw [NcpInstance.insecureChannel_active tiWisunFan s p hj ha]
      split
      · exact .same _ honly
      · split
        · exact .trackRule p hj ha ‹_›
        · split
          · exact .trackIcmp p hj ha (Bool.eq_false_iff.mpr ‹_›) ‹_›
          · exact .same _ honly
    · rw [(NcpInstance.insecureChannel_inactive tiWisunFan s p hj ha).2]
      split
      · exact .same _ honly
      · exact .ended _ ‹_› (Nat.le_of_not_lt ha) honly

/-- **Every step is one of these.** -/
theorem windowStep (e : Event) : WindowStep tiWisunFan s e (s.step tiWisunFan e).window := by
  cases e with
  | setCommissioniner seconds t port =>
    rcases s.setCommissioniner_cases seconds t port with ⟨hs, rfl, e⟩ | ⟨hs, hp, e⟩ | ⟨_, e⟩
    · show WindowStep _ _ _ (s.setCommissioniner seconds t 0).2.window
      rw [e]
      exact .reject seconds t hs
    · show WindowStep _ _ _ (s.setCommissioniner seconds t port).2.window
      rw [e]
      exact .start seconds t port hs hp
    · show WindowStep _ _ _ (s.setCommissioniner seconds t port).2.window
      rw [e]
      exact .stop _ t port fun _ _ h => (by cases h)
  | tick seconds => exact .tick seconds
  | changeNcpState new =>
    show WindowStep _ _ _ (s.changeNcpState tiWisunFan new).window
    rcases s.window_changeNcpState tiWisunFan new with e | e
    · rw [e]
      exact .same _ fun _ _ h => (by cases h)
    · rw [e]
      exact .stop _ 0 0 fun _ _ h => (by cases h)
  | setInitializingNcp x =>
    show WindowStep _ _ _ (s.setInitializingNcp tiWisunFan x).window
    rcases s.window_setInitializingNcp tiWisunFan x with e | e
    · rw [e]
      exact .same _ fun _ _ h => (by cases h)
    · rw [e]
      exact .stop _ 0 0 fun _ _ h => (by cases h)
  | setFlags a b c => exact .same _ fun _ _ h => (by cases h)
  | hostbound type p =>
    by_cases ht : type = .insecureData
    · subst ht
      rw [(s.hostbound_insecure tiWisunFan p).2]
      exact windowStep_insecure tiWisunFan s p
    · rw [s.window_hostbound_secure tiWisunFan ht p]
      exact .secure type p ht
  | ncpbound type p =>
    rcases s.window_ncpbound tiWisunFan type p with e | ⟨he, hlt, e⟩
    · rw [e]
      exact .same _ fun _ _ h => (by cases h)
    · rw [e]
      exact .ended _ he (Nat.le_of_lt hlt) fun _ _ h => (by cases h)

end WindowStep

end DcuDaemon.Firewall
