/-
  Which insecure packets commissioning lets through, over whole runs of calls, clock advances, state
  changes and packets in both directions.

  A rejected call has already cleared the rule, and a cleared rule matches every packet. On the way out
  the lookup comes before the cleanup.

  Main results: `insecure_forward_justified`, `outbound_tagged_after_expiry_iff`.
-/
import DcuDaemon.Firewall.NetInterface

namespace DcuDaemon.Firewall

open Lib NcpInstance

/-! ## 1. The commissioning rule -/

theorem applyMask_ten (a : In6Addr) :
    a.applyMask 10 = ⟨[0xFE, 0x80, 0, 0, 0, 0, 0, 0, 0, 0, 0, 0, 0, 0, 0, 0], rfl⟩ ↔ a.isLinkLocal := by
  have hval : (a.applyMask 10).val =
      [a.val.getD 0 0, a.val.getD 1 0 &&& 0xC0, 0, 0, 0, 0, 0, 0, 0, 0, 0, 0, 0, 0, 0, 0] := rfl
  rw [Subtype.ext_iff, hval]
  unfold In6Addr.isLinkLocal
  simp

theorem not_multicast_of_linkLocal {a : In6Addr} (h : a.isLinkLocal) : a.isMulticast = false := by
  unfold In6Addr.isMulticast
  obtain ⟨h0, _⟩ := Bool.and_eq_true_iff.mp h
  rw [beq_iff_eq.mp h0]
  rfl

/-- **What the rule of a call matches**: its protocol (0xFF is every one), its port, a link-local
    destination. -/
theorem startRule_match {t : UInt8} {port : InPort} {p : Packet}
    (h : (startRule t port).matchInbound p) :
    p.isIpv6 ∧ (t = typeAll ∨ p.type = t) ∧ p.destPort = port ∧ p.destAddr.isLinkLocal := by
  obtain ⟨hip, _, htype, hport, _, haddr, _⟩ := (Rule.matchEnds_iff _ _ _ _ _ _).mp h
  refine ⟨hip, ?_, hport rfl, (applyMask_ten _).mp (haddr (show (10 : UInt8) ≠ 0 by decide))⟩
  rcases htype with htype | ⟨htype, _⟩
  · exact .inl htype
  · exact .inr htype.symm

/-! ## 2. What every run keeps -/

/-- An open window is the one of the last accepted call; a closed one tracks nothing. -/
structure WindowInv (w : Window) : Prop where
  last : w.expiration ≠ 0 → w.expiration = w.lastOk.expiration
  closed : w.expiration = 0 → ∀ r, r ∉ w.firewall

theorem active_ne_zero {w : Window} (h : w.Active) : w.expiration ≠ 0 := Nat.ne_of_gt (Nat.zero_lt_of_lt h)

theorem windowInv_start (st : NcpState) (now : Nat) : WindowInv (start st now).window :=
  ⟨fun h => absurd rfl h, fun _ r => StdSet.not_mem_empty r⟩

/-- **Every step keeps it.** -/
theorem windowInv_step {tiWisunFan : Bool} {s : NcpInstance} {e : Event} {w : Window}
    (h : WindowInv s.window) (hs : WindowStep tiWisunFan s e w) : WindowInv w := by
  cases hs with
  | same => exact h
  | tick => exact ⟨h.last, h.closed⟩
  | reject => exact ⟨h.last, h.closed⟩
  | start seconds t port hsec =>
    refine ⟨fun _ => rfl, fun he => ?_⟩
    have he' : s.now + seconds.toNat = 0 := he
    omega
  | stop => exact ⟨fun he => absurd rfl he, fun _ r => StdSet.not_mem_empty r⟩
  | ended => exact ⟨fun he => absurd rfl he, fun _ r => StdSet.not_mem_empty r⟩
  | trackRule p _ ha => exact ⟨h.last, fun he => absurd he (active_ne_zero ha)⟩
  | trackIcmp p _ ha => exact ⟨h.last, fun he => absurd he (active_ne_zero ha)⟩
  | secure type p =>
    exact ⟨h.last, fun he r hr => h.closed he r ((Matcher.mem_erase _ _ r).mp hr).2⟩

/-! ## 3. Insecure packets to the host -/

section Admission

variable (tiWisunFan : Bool)

/-- The packet that a step admits: accepted by the checks on the insecure channel, not because the
    NCP is joining. -/
def admittedBy (s : NcpInstance) : Event → List Packet
  | .hostbound .insecureData p =>
    if !s.joining tiWisunFan && (s.insecureChannel tiWisunFan p).1 then [p] else []
  | _ => []

/-- The instance, and the packets admitted since commissioning was last off by the clock. -/
def observe (off : Nat → Nat → Bool) (x : NcpInstance × List Packet) (e : Event) :
    NcpInstance × List Packet :=
  let s := x.1.step tiWisunFan e
  (s, if off s.window.now s.window.expiration then [] else admittedBy tiWisunFan x.1 e ++ x.2)

/-- Commissioning is off when no window is open. -/
def offByState (_now expiration : Nat) : Bool := expiration == 0

/-- Commissioning is off when no window is open, or the open one is past. -/
def offByClock (now expiration : Nat) : Bool := !decide (now < expiration)

/-- **Why a packet may pass**: before the expiration of the last accepted call, as ICMPv6, traffic of that
    call, or part of an admitted flow. -/
structure Justified (s : NcpInstance) (admitted : List Packet) (p : Packet) : Prop where
  before : s.now < s.lastOk.expiration
  reason : p.type = typeIcmp ∨
    ((s.lastOk.trafficType = typeAll ∨ p.type = s.lastOk.trafficType) ∧
      p.destPort = s.lastOk.trafficPort ∧ p.destAddr.isLinkLocal = true) ∨
    ∃ q ∈ admitted, SameFlow q p

/-- An IPv6 packet from the insecure channel that is forwarded while the NCP is not joining is
    justified. -/
def ForwardJustified (x : NcpInstance × List Packet) (e : Event) : Prop :=
  ∀ p, e = .hostbound .insecureData p → p.isIpv6 = true → x.1.joining tiWisunFan = false →
    (x.1.shouldForwardHostboundFrame tiWisunFan .insecureData p).1 = true → Justified x.1 x.2 p

/-- No call that will be rejected comes while commissioning is on. -/
def NoRejectWhileOn (s : NcpInstance) : Event → Prop
  | .setCommissioniner seconds _ port => seconds > 0 ∧ port = 0 → ¬ s.window.Active
  | _ => True

/-- No window is opened over one that is past and still has tracked flows. -/
def CleanStart (s : NcpInstance) : Event → Prop
  | .setCommissioniner seconds _ port => seconds > 0 ∧ port ≠ 0 →
      s.commissioningExpiration ≠ 0 → s.commissioningExpiration ≤ s.now →
      s.insecureFirewall.size = 0
  | _ => True

instance (s : NcpInstance) : ∀ e, Decidable (NoRejectWhileOn s e)
  | .setCommissioniner _ _ _ => inferInstanceAs (Decidable (_ → _))
  | .tick _ | .changeNcpState _ | .setInitializingNcp _ | .setFlags _ _ _ | .hostbound _ _
  | .ncpbound _ _ => isTrue trivial

instance (s : NcpInstance) : ∀ e, Decidable (CleanStart s e)
  | .setCommissioniner _ _ _ => inferInstanceAs (Decidable (_ → _))
  | .tick _ | .changeNcpState _ | .setInitializingNcp _ | .setFlags _ _ _ | .hostbound _ _
  | .ncpbound _ _ => isTrue trivial

/-- Where the tracked rules come from. -/
structure FlowInv (off : Nat → Nat → Bool) (w : Window) (admitted : List Packet) : Prop where
  window : WindowInv w
  rule : w.Active → w.rule = startRule w.lastOk.trafficType w.lastOk.trafficPort
  flows : off w.now w.expiration = false → ∀ r ∈ w.firewall, r.type = typeIcmp ∨
    ∃ q ∈ admitted, q.isIpv6 = true ∧ q.destAddr.isMulticast = false ∧
      r = (Rule.updateFromInboundPacket q).anySubtype

variable {tiWisunFan} {off : Nat → Nat → Bool} {s : NcpInstance} {admitted : List Packet}

theorem flowInv_start (off : Nat → Nat → Bool) (st : NcpState) (now : Nat) :
    FlowInv off (start st now).window [] :=
  ⟨windowInv_start st now, fun h => absurd rfl (active_ne_zero h),
    fun _ r hr => absurd hr (StdSet.not_mem_empty r)⟩

variable {p : Packet} {w : Window}

theorem mem_admittedBy (hj : s.joining tiWisunFan = false) (ha : s.window.Active)
    (hm : s.commissioningRule.matchInbound p) :
    p ∈ admittedBy tiWisunFan s (.hostbound .insecureData p) := by
  have hkeep : (s.insecureChannel tiWisunFan p).1 := by
    rw [insecureChannel_active tiWisunFan s p hj ha]
    split
    · rfl
    · rfl
  show p ∈ if !s.joining tiWisunFan && (s.insecureChannel tiWisunFan p).1 then [p] else []
  rw [hj, hkeep]
  exact List.mem_singleton_self p

/-- When commissioning is off nothing is asked of the tracked rules. -/
theorem flowInv_of (hwin : WindowInv w)
    (hrule : w.Active → w.rule = startRule w.lastOk.trafficType w.lastOk.trafficPort)
    (hflows : off w.now w.expiration = false → ∀ r ∈ w.firewall, r.type = typeIcmp ∨
      ∃ q ∈ admitted, q.isIpv6 ∧ q.destAddr.isMulticast = false ∧
        r = (Rule.updateFromInboundPacket q).anySubtype) :
    FlowInv off w (if off w.now w.expiration then [] else admitted) := by
  refine ⟨hwin, hrule, fun hoff r hr => ?_⟩
  rw [hoff]
  exact hflows hoff r hr

theorem flowInv_of_closed (hwin : WindowInv w) (he : w.expiration = 0) : FlowInv off w admitted :=
  ⟨hwin, fun ha => absurd he (active_ne_zero ha), fun _ r hr => absurd hr (hwin.closed he r)⟩

/-- **One step**: the tracked rules keep their origin. -/
theorem flowInv_step (hmono : ∀ now d exp, off (now + d) exp = false → off now exp = false)
    {e : Event} (hs : WindowStep tiWisunFan s e w) (h : FlowInv off s.window admitted)
    (hreject : NoRejectWhileOn s e)
    (hstart : ∀ seconds t port, e = .setCommissioniner seconds t port → seconds > 0 → port ≠ 0 →
      off s.now s.commissioningExpiration → ∀ r, r ∉ s.insecureFirewall) :
    FlowInv off w (if off w.now w.expiration then [] else
      admittedBy tiWisunFan s e ++ admitted) := by
  have hwin := windowInv_step h.window hs
  -- what was tracked stays justified by the longer list
  have hold : off s.now s.commissioningExpiration = false → ∀ r ∈ s.insecureFirewall,
      r.type = typeIcmp ∨ ∃ q ∈ admittedBy tiWisunFan s e ++ admitted, q.isIpv6 ∧
        q.destAddr.isMulticast = false ∧ r = (Rule.updateFromInboundPacket q).anySubtype := by
    intro hoff r hr
    rcases h.flows hoff r hr with hi | ⟨q, hq, hrest⟩
    · exact .inl hi
    · exact .inr ⟨q, List.mem_append_right _ hq, hrest⟩
  cases hs with
  | same _ _ => exact flowInv_of hwin h.rule hold
  | tick d =>
    refine flowInv_of hwin (fun ha => h.rule ?_) fun hoff => hold (hmono _ _ _ hoff)
    exact Nat.lt_of_le_of_lt (Nat.le_add_right _ _) ha
  | reject seconds t hsec =>
    exact flowInv_of hwin (fun ha => absurd ha (hreject ⟨hsec, rfl⟩)) hold
  | start seconds t port hsec hp =>
    refine flowInv_of hwin (fun _ => rfl) fun _ r hr => ?_
    cases hbefore : off s.now s.commissioningExpiration with
    | false => exact hold hbefore r hr
    | true => exact absurd hr (hstart seconds t port rfl hsec hp hbefore r)
  | stop _ t port => exact flowInv_of_closed hwin rfl
  | ended => exact flowInv_of_closed hwin rfl
  | trackRule p hj ha hm =>
    refine flowInv_of hwin h.rule fun hoff r hr => ?_
    rcases (Matcher.mem_insert _ _ r).mp hr with rfl | hr
    · have hm' := hm
      rw [show s.commissioningRule = _ from h.rule ha] at hm'
      obtain ⟨hip, _, _, hll⟩ := startRule_match hm'
      exact .inr ⟨p, List.mem_append_left _ (mem_admittedBy hj ha hm), hip,
        not_multicast_of_linkLocal hll, rfl⟩
    · exact hold hoff r hr
  | trackIcmp p hj ha hm ht =>
    refine flowInv_of hwin h.rule fun hoff r hr => ?_
    rcases (Matcher.mem_insert _ _ r).mp hr with rfl | hr
    · exact .inl ht
    · exact hold hoff r hr
  | secure type p ht =>
    refine flowInv_of hwin h.rule fun hoff r hr => ?_
    exact hold hoff r ((Matcher.mem_erase _ _ r).mp hr).2

theorem inbound_type (h : p.isIpv6) : (Rule.updateFromInboundPacket p).type = p.type := by
  unfold Rule.updateFromInboundPacket
  rw [h]
  rfl

/-- **Where the rules keep their origin, what is forwarded is justified.** -/
theorem forwardJustified_of_inv (hon : ∀ now exp, now < exp → off now exp = false)
    (h : FlowInv off s.window admitted) (e : Event) : ForwardJustified tiWisunFan (s, admitted) e := by
  rintro p rfl hip hj hfwd
  rw [(s.hostbound_insecure tiWisunFan p).1] at hfwd
  obtain ⟨hkeep, _⟩ := Bool.and_eq_true_iff.mp hfwd
  by_cases ha : s.window.Active
  · have hlast : s.commissioningExpiration = s.lastOk.expiration := h.window.last (active_ne_zero ha)
    have hbefore : s.now < s.lastOk.expiration := hlast ▸ ha
    refine ⟨hbefore, ?_⟩
    rw [s.insecureChannel_active tiWisunFan p hj ha] at hkeep
    split at hkeep
    · -- a tracked rule: ICMPv6, or the flow of an admitted packet
      rename_i hcount
      rcases h.flows (hon _ _ ha) _ ((Matcher.count_iff _ _).mp hcount) with
        hicmp | ⟨q, hq, hqip, hqu, hrule⟩
      · exact .inl (inbound_type hip ▸ hicmp)
      · have hsame : (Rule.updateFromInboundPacket p).anySubtype =
            (Rule.updateFromInboundPacket q).anySubtype := by
          rw [hrule]
          rfl
        exact .inr (.inr ⟨q, hq, sameFlow_of_rule hqip hip hqu hsame⟩)
    · split at hkeep
      · rename_i hm
        rw [show s.commissioningRule = _ from h.rule ha] at hm
        obtain ⟨_, htype, hport, hll⟩ := startRule_match hm
        exact .inr (.inl ⟨htype, hport, hll⟩)
      · split at hkeep
        · rename_i hicmp
          exact .inl (inbound_type hip ▸ hicmp)
        · cases hkeep
  · rw [(s.insecureChannel_inactive tiWisunFan p hj ha).1] at hkeep
    cases hkeep

/-- **A whole run**, for any reading of "off" that the clock and the expiration decide. -/
theorem forwardJustified_along (hmono : ∀ now d exp, off (now + d) exp = false → off now exp = false)
    (hon : ∀ now exp, now < exp → off now exp = false) {P : NcpInstance × List Packet → Event → Prop}
    (hreject : ∀ x e, P x e → NoRejectWhileOn x.1 e)
    (hstart : ∀ x e, P x e → WindowInv x.1.window → ∀ seconds t port,
      e = .setCommissioniner seconds t port → seconds > 0 → port ≠ 0 →
      off x.1.now x.1.commissioningExpiration → ∀ r, r ∉ x.1.insecureFirewall)
    (es : List Event) (x : NcpInstance × List Packet) (hx : FlowInv off x.1.window x.2)
    (hP : Along (observe tiWisunFan off) P x es) :
    Along (observe tiWisunFan off) (ForwardJustified tiWisunFan) x es := by
  induction es generalizing x with
  | nil => exact trivial
  | cons e es ih =>
    obtain ⟨hp, hps⟩ := hP
    refine ⟨forwardJustified_of_inv hon hx e, ih _ ?_ hps⟩
    exact flowInv_step hmono (windowStep tiWisunFan x.1 e) hx (hreject x e hp) (hstart x e hp hx.window)

end Admission

/-- **Which insecure packets reach the host.** If no call is rejected while commissioning is on, a forwarded
    packet comes before the expiration of the last accepted call and is ICMPv6, traffic of that call, or of a
    flow admitted since no window was open. -/
theorem insecure_forward_justified (tiWisunFan : Bool) (st : NcpState) (now : Nat)
    (events : List Event) :
    (Along (observe tiWisunFan offByState) (fun x e => NoRejectWhileOn x.1 e)
        (NcpInstance.start st now, []) events →
      Along (observe tiWisunFan offByState) (ForwardJustified tiWisunFan)
        (NcpInstance.start st now, []) events) ∧
    (Along (observe tiWisunFan offByClock) (fun x e => NoRejectWhileOn x.1 e ∧ CleanStart x.1 e)
        (NcpInstance.start st now, []) events →
      Along (observe tiWisunFan offByClock) (ForwardJustified tiWisunFan)
        (NcpInstance.start st now, []) events) := by
  refine ⟨fun h => ?_, fun h => ?_⟩
  · refine forwardJustified_along (fun n d exp (hoff : offByState (n + d) exp = false) => hoff)
      (fun n exp hlt => ?_) (fun _ _ h => h)
      (fun x e _ hw _ _ _ _ _ _ hoff => hw.closed (beq_iff_eq.mp hoff)) events _
      (flowInv_start _ st now) h
    exact beq_eq_false_iff_ne.mpr (Nat.ne_of_gt (Nat.zero_lt_of_lt hlt))
  · refine forwardJustified_along (fun n d exp hoff => ?_) (fun n exp hlt => ?_)
      (fun _ _ h => h.1) (fun x e hc hw seconds t port he hs hp hoff => ?_) events _
      (flowInv_start _ st now) h
    · unfold offByClock at hoff ⊢
      simp only [Bool.not_eq_eq_eq_not, Bool.not_false, decide_eq_true_eq] at hoff ⊢
      omega
    · unfold offByClock
      simp [hlt]
    · subst he
      have hle : x.1.commissioningExpiration ≤ x.1.now := by
        unfold offByClock at hoff
        simp only [Bool.not_eq_eq_eq_not, Bool.not_true, decide_eq_false_iff_not] at hoff
        omega
      by_cases hz : x.1.commissioningExpiration = 0
      · exact hw.closed hz
      · exact StdSet.not_mem_of_size (hc.2 ⟨hs, hp⟩ hz hle)

/-- A packet of 44 bytes: protocol, addresses and the first four bytes behind the header. -/
def packet44 (type : UInt8) (src dest : List UInt8) (ports : List UInt8) : Packet :=
  Packet.ofBytes ([0x60, 0, 0, 0, 0, 4, type, 64] ++ src ++ dest ++ ports)

/-- `fe80::last`. -/
def linkLocal (last : UInt8) : List UInt8 := [0xFE, 0x80, 0, 0, 0, 0, 0, 0, 0, 0, 0, 0, 0, 0, 0, last]

/-- `2001:db8::last`. -/
def global (last : UInt8) : List UInt8 := [0x20, 0x01, 0x0D, 0xB8, 0, 0, 0, 0, 0, 0, 0, 0, 0, 0, 0, last]

/-- UDP traffic of a call passes, and so does the next packet of its flow. -/
theorem insecure_forward_udp :
    let p := packet44 17 (linkLocal 2) (linkLocal 1) [0x10, 0x00, 0x16, 0x33]
    let events : List Event := [.setCommissioniner 10 17 0x3316, .hostbound .insecureData p, .tick 5,
      .hostbound .insecureData p]
    Along (observe true offByState) (ForwardJustified true) (start .associated 100, [])
        events ∧
      Along (observe true offByClock) (ForwardJustified true) (start .associated 100, []) events :=
  ⟨(insecure_forward_justified true .associated 100 _).1 (by decide +kernel),
    (insecure_forward_justified true .associated 100 _).2 (by decide +kernel)⟩

/-- **A rejected call opens the firewall.** Commissioning is on for UDP on one port; behind a rejected call a
    TCP packet to a global address passes. -/
theorem rejected_call_opens_firewall :
    let p := packet44 6 (global 2) (global 1) [0x10, 0x00, 0x00, 0x50]
    let calls : List Event := [.setCommissioniner 10 17 0x3316, .setCommissioniner 5 17 0]
    let s := run (step true) (start .associated 100) calls
    (((start .associated 100).step true (.setCommissioniner 10 17 0x3316)).setCommissioniner
        5 17 0).1 = .invalidArgument ∧
      p.length = 44 ∧ p.isIpv6 ∧ s.joining true = false ∧
      (s.shouldForwardHostboundFrame true .insecureData p).1 ∧
      s.lastOk = ⟨110, 17, 0x3316⟩ ∧
      ¬ Along (observe true offByState) (ForwardJustified true)
        (start .associated 100, []) (calls ++ [.hostbound .insecureData p]) ∧
      ¬ Along (observe true offByClock) (ForwardJustified true)
        (start .associated 100, []) (calls ++ [.hostbound .insecureData p]) := by
  intro p calls s
  have hip : p.isIpv6 := by decide +kernel
  have hjoin : s.joining true = false := by decide +kernel
  have hfwd : (s.shouldForwardHostboundFrame true .insecureData p).1 := by decide +kernel
  have hnot : ¬ Justified s [] p := by
    rintro ⟨_, h | ⟨h | h, _⟩ | ⟨q, hq, _⟩⟩
    · exact absurd h (by decide +kernel)
    · exact absurd h (by decide +kernel)
    · exact absurd h (by decide +kernel)
    · cases hq
  exact ⟨by decide +kernel, by decide +kernel, hip, hjoin, hfwd, by decide +kernel,
    fun h => hnot (h.2.2.1 p rfl hip hjoin hfwd), fun h => hnot (h.2.2.1 p rfl hip hjoin hfwd)⟩

/-! ## 4. Outbound packets after the expiration -/

section Expiry

variable (tiWisunFan : Bool)

/-- After the expiration a packet of the normal interface is not tagged insecure, unless the NCP is
    joining. -/
def NotTaggedAfterExpiry (s : NcpInstance) (e : Event) : Prop :=
  ∀ p, e = .ncpbound .data p → s.joining tiWisunFan = false → s.lastOk.expiration < s.now →
    (s.shouldForwardNcpboundFrame tiWisunFan .data p).2.1 ≠ .insecureData

/-- No packet is sent in a flow that is still tracked in a window that is past. -/
def NoLeftoverFlow (s : NcpInstance) (e : Event) : Prop :=
  ∀ p, e = .ncpbound .data p → s.joining tiWisunFan = false → s.commissioningExpiration ≠ 0 →
    s.commissioningExpiration < s.now → s.PassesOutbound p →
    (Rule.updateFromOutboundPacket p).anySubtype ∉ s.insecureFirewall

/-- **One packet.** -/
theorem notTagged_iff_noLeftover {s : NcpInstance} (h : WindowInv s.window) (e : Event) :
    NotTaggedAfterExpiry tiWisunFan s e ↔ NoLeftoverFlow tiWisunFan s e := by
  refine ⟨fun hn p he hj hne hlt hpass hmem => ?_, fun hn p he hj hlt htag => ?_⟩
  · have hlast : s.commissioningExpiration = s.lastOk.expiration := h.last hne
    exact hn p he hj (hlast ▸ hlt)
      ((s.ncpbound_insecure_iff tiWisunFan (by decide) p).mpr ⟨hpass, .inr hmem⟩)
  · obtain ⟨hpass, hwhy⟩ := (s.ncpbound_insecure_iff tiWisunFan (by decide) p).mp htag
    rcases hwhy with hjoin | hmem
    · rw [hj] at hjoin
      cases hjoin
    · -- something is tracked, so the window is still open
      have hne : s.commissioningExpiration ≠ 0 := fun e0 => h.closed e0 _ hmem
      have hlast : s.commissioningExpiration = s.lastOk.expiration := h.last hne
      exact hn p he hj hne (hlast ▸ hlt) hpass hmem

end Expiry

/-- **When outbound packets are tagged after the expiration**: exactly if a packet is sent whose rule is still
    tracked because nothing has noticed the expiration yet. -/
theorem outbound_tagged_after_expiry_iff (tiWisunFan : Bool) (st : NcpState) (now : Nat)
    (events : List Event) : Along (NcpInstance.step tiWisunFan) (NotTaggedAfterExpiry tiWisunFan)
        (NcpInstance.start st now) events ↔
      Along (NcpInstance.step tiWisunFan) (NoLeftoverFlow tiWisunFan)
        (NcpInstance.start st now) events := by
  have hstep : ∀ (s : NcpInstance) (e : Event), WindowInv s.window → True →
      NoLeftoverFlow tiWisunFan s e → WindowInv (s.step tiWisunFan e).window :=
    fun s e hi _ _ => windowInv_step hi (windowStep tiWisunFan s e)
  exact along_iff hstep (fun _ e hi _ => notTagged_iff_noLeftover tiWisunFan hi e)
    (windowInv_start st now) (along_true _ _)

/-- **The reply to a tracked flow is tagged one second after the expiration**; the packet behind it is not. -/
theorem reply_tagged_after_expiry :
    let p := packet44 17 (linkLocal 2) (linkLocal 1) [0x10, 0x00, 0x16, 0x33]
    let q := packet44 17 (linkLocal 1) (linkLocal 2) [0x16, 0x33, 0x10, 0x00]
    let s := run (step true) (start .associated 100)
      [.setCommissioniner 10 17 0x3316, .hostbound .insecureData p, .tick 11]
    s.lastOk.expiration < s.now ∧ s.joining true = false ∧
      (s.shouldForwardNcpboundFrame true .data q).2.1 = .insecureData ∧
      ((s.step true (.ncpbound .data q)).shouldForwardNcpboundFrame true .data q).2.1 = .data := by
  decide +kernel

end DcuDaemon.Firewall
