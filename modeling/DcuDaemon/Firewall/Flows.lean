/-
  On which channel the packets of a flow leave: the rule that an inbound packet stores and the rule that
  an outbound packet is looked up under, over whole runs.

  Main results: `replies_tagged_iff`, `untagged_after_secure`.
-/
import DcuDaemon.Firewall.Commissioning

namespace DcuDaemon.Firewall

open Lib NcpInstance Rule

/-! ## 1. The rule of a flow -/

section FlowRule

variable {p q : Packet}

/-- The rule that the outbound packets of a flow are looked up under. -/
def flowRule (p : Packet) : Rule := (Rule.updateFromInboundPacket p).anySubtype

theorem inbound_eq_flowRule (hip : p.isIpv6) (h : packetSubtype p = subtypeAll) :
    updateFromInboundPacket p = flowRule p := by
  unfold flowRule updateFromInboundPacket anySubtype
  rw [hip, h]
  rfl

theorem inbound_ne_flowRule (hip : q.isIpv6) (h : packetSubtype q ≠ subtypeAll) :
    flowRule p ≠ updateFromInboundPacket q := by
  intro e
  have hsub : (updateFromInboundPacket q).subtype = subtypeAll := (congrArg subtype e).symm
  unfold updateFromInboundPacket at hsub
  rw [hip] at hsub
  exact h hsub

/-- **Packets of one rule are of one flow.** -/
theorem sameFlow_of_flowRule (hp : p.isIpv6) (hu : p.destAddr.isMulticast = false)
    (ht : p.type ≠ typeAll) (hrule : flowRule q = flowRule p) : q.isIpv6 ∧ SameFlow p q := by
  have hqip : q.isIpv6 := by
    cases hip : q.isIpv6 with
    | true => rfl
    | false =>
      -- the rule of anything else is the cleared one, of every type
      have htype : (flowRule q).type = typeAll := by
        unfold flowRule updateFromInboundPacket
        rw [hip]
        rfl
      rw [hrule] at htype
      exact absurd ((inbound_type hp).symm.trans htype) ht
  exact ⟨hqip, sameFlow_of_rule hp hqip hu hrule⟩

end FlowRule

/-! ## 2. Replies -/

section Replies

variable (tiWisunFan : Bool)

/-- Commissioning is on, and no secure packet of the flow of `p` comes. -/
def Undisturbed (p : Packet) (s : NcpInstance) (e : Event) : Prop :=
  s.window.Active ∧ ∀ type q, e = .hostbound type q → type ≠ .insecureData → q.isIpv6 = true →
    ¬ SameFlow p q

/-- **The replies to `p` leave on the channel it came from**, as long as commissioning stays on and no secure
    packet of the flow comes. -/
def RepliesTagged (s : NcpInstance) (p : Packet) : Prop :=
  ∀ events q, Reply p q →
    let s₁ := s.step tiWisunFan (.hostbound .insecureData p)
    let s₂ := run (NcpInstance.step tiWisunFan) s₁ events
    Along (NcpInstance.step tiWisunFan) (Undisturbed p) s₁ events → s₂.window.Active →
      s₂.PassesOutbound q → (s₂.shouldForwardNcpboundFrame tiWisunFan .data q).2.1 = .insecureData

/-- The flow of `p` is tracked for every subtype once `p` is admitted. -/
def TrackedForReplies (s : NcpInstance) (p : Packet) : Prop :=
  p.type ≠ typeIcmp ∨ p.icmpSubtype = subtypeAll ∨ flowRule p ∈ s.insecureFirewall ∨
    (Rule.updateFromInboundPacket p ∉ s.insecureFirewall ∧ s.commissioningRule.matchInbound p = true)

variable {tiWisunFan} {s : NcpInstance} {p : Packet}

/-- **One step** keeps a tracked flow, when commissioning is on behind it. -/
theorem tracked_step (hp : p.isIpv6) (hu : p.destAddr.isMulticast = false)
    (ht : p.type ≠ typeAll) {e : Event} {w : Window} (hs : WindowStep tiWisunFan s e w)
    (hd : Undisturbed p s e) (hw : w.Active) (h : flowRule p ∈ s.insecureFirewall) :
    flowRule p ∈ w.firewall := by
  cases hs with
  | same => exact h
  | tick => exact h
  | reject => exact h
  | start => exact h
  | stop => exact absurd rfl (active_ne_zero hw)
  | ended => exact absurd rfl (active_ne_zero hw)
  | trackRule q => exact (Matcher.mem_insert _ _ _).mpr (.inr h)
  | trackIcmp q => exact (Matcher.mem_insert _ _ _).mpr (.inr h)
  | secure type q htype =>
    refine (Matcher.mem_erase _ _ _).mpr ⟨fun e => ?_, h⟩
    have hrule : flowRule q = flowRule p := (congrArg anySubtype e).symm
    obtain ⟨hq, hflow⟩ := sameFlow_of_flowRule hp hu ht hrule
    exact hd.2 type q rfl htype hq hflow

/-- **A whole run** keeps it. -/
theorem tracked_along (hp : p.isIpv6) (hu : p.destAddr.isMulticast = false)
    (ht : p.type ≠ typeAll) (events : List Event) (s : NcpInstance)
    (h : flowRule p ∈ s.insecureFirewall) (hd : Along (step tiWisunFan) (Undisturbed p) s events)
    (hw : (run (step tiWisunFan) s events).window.Active) :
    flowRule p ∈ (run (step tiWisunFan) s events).insecureFirewall := by
  induction events generalizing s with
  | nil => exact h
  | cons e events ih =>
    obtain ⟨he, hrest⟩ := hd
    refine ih _ (tracked_step hp hu ht (windowStep tiWisunFan s e) he ?_ h) hrest hw
    -- commissioning is on at the next step, or this was the last one
    cases events with
    | nil => exact hw
    | cons e' events => exact hrest.1.1

/-- **What is tracked once a packet is admitted**: its rule, for every subtype when the
    commissioning rule matches it. -/
theorem mem_firewall_admitted (hj : s.joining tiWisunFan = false) (ha : s.window.Active)
    (hkeep : (s.insecureChannel tiWisunFan p).1) (r : Rule) :
    r ∈ (s.step tiWisunFan (.hostbound .insecureData p)).insecureFirewall ↔
      r ∈ s.insecureFirewall ∨ (updateFromInboundPacket p ∉ s.insecureFirewall ∧
        r = if s.commissioningRule.matchInbound p then flowRule p
          else updateFromInboundPacket p) := by
  have hw : (s.step tiWisunFan (.hostbound .insecureData p)).insecureFirewall =
      (s.insecureChannel tiWisunFan p).2.insecureFirewall :=
    congrArg Window.firewall (s.hostbound_insecure tiWisunFan p).2
  rw [hw]
  rw [s.insecureChannel_active tiWisunFan p hj ha] at hkeep ⊢
  by_cases hmem : s.insecureFirewall.count (updateFromInboundPacket p)
  · have hmem' := (Matcher.count_iff _ _).mp hmem
    rw [if_pos hmem]
    exact ⟨.inl, fun h => h.elim id fun h => absurd hmem' h.1⟩
  · have hmem' := fun h => hmem ((Matcher.count_iff _ _).mpr h)
    rw [if_neg hmem] at hkeep ⊢
    by_cases hm : s.commissioningRule.matchInbound p
    · rw [if_pos hm, if_pos hm, Matcher.mem_insert]
      exact or_comm.trans (or_congr_right ⟨fun h => ⟨hmem', h⟩, fun h => h.2⟩)
    · rw [if_neg hm] at hkeep ⊢
      split
      · rw [Matcher.mem_insert]
        exact or_comm.trans (or_congr_right ⟨fun h => ⟨hmem', h⟩, fun h => h.2⟩)
      · rename_i hicmp
        rw [if_neg hicmp] at hkeep
        cases hkeep

/-- **Which admitted packets have their flow tracked.** -/
theorem tracked_iff (hp : p.isIpv6) (hj : s.joining tiWisunFan = false)
    (ha : s.window.Active) (hkeep : (s.insecureChannel tiWisunFan p).1) :
    flowRule p ∈ (s.step tiWisunFan (.hostbound .insecureData p)).insecureFirewall ↔
      TrackedForReplies s p := by
  rw [mem_firewall_admitted hj ha hkeep]
  unfold TrackedForReplies
  by_cases hicmp : p.type = typeIcmp ∧ p.icmpSubtype ≠ subtypeAll
  · have hsub : packetSubtype p ≠ subtypeAll := by
      unfold packetSubtype
      rw [if_pos hicmp.1]
      exact hicmp.2
    have hne := inbound_ne_flowRule (p := p) hp hsub
    by_cases hm : s.commissioningRule.matchInbound p
    · simp [hicmp, hm]
    · simp [hicmp, hne]
  · have hall : packetSubtype p = subtypeAll := by
      unfold packetSubtype
      split
      · exact not_not.mp fun h => hicmp ⟨‹_›, h⟩
      · rfl
    rw [inbound_eq_flowRule hp hall, ite_self]
    refine ⟨fun _ => ?_, fun _ => ?_⟩
    · by_cases ht : p.type = typeIcmp
      · exact .inr (.inl (not_not.mp fun h => hicmp ⟨ht, h⟩))
      · exact .inl ht
    · by_cases hmem : flowRule p ∈ s.insecureFirewall
      · exact .inl hmem
      · exact .inr ⟨hmem, rfl⟩

theorem repliesTagged_of_tracked (hp : p.isIpv6) (hu : p.destAddr.isMulticast = false)
    (ht : p.type ≠ typeAll)
    (h : flowRule p ∈ (s.step tiWisunFan (.hostbound .insecureData p)).insecureFirewall) :
    RepliesTagged tiWisunFan s p := by
  intro events q hreply s₁ s₂ hd hw hpass
  have hq : q.isIpv6 := (Bool.and_eq_true_iff.mp hpass.2.1).2
  have hmem : flowRule p ∈ s₂.insecureFirewall := tracked_along hp hu ht events s₁ h hd hw
  refine (s₂.ncpbound_insecure_iff tiWisunFan (by decide) q).mpr ⟨hpass, .inr ?_⟩
  rw [outbound_of_reply hp hq hu hreply]
  exact hmem

end Replies

/-! ## 3. A reply that is not found -/

section Lost

/-- An ICMPv6 echo reply to `p`. -/
def echoReply (p : Packet) : Packet where
  byte i :=
    if i < 8 then [0x60, 0, 0, 0, 0, 4, typeIcmp, 64].getD i 0
    else if i < 24 then p.byte (i + 16)
    else if i < 40 then p.byte (i - 16)
    else if i = 40 then 129
    else 0
  length := 44

variable {p : Packet}

theorem address_congr {q : Packet} {i j : Nat}
    (h : ∀ k < 16, p.byte (i + k) = q.byte (j + k)) : p.address i = q.address j :=
  Subtype.ext (List.map_congr_left fun k hk => h k (List.mem_range.mp hk))

theorem echoReply_reply (h : p.type = typeIcmp) : Reply p (echoReply p) := by
  have hports : ¬ hasPorts p.type := by
    rw [h]
    decide
  refine ⟨h.symm, ?_, ?_, fun hp => absurd hp hports, fun hp => absurd hp hports⟩
  · refine address_congr fun i hi => ?_
    show (if 8 + i < 8 then _ else _) = p.byte (24 + i)
    rw [if_neg (by omega), if_pos (by omega)]
    exact congrArg p.byte (by omega)
  · refine address_congr fun i hi => ?_
    show (if 24 + i < 8 then _ else _) = p.byte (8 + i)
    rw [if_neg (by omega), if_neg (by omega), if_pos (by omega)]
    exact congrArg p.byte (by omega)

theorem echoReply_isIpv6 (p : Packet) : (echoReply p).isIpv6 := by
  have hbyte : (echoReply p).byte 0 = 0x60 := rfl
  unfold Packet.isIpv6
  rw [hbyte]
  decide

theorem echoReply_not_dropped (p : Packet) : dropsOutbound (echoReply p) = false := by
  have hrules : ∀ r ∈ dropFirewall.elems, r.type ≠ typeAll ∧
      ¬ (r.type = typeIcmp ∧ (r.subtype = subtypeAll ∨ r.subtype = 129)) := by
    decide +kernel
  unfold dropsOutbound
  rw [List.any_eq_false]
  intro r hr hmatch
  obtain ⟨_, _, htype | htype, _⟩ := (matchEnds_iff _ _ _ _ _ _).mp hmatch
  · exact (hrules r hr).1 htype
  · exact (hrules r hr).2 htype

variable (tiWisunFan : Bool) {s : NcpInstance}

theorem changeNcpState_associated (hd : s.ncpState.isDetachedFromNcp = false)
    (hup : s.ncpState.isInterfaceUp = false) :
    (s.changeNcpState tiWisunFan .associated).window = s.window ∧
      (s.changeNcpState tiWisunFan .associated).ncpState = .associated := by
  have hne : s.ncpState ≠ .associated := fun e => by rw [e] at hup; cases hup
  have hup' : NcpState.isInterfaceUp .associated := rfl
  unfold changeNcpState handleNcpStateChange
  simp only [if_neg hne, hd, hup, hup', Bool.false_eq_true, false_and, if_false, Bool.not_false, Bool.and_self, if_true, ite_self, and_true]
  rfl

theorem changeNcpState_attach (hd : s.ncpState.isDetachedFromNcp) :
    (s.changeNcpState tiWisunFan .uninitialized).window = s.window ∧
      (s.changeNcpState tiWisunFan .uninitialized).ncpState = .uninitialized := by
  have hst : s.ncpState = .fault ∨ s.ncpState = .upgrading := by
    cases hs : s.ncpState with
    | fault => exact .inl rfl
    | upgrading => exact .inr rfl
    | _ => rw [hs] at hd; cases hd
  unfold changeNcpState handleNcpStateChange
  rcases hst with e | e
  · simp [e, NcpState.isInterfaceUp, window]
  · simp [e, NcpState.isInterfaceUp, window]

/-- **The interface can come up without commissioning being touched.** -/
theorem exists_route_up (p : Packet) (hj : s.joining tiWisunFan = false) (ha : s.window.Active) :
    ∃ events, Along (step tiWisunFan) (Undisturbed p) s events ∧
      (run (step tiWisunFan) s events).window = s.window ∧
      (run (step tiWisunFan) s events).ncpState.isInterfaceUp ∧
      (run (step tiWisunFan) s events).joining tiWisunFan = false := by
  have hstate (s' : NcpInstance) (new : NcpState) (h : s'.window.Active) :
      Undisturbed p s' (.changeNcpState new) :=
    ⟨h, fun _ _ e => by cases e⟩
  have hassoc (s' : NcpInstance) (hw : s'.window = s.window)
      (hd : s'.ncpState.isDetachedFromNcp = false) (hup : s'.ncpState.isInterfaceUp = false) :
      (s'.changeNcpState tiWisunFan .associated).window = s.window ∧
        (s'.changeNcpState tiWisunFan .associated).ncpState.isInterfaceUp ∧
        (s'.changeNcpState tiWisunFan .associated).joining tiWisunFan = false := by
    obtain ⟨hw', hst⟩ := changeNcpState_associated tiWisunFan hd hup
    refine ⟨hw'.trans hw, ?_, ?_⟩
    · rw [hst]
      rfl
    · unfold joining
      rw [hst]
      rfl
  cases hup : s.ncpState.isInterfaceUp with
  | true => exact ⟨[], trivial, rfl, hup, hj⟩
  | false =>
    cases hd : s.ncpState.isDetachedFromNcp with
    | false =>
      exact ⟨[.changeNcpState .associated], ⟨hstate s _ ha, trivial⟩, hassoc s rfl hd hup⟩
    | true =>
      obtain ⟨hw, hst⟩ := changeNcpState_attach tiWisunFan hd
      refine ⟨[.changeNcpState .uninitialized, .changeNcpState .associated],
        ⟨hstate s _ ha, hstate _ _ (hw.symm ▸ ha), trivial⟩, hassoc _ hw ?_ ?_⟩
      · exact congrArg NcpState.isDetachedFromNcp hst
      · exact congrArg NcpState.isInterfaceUp hst

theorem ncpState_hostbound_insecure (s : NcpInstance) (p : Packet) :
    (s.step tiWisunFan (.hostbound .insecureData p)).ncpState = s.ncpState := by
  have hchannel : (s.insecureChannel tiWisunFan p).2.ncpState = s.ncpState := by
    unfold insecureChannel
    dsimp only
    repeat' split
    all_goals rfl
  rw [← hchannel]
  unfold step shouldForwardHostboundFrame
  dsimp only
  split
  · rfl
  · rfl

/-- A packet does not touch the clock and, when it is admitted, not the expiration. -/
theorem active_admitted (hj : s.joining tiWisunFan = false) (ha : s.window.Active) :
    (s.step tiWisunFan (.hostbound .insecureData p)).window.Active := by
  rw [(s.hostbound_insecure tiWisunFan p).2, s.insecureChannel_active tiWisunFan p hj ha]
  repeat' split
  all_goals exact ha

/-- **A flow that is not tracked for every subtype loses a reply.** -/
theorem not_repliesTagged (hp : p.isIpv6) (hu : p.destAddr.isMulticast = false) (ht : p.type = typeIcmp)
    (hj : s.joining tiWisunFan = false) (ha : s.window.Active)
    (h : flowRule p ∉ (s.step tiWisunFan (.hostbound .insecureData p)).insecureFirewall) :
    ¬ RepliesTagged tiWisunFan s p := by
  intro hall
  have hj₁ : (s.step tiWisunFan (.hostbound .insecureData p)).joining tiWisunFan = false := by
    unfold joining
    rw [ncpState_hostbound_insecure]
    exact hj
  have ha₁ := active_admitted tiWisunFan (p := p) hj ha
  obtain ⟨events, hd, hw, hup, hj₂⟩ := exists_route_up tiWisunFan p hj₁ ha₁
  have hreply := echoReply_reply ht
  have htag := hall events (echoReply p) hreply hd (hw.symm ▸ ha₁)
    ⟨hup, echoReply_isIpv6 p, echoReply_not_dropped p⟩
  obtain ⟨_, hjoin | hmem⟩ := (ncpbound_insecure_iff tiWisunFan _ (by decide) _).mp htag
  · rw [hj₂] at hjoin
    cases hjoin
  · rw [outbound_of_reply hp (echoReply_isIpv6 p) hu hreply] at hmem
    have hmem' : flowRule p ∈ (run (step tiWisunFan) _ events).window.firewall := hmem
    rw [hw] at hmem'
    exact h hmem'

end Lost

/-- **When the replies to an admitted packet leave as insecure**: if it is TCP or UDP, or ICMPv6 of the type
    that stands for every subtype, or its flow was tracked for every subtype before, or it is new and the
    commissioning rule matches it. -/
theorem replies_tagged_iff (tiWisunFan : Bool) (s : NcpInstance) (p : Packet)
    (hp : p.isIpv6 = true) (htype : Rule.hasPorts p.type = true ∨ p.type = typeIcmp)
    (hu : p.destAddr.isMulticast = false) (hj : s.joining tiWisunFan = false)
    (ha : s.window.Active) (hkeep : (s.insecureChannel tiWisunFan p).1 = true) :
    RepliesTagged tiWisunFan s p ↔ TrackedForReplies s p := by
  have hall : p.type ≠ typeAll := by
    intro e
    rw [e] at htype
    exact absurd htype (by decide)
  rw [← tracked_iff hp hj ha hkeep]
  refine ⟨fun h => ?_, repliesTagged_of_tracked hp hu hall⟩
  by_contra hnot
  have hicmp : p.type = typeIcmp := by
    by_contra hne
    exact hnot ((tracked_iff hp hj ha hkeep).mpr (.inl hne))
  exact not_repliesTagged tiWisunFan hp hu hicmp hj ha hnot h

/-- The replies to UDP traffic of a call leave as insecure. -/
theorem replies_tagged_udp :
    let p := packet44 17 (linkLocal 2) (linkLocal 1) [0x10, 0x00, 0x16, 0x33]
    let s := run (step true) (start .associated 100) [.setCommissioniner 10 17 0x3316]
    RepliesTagged true s p :=
  (replies_tagged_iff true _ _ (by decide +kernel) (by decide +kernel) (by decide +kernel)
    (by decide +kernel) (by decide +kernel) (by decide +kernel)).mpr (.inl (by decide +kernel))

/-- **The reply to a ping does not go back where it came from**: the echo request is tracked with its own
    type. -/
theorem echo_reply_untagged :
    let p := packet44 58 (linkLocal 2) (linkLocal 1) [128, 0, 0, 0]
    let q := packet44 58 (linkLocal 1) (linkLocal 2) [129, 0, 0, 0]
    let s := run (step true) (start .associated 100) [.setCommissioniner 10 17 0x3316]
    let s₁ := s.step true (.hostbound .insecureData p)
    p.isIpv6 ∧ p.srcAddr.isMulticast = false ∧ p.destAddr.isMulticast = false ∧
      s.joining true = false ∧ s.window.Active ∧
      (s.shouldForwardHostboundFrame true .insecureData p).1 ∧
      s₁.window.Active ∧ q.type = p.type ∧ q.srcAddr = p.destAddr ∧ q.destAddr = p.srcAddr ∧
      dropsOutbound q = false ∧
      (s₁.shouldForwardNcpboundFrame true .data q).1 ∧
      (s₁.shouldForwardNcpboundFrame true .data q).2.1 = .data := by
  decide +kernel

/-! ## 4. After a secure packet -/

section Secure

variable {tiWisunFan : Bool} {p : Packet}

/-- No packet of the flow of `p` is admitted from the insecure channel. -/
def NotReadmitted (tiWisunFan : Bool) (p : Packet) (s : NcpInstance) (e : Event) : Prop :=
  ∀ q ∈ admittedBy tiWisunFan s e, ¬ SameFlow p q

/-- **One step** does not bring an untracked flow back, unless it is admitted. -/
theorem untracked_step (hp : p.isIpv6) (hports : hasPorts p.type)
    (hu : p.destAddr.isMulticast = false) {s : NcpInstance} {e : Event} {w : Window}
    (hs : WindowStep tiWisunFan s e w) (hn : NotReadmitted tiWisunFan p s e)
    (h : flowRule p ∉ s.insecureFirewall) : flowRule p ∉ w.firewall := by
  cases hs with
  | same => exact h
  | tick => exact h
  | reject => exact h
  | start => exact h
  | stop => exact StdSet.not_mem_empty _
  | ended => exact StdSet.not_mem_empty _
  | trackRule q hj ha hm =>
    intro hmem
    rcases (Matcher.mem_insert _ _ _).mp hmem with e | hmem
    · have hall : p.type ≠ typeAll := fun e => absurd (e ▸ hports) (by decide)
      obtain ⟨_, hflow⟩ := sameFlow_of_flowRule (q := q) hp hu hall e.symm
      exact hn q (mem_admittedBy hj ha hm) hflow
    · exact h hmem
  | trackIcmp q hj ha hm ht =>
    intro hmem
    rcases (Matcher.mem_insert _ _ _).mp hmem with e | hmem
    · -- a rule of ICMPv6 is not the rule of a flow with ports
      have htype : p.type = typeIcmp := (inbound_type hp).symm.trans ((congrArg type e).trans ht)
      rw [htype] at hports
      exact absurd hports (by decide)
    · exact h hmem
  | secure type q => exact fun hmem => h ((Matcher.mem_erase _ _ _).mp hmem).2

theorem untracked_of_secure (hp : p.isIpv6) (hports : hasPorts p.type)
    (s : NcpInstance) {type : FrameType} (ht : type ≠ .insecureData) :
    flowRule p ∉ (s.step tiWisunFan (.hostbound type p)).insecureFirewall := by
  have hw : (s.step tiWisunFan (.hostbound type p)).insecureFirewall =
      s.insecureFirewall.erase (updateFromInboundPacket p) :=
    congrArg Window.firewall (s.window_hostbound_secure tiWisunFan ht p)
  rw [hw, inbound_eq_flowRule hp (packetSubtype_of_hasPorts hports), Matcher.mem_erase]
  exact fun h => h.1 rfl

end Secure

/-- **After a secure packet of a TCP or UDP flow no packet of the flow leaves as insecure**, as long as none
    is admitted from the insecure channel. -/
theorem untagged_after_secure (tiWisunFan : Bool) (st : NcpState) (now : Nat)
    (before events : List Event) (p q : Packet) (type : FrameType) (hp : p.isIpv6 = true)
    (hports : Rule.hasPorts p.type = true) (hu : p.destAddr.isMulticast = false)
    (hreply : Reply p q) (ht : type ≠ .insecureData) :
    let s := run (step tiWisunFan) (start st now) (before ++ [.hostbound .data p])
    let s' := run (step tiWisunFan) s events
    Along (step tiWisunFan) (NotReadmitted tiWisunFan p) s events →
      s'.joining tiWisunFan = false →
      (s'.shouldForwardNcpboundFrame tiWisunFan type q).2.1 ≠ .insecureData := by
  intro s s' hn hj htag
  have hs : flowRule p ∉ s.insecureFirewall := by
    have hs : s = (run (step tiWisunFan) (start st now) before).step
        tiWisunFan (.hostbound .data p) := run_append _ before [.hostbound .data p]
    rw [hs]
    exact untracked_of_secure hp hports _ (by decide)
  have hstep : ∀ (s : NcpInstance) (e : Event), flowRule p ∉ s.insecureFirewall →
      NotReadmitted tiWisunFan p s e → flowRule p ∉ (s.step tiWisunFan e).insecureFirewall :=
    fun s e h hn => untracked_step hp hports hu (windowStep tiWisunFan s e) hn h
  have hs' : flowRule p ∉ s'.insecureFirewall := run_invariant hstep hs hn
  obtain ⟨hpass, hjoin | hmem⟩ := (s'.ncpbound_insecure_iff tiWisunFan ht q).mp htag
  · rw [hj] at hjoin
    cases hjoin
  · have hq : q.isIpv6 := (Bool.and_eq_true_iff.mp hpass.2.1).2
    rw [outbound_of_reply hp hq hu hreply] at hmem
    exact hs' hmem

/-- A UDP flow is admitted, then seen on the secure channel: its reply leaves there. -/
theorem untagged_after_secure_udp :
    let p := packet44 17 (linkLocal 2) (linkLocal 1) [0x10, 0x00, 0x16, 0x33]
    let q := packet44 17 (linkLocal 1) (linkLocal 2) [0x16, 0x33, 0x10, 0x00]
    let s := run (step true) (start .associated 100)
      ([.setCommissioniner 10 17 0x3316, .hostbound .insecureData p] ++ [.hostbound .data p])
    ((run (step true) s [.tick 2]).shouldForwardNcpboundFrame true .data q).2.1 ≠ .insecureData :=
  untagged_after_secure true .associated 100
    [.setCommissioniner 10 17 0x3316, .hostbound .insecureData _] [.tick 2] _ _ .data
    (by decide +kernel) (by decide +kernel) (by decide +kernel)
    ⟨by decide +kernel, by decide +kernel, by decide +kernel, fun _ => by decide +kernel,
      fun _ => by decide +kernel⟩ (by decide)
    ⟨fun _ h => (by cases h), trivial⟩ (by decide +kernel)

end DcuDaemon.Firewall
