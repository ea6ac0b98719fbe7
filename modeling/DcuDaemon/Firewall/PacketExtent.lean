/-
  How far the packet decisions read (`src/util/IPv6PacketMatcher.cpp`,
  `src/wfantund/NCPInstanceBase-NetInterface.cpp`: `should_forward_hostbound_frame`).

  The rules get a pointer and read at fixed offsets; the length of the packet is never looked at.

  Main result: `hostbound_congr`.
-/
import DcuDaemon.Firewall.Commissioning

namespace DcuDaemon.Firewall

open Lib

/-! ## 1. Packets with the same bytes in front -/

namespace Packet

/-- The first `n` bytes are the same. -/
def SameUpTo (n : Nat) (p q : Packet) : Prop := ∀ i < n, q.byte i = p.byte i

namespace SameUpTo

variable {n : Nat} {p q : Packet} (h : SameUpTo n p q)

include h

theorem isIpv6 (hn : 1 ≤ n) : q.isIpv6 = p.isIpv6 := by
  unfold Packet.isIpv6
  rw [h 0 hn]

theorem type (hn : 7 ≤ n) : q.type = p.type := h 6 hn

theorem icmpSubtype (hn : 41 ≤ n) : q.icmpSubtype = p.icmpSubtype := h 40 hn

theorem load16 {offset : Nat} (hn : offset + 2 ≤ n) : q.load16 offset = p.load16 offset := by
  unfold Packet.load16
  rw [h offset (by omega), h (offset + 1) (by omega)]

theorem address {offset : Nat} (hn : offset + 16 ≤ n) : q.address offset = p.address offset := by
  refine Subtype.ext ?_
  unfold Packet.address
  dsimp only
  refine List.map_congr_left fun i hi => ?_
  have hi' := List.mem_range.mp hi
  exact h (offset + i) (by omega)

theorem isMulticast (hn : 25 ≤ n) : q.destAddr.isMulticast = p.destAddr.isMulticast := by
  have hbyte : ∀ r : Packet, r.destAddr.isMulticast = (r.byte 24 == 0xFF) := fun _ => rfl
  rw [hbyte, hbyte, h 24 hn]

end SameUpTo

/-! ## 2. The extent of a packet -/

/-- **How many bytes of a packet can matter**: its addresses, without a multicast destination, its ports and
    its ICMPv6 type. A commissioning rule looks for a port in every packet to a link-local address. -/
def extent (p : Packet) : Nat :=
  if !p.isIpv6 then 1
  else if Rule.hasPorts p.type then 44
  else if p.destAddr.isLinkLocal && !(p.type == typeIcmp && p.icmpSubtype == subtypeAll) then 44
  else if p.type = typeIcmp then 41
  else if p.destAddr.isMulticast then 25
  else 40

theorem extent_le (p : Packet) : p.extent ≤ 44 := by
  unfold extent
  repeat' split
  all_goals decide

structure Covered (n : Nat) (p : Packet) : Prop where
  first : 1 ≤ n
  group : p.isIpv6 = true → 25 ≤ n
  unicast : p.isIpv6 = true → p.destAddr.isMulticast = false → 40 ≤ n
  icmp : p.isIpv6 = true → p.type = typeIcmp → 41 ≤ n
  ports : p.isIpv6 = true → Rule.hasPorts p.type = true → 44 ≤ n
  linkLocal : p.isIpv6 = true → p.destAddr.isLinkLocal = true →
    ¬ (p.type = typeIcmp ∧ p.icmpSubtype = subtypeAll) → 44 ≤ n

theorem extent_le_iff {n : Nat} {p : Packet} : p.extent ≤ n ↔ Covered n p := by
  unfold extent
  refine ⟨fun h => ?_, fun h => ?_⟩
  · refine ⟨?_, ?_, ?_, ?_, ?_, ?_⟩
    all_goals grind
  · obtain ⟨h1, h2, h3, h4, h5, h6⟩ := h
    grind

end Packet

/-! ## 3. The same rules -/

/-- The rules that a commissioning window can have: that of a call, or none. -/
def WindowRule (r : Rule) : Prop := r = Rule.clear ∨ ∃ t port, r = startRule t port

theorem matchInbound_of_not_ipv6 {r : Rule} {p : Packet} (h : p.isIpv6 = false) :
    r.matchInbound p = false := by
  unfold Rule.matchInbound Rule.matchEnds
  rw [h]
  rfl

theorem clear_matchInbound (p : Packet) : Rule.clear.matchInbound p = p.isIpv6 := by
  cases h : p.isIpv6 with
  | false => exact matchInbound_of_not_ipv6 h
  | true =>
    unfold Rule.matchInbound Rule.matchEnds
    rw [h]
    rfl

section Congr

variable {n : Nat} {p q : Packet} (h : Packet.SameUpTo n p q) (hext : p.extent ≤ n)

include h hext

/-- **The rule of a packet is in its extent.** -/
theorem updateFromInboundPacket_congr :
    Rule.updateFromInboundPacket q = Rule.updateFromInboundPacket p := by
  have hc := Packet.extent_le_iff.mp hext
  unfold Rule.updateFromInboundPacket
  rw [h.isIpv6 hc.first]
  cases hip : p.isIpv6 with
  | false => rfl
  | true =>
    have hgroup := hc.group hip
    have hsub : Rule.packetSubtype q = Rule.packetSubtype p := by
      unfold Rule.packetSubtype
      rw [h.type (by omega)]
      by_cases hicmp : p.type = typeIcmp
      · rw [if_pos hicmp, if_pos hicmp, h.icmpSubtype (hc.icmp hip hicmp)]
      · rw [if_neg hicmp, if_neg hicmp]
    have hdest : (if p.destAddr.isMulticast then In6Addr.zero else q.destAddr) =
        if p.destAddr.isMulticast then In6Addr.zero else p.destAddr := by
      cases hm : p.destAddr.isMulticast with
      | true => rfl
      | false => exact h.address (hc.unicast hip hm)
    have hports : ∀ x y : InPort, (44 ≤ n → x = y) →
        (if Rule.hasPorts p.type then x else 0) = if Rule.hasPorts p.type then y else 0 := by
      intro x y hxy
      cases hp : Rule.hasPorts p.type with
      | true => exact hxy (hc.ports hip hp)
      | false => rfl
    have hsrc : q.srcAddr = p.srcAddr := h.address (by omega)
    rw [hsub, h.type (by omega), h.isMulticast hgroup, hdest, hsrc,
      hports q.destPort p.destPort fun hn => h.load16 hn,
      hports q.srcPort p.srcPort fun hn => h.load16 (by omega)]

theorem isLinkLocal_congr (hip : p.isIpv6) : q.destAddr.isLinkLocal = p.destAddr.isLinkLocal := by
  have hc := Packet.extent_le_iff.mp hext
  cases hm : p.destAddr.isMulticast with
  | false =>
    have hdest : q.destAddr = p.destAddr := h.address (hc.unicast hip hm)
    rw [hdest]
  | true =>
    -- a group is not link-local, whatever its other bytes are
    have hnot : ∀ a : In6Addr, a.isMulticast → a.isLinkLocal = false := by
      intro a ha
      cases hl : a.isLinkLocal with
      | false => rfl
      | true =>
        rw [not_multicast_of_linkLocal hl] at ha
        cases ha
    rw [hnot _ hm, hnot _ ((h.isMulticast (hc.group hip)).trans hm)]

/-- **What a commissioning rule matches is in the extent**, but for ICMPv6 packets that are tracked in any
    case. -/
theorem matchInbound_congr {r : Rule} (hr : WindowRule r) :
    r.matchInbound q = r.matchInbound p ∨
      ((Rule.updateFromInboundPacket p).type = typeIcmp ∧
        (Rule.updateFromInboundPacket p).anySubtype = Rule.updateFromInboundPacket p) := by
  have hc := Packet.extent_le_iff.mp hext
  cases hip : p.isIpv6 with
  | false =>
    have hipq : q.isIpv6 = false := (h.isIpv6 hc.first).trans hip
    refine .inl ?_
    rw [matchInbound_of_not_ipv6 hip, matchInbound_of_not_ipv6 hipq]
  | true =>
    have hipq : q.isIpv6 := (h.isIpv6 hc.first).trans hip
    obtain rfl | ⟨t, port, rfl⟩ := hr
    · refine .inl ?_
      rw [clear_matchInbound, clear_matchInbound, hip, hipq]
    · by_cases hl : p.destAddr.isLinkLocal
      · by_cases hicmp : p.type = typeIcmp ∧ p.icmpSubtype = subtypeAll
        · refine .inr ?_
          have hrule := inbound_unicast hip (not_multicast_of_linkLocal hl)
          have hsub : Rule.packetSubtype p = subtypeAll := (if_pos hicmp.1).trans hicmp.2
          rw [hrule, hsub]
          exact ⟨hicmp.1, rfl⟩
        · refine .inl ?_
          have hn : 44 ≤ n := hc.linkLocal hip hl hicmp
          have hdport : q.destPort = p.destPort := h.load16 hn
          have hsport : q.srcPort = p.srcPort := h.load16 (by omega)
          have hdest : q.destAddr = p.destAddr := h.address (by omega)
          have hsrc : q.srcAddr = p.srcAddr := h.address (by omega)
          unfold Rule.matchInbound Rule.matchEnds
          rw [hdport, hsport, hdest, hsrc, hip, hipq, h.type (by omega), h.icmpSubtype (by omega)]
      · -- neither matches
        refine .inl ?_
        have hlq : ¬ q.destAddr.isLinkLocal := by
          rw [isLinkLocal_congr h hext hip]
          exact hl
        rw [Bool.eq_false_iff.mpr fun hm => hl (startRule_match hm).2.2.2,
          Bool.eq_false_iff.mpr fun hm => hlq (startRule_match hm).2.2.2]

/-! ## 4. The same decisions -/

variable {tiWisunFan : Bool} {s : NcpInstance}

/-- **The insecure channel** treats the two packets alike. -/
theorem insecureChannel_congr (hs : s.commissioningExpiration ≠ 0 → WindowRule s.commissioningRule) :
    s.insecureChannel tiWisunFan q = s.insecureChannel tiWisunFan p := by
  have hrule := updateFromInboundPacket_congr h hext
  unfold NcpInstance.insecureChannel
  dsimp only
  rw [hrule]
  by_cases hexp : s.commissioningExpiration = 0
  · rw [if_neg (not_not.mpr hexp), if_neg (not_not.mpr hexp)]
  · obtain hm | ⟨hicmp, hany⟩ := matchInbound_congr h hext (hs hexp)
    · rw [hm]
    · -- inserted with the same rule on either branch
      rw [hany, if_pos hicmp, ite_self, ite_self]

/-- **The decision**: packets with the same extent are decided alike. -/
theorem hostbound_congr
    (hs : s.commissioningExpiration ≠ 0 → WindowRule s.commissioningRule) (type : FrameType) :
    s.shouldForwardHostboundFrame tiWisunFan type q = s.shouldForwardHostboundFrame tiWisunFan type p := by
  unfold NcpInstance.shouldForwardHostboundFrame
  rw [updateFromInboundPacket_congr h hext, insecureChannel_congr h hext hs]

end Congr

/-- **A step** opens a window with such a rule, or leaves or clears the rule there is. -/
theorem windowRule_step {tiWisunFan : Bool} {s : NcpInstance} {e : Event} {w : Window}
    (h : s.commissioningExpiration ≠ 0 → WindowRule s.commissioningRule)
    (hs : WindowStep tiWisunFan s e w) : w.expiration ≠ 0 → WindowRule w.rule := by
  cases hs with
  | same | tick | trackRule | trackIcmp | secure => exact h
  | reject => exact fun _ => .inl rfl
  | start seconds t port => exact fun _ => .inr ⟨t, port, rfl⟩
  | stop | ended => exact fun hexp => absurd rfl hexp

/-- **In every run** an open window has such a rule. -/
theorem windowRule_run (tiWisunFan : Bool) (st : NcpState) (now : Nat) (events : List Event) :
    (run (NcpInstance.step tiWisunFan) (NcpInstance.start st now) events).commissioningExpiration ≠ 0 →
      WindowRule
        (run (NcpInstance.step tiWisunFan) (NcpInstance.start st now) events).commissioningRule := by
  have hstep : ∀ s e, (s.commissioningExpiration ≠ 0 → WindowRule s.commissioningRule) → True →
      ((NcpInstance.step tiWisunFan s e).commissioningExpiration ≠ 0 →
        WindowRule (NcpInstance.step tiWisunFan s e).commissioningRule) :=
    fun s e hs _ => windowRule_step hs (windowStep tiWisunFan s e)
  exact run_invariant hstep (fun hexp => absurd rfl hexp) (along_true _ events)

end DcuDaemon.Firewall
