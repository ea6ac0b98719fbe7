/-
  Packets of the NCP in the receive buffer (`src/ncp-spinel/SpinelNCPInstance.cpp`:
  `handle_ncp_spinel_value_is`, the streams; the reads of `src/util/IPv6PacketMatcher.cpp`).

  The packet is decided on where it lies. What the rules read behind a short packet is what the frame
  and the buffer hold there.

  Main result: `stream_decision_independent_iff`.
-/
import DcuDaemon.Firewall.PacketExtent
import DcuDaemon.Spinel.Frame
import DcuDaemon.Wfantund.Structs
import Mathlib.Data.List.GetD

namespace DcuDaemon.Wfantund

open Firewall Lib Spinel Spinel.Datatype List Packet Rule

/-! ## 1. The streams -/

section Handler

variable (tiWisunFan : Bool) (s : NcpInstance) (key : UInt32) (value : List UInt8) (behind : Nat → UInt8)

/-- `handle_ncp_spinel_value_is`, the streams: the decision and the type. `behind` is what the buffer holds
    behind the value. -/
def handleStreamNet : Option (Bool × FrameType) × NcpInstance :=
  match unpackBlock value with
  | none => (none, s)
  | some (frame, _) =>
    -- `frame_ptr` points into the value, behind the length
    let p : Packet := ⟨fun i => (Packet.inBuffer value behind).byte (2 + i), frame.length⟩
    let type := if key = propStreamNetInsecure then .insecureData else .data
    let (forward, type, s) := s.shouldForwardHostboundFrame tiWisunFan type p
    (some (forward, type), s)

/-- The decision and the rule sets afterwards. -/
def streamOutcome : Option (Bool × FrameType) × Matcher × Matcher :=
  let (decision, s) := handleStreamNet tiWisunFan s key value behind
  (decision, s.insecureFirewall, s.legacyCommissioningMatcher)

end Handler

/-- The value has the packet in front, and any metadata behind it. -/
def Carries (packet value : List UInt8) : Prop := ∃ metadata, unpackBlock value = some (packet, metadata)

theorem sameUpTo_inBuffer (packet : List UInt8) (behind : Nat → UInt8) :
    Packet.SameUpTo packet.length (ofBytes packet) (inBuffer packet behind) :=
  fun _ hi => if_pos hi

variable {packet : List UInt8}

theorem inBuffer_congr {f g : Nat → UInt8}
    (h : ∀ i, packet.length ≤ i → f i = g i) : inBuffer packet f = inBuffer packet g := by
  unfold inBuffer
  congr 1
  funext i
  by_cases hi : i < packet.length
  · rw [if_pos hi, if_pos hi]
  · rw [if_neg hi, if_neg hi, h i (Nat.le_of_not_lt hi)]

/-- **The packet as the handler passes it on**: its bytes, and behind them the rest of the buffer. -/
theorem handleStreamNet_eq {value : List UInt8} (h : Carries packet value) (tiWisunFan : Bool)
    (s : NcpInstance) (key : UInt32) (behind : Nat → UInt8) :
    handleStreamNet tiWisunFan s key value behind =
      let x := s.shouldForwardHostboundFrame tiWisunFan
        (if key = propStreamNetInsecure then .insecureData else .data)
        (inBuffer packet fun i => (inBuffer value behind).byte (2 + i))
      (some (x.1, x.2.1), x.2.2) := by
  obtain ⟨metadata, hblock⟩ := h
  have hvalue : value = structEntry packet ++ metadata := (unpackBlock_eq_some.mp hblock).2.2
  have hp : (⟨fun i => (inBuffer value behind).byte (2 + i), packet.length⟩ : Packet) =
      inBuffer packet fun i => (inBuffer value behind).byte (2 + i) := by
    unfold inBuffer
    congr 1
    funext i
    by_cases hi : i < packet.length
    · have hin : 2 + i < value.length := by
        rw [hvalue, length_append, length_structEntry]
        omega
      have hbyte : value.getD (2 + i) 0 = packet.getD i 0 := by
        rw [hvalue, structEntry, append_assoc,
          getD_append_right _ _ _ _ (by rw [length_leBytes]; omega), length_leBytes,
          Nat.add_sub_cancel_left, getD_append _ _ _ _ hi]
      rw [if_pos hi]
      dsimp only
      rw [if_pos hin, hbyte]
    · rw [if_neg hi]
  unfold handleStreamNet
  rw [hblock]
  dsimp only
  rw [hp]

/-! ## 2. Runs that see what is behind -/

/-- The packet, and behind it one byte again and again. -/
def followedBy (packet : List UInt8) (c : UInt8) : Packet := Packet.inBuffer packet fun _ => c

theorem followedBy_inside (packet : List UInt8) (c : UInt8) :
    Packet.SameUpTo packet.length (ofBytes packet) (followedBy packet c) :=
  sameUpTo_inBuffer packet _

theorem followedBy_behind {i : Nat} (h : packet.length ≤ i) (c : UInt8) :
    (followedBy packet c).byte i = c := if_neg (not_lt.mpr h)

theorem carries_structEntry (h : packet.length < 44) : Carries packet (structEntry packet) := by
  refine ⟨[], unpackBlock_eq_some.mpr ⟨?_, ?_, (append_nil _).symm⟩⟩
  · rw [length_structEntry]
    exact le_of_lt (lt_of_lt_of_le (Nat.add_lt_add_left h 2) (by decide))
  · exact h.trans (by decide)

/-- Commissioning is on, with nothing tracked yet. -/
structure OpenWindow (tiWisunFan : Bool) (s : NcpInstance) : Prop where
  up : s.ncpState.isInterfaceUp = true
  joined : s.joining tiWisunFan = false
  active : s.window.Active
  empty : s.insecureFirewall = StdSet.empty

section Open

variable {tiWisunFan : Bool} {s : NcpInstance} {packet : List UInt8}

/-- **What an open window does with a packet that is not tracked.** -/
theorem streamOutcome_open (h : OpenWindow tiWisunFan s) (hlen : packet.length < 44) (c : UInt8) :
    streamOutcome tiWisunFan s propStreamNetInsecure (structEntry packet) (fun _ => c) =
      if s.commissioningRule.matchInbound (followedBy packet c) then
        (some (true, .insecureData),
          StdSet.empty.insert (updateFromInboundPacket (followedBy packet c)).anySubtype,
          s.legacyCommissioningMatcher)
      else if (updateFromInboundPacket (followedBy packet c)).type = typeIcmp then
        (some (true, .insecureData),
          StdSet.empty.insert (updateFromInboundPacket (followedBy packet c)),
          s.legacyCommissioningMatcher)
      else (some (false, .insecureData), StdSet.empty, s.legacyCommissioningMatcher) := by
  have hp : (inBuffer packet fun i =>
      (inBuffer (structEntry packet) fun _ => c).byte (2 + i)) = followedBy packet c := by
    refine inBuffer_congr fun i hi => if_neg ?_
    rw [length_structEntry]
    omega
  have hcount : ∀ rule, ¬ s.insecureFirewall.count rule := by
    intro rule
    rw [h.empty]
    exact Bool.false_ne_true
  have hchannel := s.insecureChannel_active tiWisunFan (followedBy packet c) h.joined h.active
  rw [if_neg (hcount _), h.empty] at hchannel
  unfold streamOutcome
  rw [handleStreamNet_eq (carries_structEntry hlen), if_pos rfl, hp]
  unfold NcpInstance.shouldForwardHostboundFrame
  dsimp only
  rw [hchannel]
  split
  · simp [h.up]
  · split
    · simp [h.up]
    · simp [h.up, h.empty]

end Open

def commissioned (tiWisunFan : Bool) (events : List Event) : NcpInstance :=
  run (NcpInstance.step tiWisunFan) (NcpInstance.start .associated 0) events

theorem openWindow_call (tiWisunFan : Bool) (t : UInt8) {port : InPort} (hport : port ≠ 0) :
    OpenWindow tiWisunFan (commissioned tiWisunFan [.setCommissioniner 1 t port]) ∧
      (commissioned tiWisunFan [.setCommissioniner 1 t port]).commissioningRule = startRule t port := by
  have hcall : commissioned tiWisunFan [.setCommissioniner 1 t port] =
      { NcpInstance.start .associated 0 with
        commissioningExpiration := 1, commissioningRule := startRule t port
        lastOk := ⟨1, t, port⟩ } := by
    have hstep : commissioned tiWisunFan [.setCommissioniner 1 t port] =
        ((NcpInstance.start .associated 0).setCommissioniner 1 t port).2 := rfl
    rw [hstep, NcpInstance.setCommissioniner]
    rw [if_neg fun h => hport h.2, if_pos ⟨by decide, hport⟩]
    rfl
  rw [hcall]
  exact ⟨⟨rfl, rfl, Nat.zero_lt_one, rfl⟩, rfl⟩

theorem openWindow_cleared (tiWisunFan : Bool) : OpenWindow tiWisunFan
        (commissioned tiWisunFan [.setCommissioniner 1 typeAll 1, .setCommissioniner 1 typeAll 0]) ∧
      (commissioned tiWisunFan
        [.setCommissioniner 1 typeAll 1, .setCommissioniner 1 typeAll 0]).commissioningRule = clear :=
  ⟨⟨rfl, rfl, Nat.zero_lt_one, rfl⟩, rfl⟩

/-- No window sees which of two bytes stands behind the packet. -/
def Blind (tiWisunFan : Bool) (packet : List UInt8) : Prop :=
  ∀ events, streamOutcome tiWisunFan (commissioned tiWisunFan events) propStreamNetInsecure
      (structEntry packet) (fun _ => 0x60) =
    streamOutcome tiWisunFan (commissioned tiWisunFan events) propStreamNetInsecure
      (structEntry packet) (fun _ => 0x61)

theorem insert_empty_inj {a b : Rule}
    (h : (StdSet.empty.insert a : Matcher) = StdSet.empty.insert b) : a = b := by
  have ha : a ∈ (StdSet.empty.insert a : Matcher) := (Matcher.mem_insert _ _ _).mpr (.inl rfl)
  rw [h, Matcher.mem_insert] at ha
  exact ha.resolve_right (StdSet.not_mem_empty a)

theorem load16_high (p : Packet) (offset : Nat) :
    p.load16 offset >>> 8 = (p.byte (offset + 1)).toUInt16 := by
  have hlow := (p.byte offset).toNat_lt
  have hhigh := (p.byte (offset + 1)).toNat_lt
  unfold load16
  rw [← UInt16.toNat_inj, UInt16.toNat_shiftRight, UInt16.toNat_or, UInt16.toNat_shiftLeft]
  simp only [UInt8.toNat_toUInt16]
  have h8 : UInt16.toNat 8 % 16 = 8 := rfl
  rw [h8, Nat.shiftRight_or_distrib, Nat.shiftRight_eq_div_pow, Nat.div_eq_of_lt hlow, Nat.zero_or,
    Nat.mod_eq_of_lt (by rw [Nat.shiftLeft_eq]; omega), Nat.shiftLeft_shiftRight]

theorem destPort_ne (hlen : packet.length < 44) :
    (followedBy packet 0x60).destPort ≠ (followedBy packet 0x61).destPort := by
  intro he
  have hhigh := congrArg (fun x : UInt16 => x >>> 8) he
  dsimp only [destPort] at hhigh
  rw [load16_high, load16_high, followedBy_behind (by omega), followedBy_behind (by omega)] at hhigh
  exact absurd hhigh (by decide)

theorem inbound_type {p : Packet} (hip : p.isIpv6) : (updateFromInboundPacket p).type = p.type ∧
      (updateFromInboundPacket p).subtype = packetSubtype p := by
  unfold updateFromInboundPacket
  rw [hip]
  exact ⟨rfl, rfl⟩

section Blind

variable {tiWisunFan : Bool} {packet : List UInt8} (h : Blind tiWisunFan packet) (hlen : packet.length < 44)

include h hlen

theorem Blind.rule_eq (h60 : (followedBy packet 0x60).isIpv6) (h61 : (followedBy packet 0x61).isIpv6) :
    (updateFromInboundPacket (followedBy packet 0x60)).anySubtype =
      (updateFromInboundPacket (followedBy packet 0x61)).anySubtype := by
  obtain ⟨hopen, hrule⟩ := openWindow_cleared tiWisunFan
  have he := h [.setCommissioniner 1 typeAll 1, .setCommissioniner 1 typeAll 0]
  rw [streamOutcome_open hopen hlen, streamOutcome_open hopen hlen, hrule, clear_matchInbound,
    clear_matchInbound, if_pos h60, if_pos h61] at he
  exact insert_empty_inj (congrArg (fun x => x.2.1) he)

/-- **The destination is inside**, unless it is a group. -/
theorem Blind.unicast_inside (hip : packet.length = 0 ∨ (ofBytes packet).isIpv6)
    (hm : (ofBytes packet).destAddr.isMulticast = false) : 40 ≤ packet.length := by
  by_contra hn
  have hipv6 : ∀ c : UInt8, c &&& 0xF0 == 0x60 → (followedBy packet c).isIpv6 := by
    intro c hc
    by_cases h0 : packet.length = 0
    · show ((followedBy packet c).byte 0 &&& 0xF0 == 0x60)
      rw [followedBy_behind (by omega)]
      exact hc
    · rw [(followedBy_inside packet c).isIpv6 (by omega)]
      exact hip.resolve_left h0
  have hunicast : ∀ c : UInt8, c ≠ 0xFF → (followedBy packet c).destAddr.isMulticast = false := by
    intro c hc
    show ((followedBy packet c).byte 24 == 0xFF) = false
    by_cases h24 : 24 < packet.length
    · rw [followedBy_inside packet c 24 h24]
      exact hm
    · rw [followedBy_behind (by omega)]
      exact beq_eq_false_iff_ne.mpr hc
  have h60 := hipv6 0x60 (by decide)
  have h61 := hipv6 0x61 (by decide)
  have hrule := congrArg localAddress (h.rule_eq hlen h60 h61)
  rw [inbound_unicast h60 (hunicast 0x60 (by decide)),
    inbound_unicast h61 (hunicast 0x61 (by decide))] at hrule
  have hlast : (followedBy packet 0x60).byte 39 = (followedBy packet 0x61).byte 39 :=
    congrArg (fun a : In6Addr => a.val.getD 15 0) hrule
  rw [followedBy_behind (by omega), followedBy_behind (by omega)] at hlast
  exact absurd hlast (by decide)

/-- **There are no ports**: their last byte would be behind the packet. -/
theorem Blind.not_hasPorts (hip : (ofBytes packet).isIpv6) (h25 : 25 ≤ packet.length) :
    ¬ hasPorts (ofBytes packet).type := by
  intro hports
  have h60 : (followedBy packet 0x60).isIpv6 :=
    ((followedBy_inside packet 0x60).isIpv6 (by omega)).trans hip
  have h61 : (followedBy packet 0x61).isIpv6 :=
    ((followedBy_inside packet 0x61).isIpv6 (by omega)).trans hip
  have hport : ∀ c : UInt8, (followedBy packet c).isIpv6 →
      (updateFromInboundPacket (followedBy packet c)).localPort = (followedBy packet c).destPort := by
    intro c hc
    unfold updateFromInboundPacket
    rw [hc, (followedBy_inside packet c).type (by omega), hports]
    rfl
  have hrule := congrArg localPort (h.rule_eq hlen h60 h61)
  change (updateFromInboundPacket (followedBy packet 0x60)).localPort =
    (updateFromInboundPacket (followedBy packet 0x61)).localPort at hrule
  rw [hport _ h60, hport _ h61] at hrule
  exact destPort_ne hlen hrule

/-- **The ICMPv6 type is inside.** -/
theorem Blind.icmp_inside (hip : (ofBytes packet).isIpv6) (h25 : 25 ≤ packet.length)
    (hicmp : (ofBytes packet).type = typeIcmp) : 41 ≤ packet.length := by
  by_contra hn
  obtain ⟨hopen, hwindow⟩ := openWindow_call tiWisunFan typeNone (show (1 : InPort) ≠ 0 by decide)
  have hnone : ∀ p : Packet, ¬ (startRule typeNone 1).matchInbound p :=
    fun p hm => ((matchEnds_iff _ _ _ _ _ _).mp hm).2.1 rfl
  have hrule : ∀ c : UInt8, (updateFromInboundPacket (followedBy packet c)).type = typeIcmp ∧
      (updateFromInboundPacket (followedBy packet c)).subtype = c := by
    intro c
    have hc : (followedBy packet c).isIpv6 := ((followedBy_inside packet c).isIpv6 (by omega)).trans hip
    have ht : (followedBy packet c).type = typeIcmp :=
      ((followedBy_inside packet c).type (by omega)).trans hicmp
    obtain ⟨htype, hsub⟩ := inbound_type hc
    exact ⟨htype.trans ht, hsub.trans ((if_pos ht).trans (followedBy_behind (by omega) c))⟩
  have he := h [.setCommissioniner 1 typeNone 1]
  rw [streamOutcome_open hopen hlen, streamOutcome_open hopen hlen, hwindow, if_neg (hnone _),
    if_neg (hnone _), if_pos (hrule _).1, if_pos (hrule _).1] at he
  have hsub := congrArg subtype (insert_empty_inj (congrArg (fun x => x.2.1) he))
  rw [(hrule _).2, (hrule _).2] at hsub
  exact absurd hsub (by decide)

/-- **To a link-local address** it is an ICMPv6 packet of type 0xFF: the port's last byte is behind the
    packet. -/
theorem Blind.icmp_of_linkLocal (hip : (ofBytes packet).isIpv6)
    (h40 : 40 ≤ packet.length) (hl : (ofBytes packet).destAddr.isLinkLocal)
    (hicmp : (ofBytes packet).type = typeIcmp → 41 ≤ packet.length) :
    (ofBytes packet).type = typeIcmp ∧ (ofBytes packet).icmpSubtype = subtypeAll := by
  -- the window is for the port that 0x61 behind the packet makes
  have hport : (followedBy packet 0x61).destPort ≠ 0 := by
    intro he
    have hhigh := congrArg (fun x : UInt16 => x >>> 8) he
    dsimp only [destPort] at hhigh
    rw [load16_high, followedBy_behind (by omega)] at hhigh
    exact absurd hhigh (by decide)
  obtain ⟨hopen, hwindow⟩ := openWindow_call tiWisunFan typeAll hport
  have h60 := followedBy_inside packet 0x60
  have h61 := followedBy_inside packet 0x61
  have hdest : (followedBy packet 0x61).destAddr = (ofBytes packet).destAddr := h61.address h40
  have hmatch : (startRule typeAll (followedBy packet 0x61).destPort).matchInbound
      (followedBy packet 0x61) := by
    refine (matchEnds_iff _ _ _ _ _ _).mpr ⟨(h61.isIpv6 (by omega)).trans hip,
      show typeAll ≠ typeNone by decide, .inl rfl,
      fun _ => rfl, fun hr => absurd hr Bool.false_ne_true, fun _ => ?_, fun hr => absurd rfl hr⟩
    rw [hdest]
    exact (applyMask_ten _).mpr hl
  have hmiss : ¬ (startRule typeAll (followedBy packet 0x61).destPort).matchInbound
      (followedBy packet 0x60) :=
    fun hm => destPort_ne hlen (startRule_match hm).2.2.1
  have he := h [.setCommissioniner 1 typeAll (followedBy packet 0x61).destPort]
  rw [streamOutcome_open hopen hlen, streamOutcome_open hopen hlen, hwindow, if_neg hmiss] at he
  split at he
  · rename_i htype
    obtain ⟨hrule, hsub⟩ := inbound_type ((h60.isIpv6 (by omega)).trans hip)
    have ht : (followedBy packet 0x60).type = typeIcmp := hrule.symm.trans htype
    have hbase : (ofBytes packet).type = typeIcmp := (h60.type (by omega)).symm.trans ht
    refine ⟨hbase, ?_⟩
    -- tracked for its own type in one run and for every type in the other
    have hall := congrArg subtype (insert_empty_inj (congrArg (fun x => x.2.1) he))
    rw [hsub, packetSubtype, if_pos ht, h60.icmpSubtype (hicmp hbase)] at hall
    exact hall
  · cases congrArg (fun x => x.1) he

/-- **All that can matter is inside.** -/
theorem Blind.covered : Packet.Covered packet.length (ofBytes packet) := by
  have hshort : packet.length < 25 → (ofBytes packet).destAddr.isMulticast = false := by
    intro hn
    show (packet.getD 24 0 == 0xFF) = false
    rw [getD_eq_default _ _ (by omega)]
    rfl
  have hgroup : (ofBytes packet).isIpv6 → 25 ≤ packet.length := by
    intro hip
    by_contra hn
    have h40 := h.unicast_inside hlen (.inr hip) (hshort (Nat.lt_of_not_le hn))
    omega
  refine ⟨?_, hgroup, fun hip hm => h.unicast_inside hlen (.inr hip) hm,
    fun hip hicmp => h.icmp_inside hlen hip (hgroup hip) hicmp,
    fun hip hports => absurd hports (h.not_hasPorts hlen hip (hgroup hip)), ?_⟩
  · by_contra hn
    have h40 := h.unicast_inside hlen (.inl (by omega)) (hshort (by omega))
    omega
  · intro hip hl hicmp
    have h40 := h.unicast_inside hlen (.inr hip) (not_multicast_of_linkLocal hl)
    exact absurd (h.icmp_of_linkLocal hlen hip h40 hl fun ht => h.icmp_inside hlen hip (hgroup hip) ht)
      hicmp

end Blind

/-! ## 3. Packets that are long enough -/

/-- **What stands behind a packet matters to no run exactly if the packet is as long as its extent.** -/
theorem stream_decision_independent_iff (tiWisunFan : Bool) (packet : List UInt8) :
    (∀ st now events, ∀ key ∈ [propStreamNet, propStreamNetInsecure], ∀ value value',
      Carries packet value → Carries packet value' → ∀ behind behind',
        let s := run (NcpInstance.step tiWisunFan) (NcpInstance.start st now) events
        streamOutcome tiWisunFan s key value behind = streamOutcome tiWisunFan s key value' behind') ↔
      (Packet.ofBytes packet).extent ≤ packet.length := by
  refine ⟨fun h => ?_, fun hext => ?_⟩
  · by_contra hext
    have hlen : packet.length < 44 := lt_of_lt_of_le (Nat.lt_of_not_le hext) (extent_le _)
    have hblind : Blind tiWisunFan packet := fun events =>
      h .associated 0 events propStreamNetInsecure (by decide) _ _ (carries_structEntry hlen)
        (carries_structEntry hlen) _ _
    exact hext (extent_le_iff.mpr (Blind.covered hblind hlen))
  · intro st now events key _ value value' hvalue hvalue' behind behind'
    have hrule := windowRule_run tiWisunFan st now events
    have hbase : ∀ {v : List UInt8}, Carries packet v → ∀ f : Nat → UInt8,
        streamOutcome tiWisunFan (run (NcpInstance.step tiWisunFan) (NcpInstance.start st now) events)
            key v f =
          let x := (run (NcpInstance.step tiWisunFan) (NcpInstance.start st now)
            events).shouldForwardHostboundFrame tiWisunFan
              (if key = propStreamNetInsecure then .insecureData else .data) (ofBytes packet)
          (some (x.1, x.2.1), x.2.2.insecureFirewall, x.2.2.legacyCommissioningMatcher) := by
      intro v hv f
      unfold streamOutcome
      rw [handleStreamNet_eq hv]
      dsimp only
      rw [hostbound_congr (sameUpTo_inBuffer packet _) hext hrule]
    exact (hbase hvalue behind).trans (hbase hvalue' behind').symm

/-- A UDP packet to a link-local address that ends with its IPv6 header. -/
def headerOnly : List UInt8 := [0x60, 0, 0, 0, 0, 0, 17, 64] ++ linkLocal 2 ++ linkLocal 1

/-- **The metadata decides**: the packet is forwarded or dropped by the bytes behind it. -/
theorem header_decided_by_metadata :
    Carries headerOnly (structEntry headerOnly ++ [0x10, 0x00, 0x16, 0x33]) ∧
      Carries headerOnly (structEntry headerOnly ++ [0, 0, 0, 0]) ∧
      (streamOutcome true (run (NcpInstance.step true) (NcpInstance.start .associated 100)
          [.setCommissioniner 60 typeUdp 0x3316]) propStreamNetInsecure
          (structEntry headerOnly ++ [0x10, 0x00, 0x16, 0x33]) fun _ => 0).1 =
        some (true, .insecureData) ∧
      (streamOutcome true (run (NcpInstance.step true) (NcpInstance.start .associated 100)
          [.setCommissioniner 60 typeUdp 0x3316]) propStreamNetInsecure
          (structEntry headerOnly ++ [0, 0, 0, 0]) fun _ => 0).1 =
        some (false, .insecureData) :=
  ⟨⟨[0x10, 0x00, 0x16, 0x33], by decide +kernel⟩, ⟨[0, 0, 0, 0], by decide +kernel⟩, by decide +kernel, by decide +kernel⟩

end DcuDaemon.Wfantund
