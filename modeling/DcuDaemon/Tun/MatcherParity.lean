/-
  The port's packet rules against those of the C++ daemon.

  A C++ rule is carried over by `PacketMatcherRule.ofRule`: type and subtype go through the enumerations
  of the port, ports change their byte order. The port builds from a packet the rule that is so carried
  over (`updateFrom_ofRule`), and its checks of ports and addresses are those of the C++ rule. Only the
  protocol check differs: a byte that an enumeration does not know becomes `All` there and matches every
  packet.

  Main results: `packetRules_agree_iff`, `answer_matches_iff`, `applyMask_prefix`.
-/
import DcuDaemon.Tun.PacketMatcher

namespace DcuDaemon.Tun

open Firewall List PacketMatcherRule Packet ProtocolType

/-! ## 1. Fields -/

/-- A port as the port of the daemon reads it, from the word the C++ code loads. -/
def swapPort (port : UInt16) : UInt16 := (port <<< 8) ||| (port >>> 8)

theorem swapPort_swapPort (port : UInt16) : swapPort (swapPort port) = port := by
  unfold swapPort
  apply UInt16.eq_of_toBitVec_eq
  ext i hi
  by_cases h : i < 8
  · have hover : port.toBitVec.getLsbD (8 + (8 + i)) = false := BitVec.getLsbD_of_ge _ _ (by omega)
    simp [h, hover, show 8 + i < 16 by omega]
  · have hover : port.toBitVec.getLsbD (8 + (8 + i)) = false := BitVec.getLsbD_of_ge _ _ (by omega)
    simp [h, hover, show i - 8 < 8 by omega,
      show 8 + (i - 8) = i by omega, BitVec.getLsbD_eq_getElem hi]

theorem swapPort_inj {a b : UInt16} : swapPort a = swapPort b ↔ a = b := by
  constructor
  · intro h
    rw [← swapPort_swapPort a, h, swapPort_swapPort]
  · intro h
    rw [h]

theorem fromBeBytes_eq (hi lo : UInt8) :
    fromBeBytes hi lo = swapPort (hi.toUInt16 ||| (lo.toUInt16 <<< 8)) := by
  unfold fromBeBytes swapPort
  apply UInt16.eq_of_toBitVec_eq
  ext i h
  by_cases h8 : i < 8
  · simp [h8, show 8 + i < 16 by omega]
  · have hover : lo.toBitVec.getLsbD i = false := BitVec.getLsbD_of_ge _ _ (by omega)
    simp [hover, show i - 8 < 8 by omega]

theorem shiftLeft_eq_not_shiftRight : ∀ bits < 8, 0 < bits →
      (0xFF : UInt8) <<< UInt8.ofNat (8 - bits) = ~~~((0xFF : UInt8) >>> UInt8.ofNat bits) := by
  decide

theorem val_applyMask (addr : In6Addr) {mask : UInt8} {bits : Nat}
    (hbits : (if mask > 128 then 128 else mask.toNat) = bits) :
    (addr.applyMask mask).val = (range 16).map fun i =>
      if i < bits / 8 then addr.val.getD i 0
      else if i = bits / 8 ∧ bits % 8 ≠ 0 then
        addr.val.getD i 0 &&& ~~~((0xFF : UInt8) >>> UInt8.ofNat (bits % 8))
      else 0 := by
  unfold In6Addr.applyMask
  rw [hbits]
  refine map_congr_left fun i _ => ?_
  by_cases hfull : i < bits / 8
  · rw [if_pos hfull, if_pos (show i < (bits + 7) / 8 by omega), if_neg (by omega)]
  · by_cases hcut : i = bits / 8 ∧ bits % 8 ≠ 0
    · rw [if_neg hfull, if_pos hcut, if_pos (show i < (bits + 7) / 8 by omega), if_pos hcut.symm]
    · rw [if_neg hfull, if_neg hcut, if_neg (show ¬ i < (bits + 7) / 8 by omega),
        if_neg fun h => hcut h.symm]

/-- **Both masks cut an address alike**, for every prefix length. -/
theorem applyMask_eq (addr : In6Addr) (mask : UInt8) : applyMask addr mask = addr.applyMask mask := by
  by_cases h0 : mask = 0
  · subst h0
    rfl
  refine Subtype.ext ?_
  rw [val_applyMask addr rfl]
  unfold applyMask
  rw [if_neg h0]
  dsimp only
  split
  · rename_i hcut
    -- a byte is cut, so the mask ends inside the address
    have hmask : ¬ mask > 128 := fun h => by
      have hgt : 128 < mask.toNat := h
      omega
    rw [if_neg hmask]
    refine map_congr_left fun i _ => ?_
    rw [shiftLeft_eq_not_shiftRight _ (Nat.mod_lt _ (by decide)) hcut.1]
    by_cases hi : i = mask.toNat / 8
    · rw [if_pos hi, if_pos (show i = mask.toNat / 8 ∧ mask.toNat % 8 ≠ 0 by omega)]
    · rw [if_neg hi, if_neg (show ¬ (i = mask.toNat / 8 ∧ mask.toNat % 8 ≠ 0) from fun h => hi h.1)]
  · refine map_congr_left fun i hi => ?_
    have hi' := mem_range.mp hi
    by_cases hmask : mask > 128
    · have hgt : 128 < mask.toNat := hmask
      rw [if_pos hmask, if_pos (show i < mask.toNat / 8 by omega), if_pos (show i < 128 / 8 by omega)]
    · rw [if_neg hmask, if_neg (show ¬ (i = mask.toNat / 8 ∧ mask.toNat % 8 ≠ 0) by omega)]

theorem applyMask_full (addr : In6Addr) : addr.applyMask 128 = addr := by
  refine Subtype.ext ?_
  obtain ⟨bytes, hlen⟩ := addr
  rw [val_applyMask _ (show _ = 128 from rfl)]
  refine ext_getElem (by rw [length_map, length_range, hlen]) fun i _ hi => ?_
  have hi' : i < 128 / 8 := lt_of_lt_of_eq hi hlen
  rw [getElem_map, getElem_range, if_pos hi', getD_eq_getElem?_getD,
    getElem?_eq_getElem hi, Option.getD_some]

section Fields

variable {bytes : List UInt8}

variable (h : 44 ≤ bytes.length)

include h

theorem isIpv6Packet_eq : isIpv6Packet bytes = (ofBytes bytes).isIpv6 := by
  unfold isIpv6Packet isIpv6 ofBytes
  simp [show 40 ≤ bytes.length by omega]

theorem getNextHeader_eq : getNextHeader bytes = (ofBytes bytes).type := if_pos (by omega)

theorem getIcmpv6Type_eq : getIcmpv6Type bytes = (ofBytes bytes).icmpSubtype := if_pos (by omega)

theorem getSrcAddr_eq : getSrcAddr bytes = (ofBytes bytes).srcAddr := if_pos (by omega)

theorem getDstAddr_eq : getDstAddr bytes = (ofBytes bytes).destAddr := if_pos (by omega)

theorem getSrcPort_eq : getSrcPort bytes = swapPort (ofBytes bytes).srcPort := by
  unfold getSrcPort
  rw [if_pos (by omega), fromBeBytes_eq]
  rfl

theorem getDstPort_eq : getDstPort bytes = swapPort (ofBytes bytes).destPort := by
  unfold getDstPort
  rw [if_pos h, fromBeBytes_eq]
  rfl

end Fields

/-! ## 2. Rules carried over -/

/-- The rule of the port that corresponds to a C++ rule. -/
def PacketMatcherRule.ofRule (r : Rule) : PacketMatcherRule :=
  { protocol := .fromRaw r.type
    subtype := .fromRaw r.subtype
    localPort := swapPort r.localPort
    localPortMatch := r.localPortMatch
    localAddress := r.localAddress
    localMatchMask := r.localMatchMask
    remotePort := swapPort r.remotePort
    remotePortMatch := r.remotePortMatch
    remoteAddress := r.remoteAddress
    remoteMatchMask := r.remoteMatchMask }

theorem hasPorts_fromRaw (type : UInt8) : hasPorts (.fromRaw type) = Rule.hasPorts type := by
  unfold hasPorts Rule.hasPorts typeTcp typeUdp
  rw [Bool.eq_iff_iff]
  simp [fromRaw_eq_tcp, fromRaw_eq_udp]

theorem ite_swapPort (c : Bool) (port : UInt16) :
    (if c then swapPort port else 0) = swapPort (if c then port else 0) := by
  cases c with
  | false => exact (by decide : (0 : UInt16) = swapPort 0)
  | true => rfl

theorem ofRule_clear : ofRule Rule.clear = default := by
  decide

section Build

variable {bytes : List UInt8}

theorem packetSubtype_eq (h : 44 ≤ bytes.length) : packetSubtype (.fromRaw (ofBytes bytes).type) bytes =
      .fromRaw (Rule.packetSubtype (ofBytes bytes)) := by
  unfold packetSubtype Rule.packetSubtype
  rw [getIcmpv6Type_eq h]
  by_cases ht : (ofBytes bytes).type = typeIcmp
  · rw [if_pos ht, if_pos (fromRaw_eq_icmpv6.mpr ht)]
  · rw [if_neg ht, if_neg fun e => ht (fromRaw_eq_icmpv6.mp e)]
    rfl

theorem updateFromInboundPacket_eq (h : 44 ≤ bytes.length) : updateFromInboundPacket bytes =
      .ofRule (Rule.updateFromInboundPacket (ofBytes bytes)) := by
  unfold updateFromInboundPacket Rule.updateFromInboundPacket
  rw [isIpv6Packet_eq h]
  cases (ofBytes bytes).isIpv6
  · exact ofRule_clear.symm
  · simp only [Bool.not_true, Bool.false_eq_true, if_false, getNextHeader_eq h, getDstAddr_eq h,
      getSrcAddr_eq h, getDstPort_eq h, getSrcPort_eq h, hasPorts_fromRaw, packetSubtype_eq h,
      ite_swapPort, ofRule]

theorem updateFromOutboundPacket_eq (h : 44 ≤ bytes.length) : updateFromOutboundPacket bytes =
      .ofRule (Rule.updateFromOutboundPacket (ofBytes bytes)) := by
  unfold updateFromOutboundPacket Rule.updateFromOutboundPacket
  rw [isIpv6Packet_eq h]
  cases (ofBytes bytes).isIpv6
  · exact ofRule_clear.symm
  · simp only [Bool.not_true, Bool.false_eq_true, if_false, getNextHeader_eq h, getDstAddr_eq h,
      getSrcAddr_eq h, getDstPort_eq h, getSrcPort_eq h, hasPorts_fromRaw, packetSubtype_eq h,
      ite_swapPort, ofRule]

end Build

/-! ## 3. Directions -/

/-- The two directions a rule is built from, and a packet is looked up in. -/
inductive Direction where
  | inbound
  | outbound
  deriving DecidableEq, Repr

namespace Direction

/-- The end of a packet that is local. -/
def localAddr : Direction → Packet → In6Addr
  | .inbound, p => p.destAddr
  | .outbound, p => p.srcAddr

def remoteAddr : Direction → Packet → In6Addr
  | .inbound, p => p.srcAddr
  | .outbound, p => p.destAddr

def localPort : Direction → Packet → InPort
  | .inbound, p => p.destPort
  | .outbound, p => p.srcPort

def remotePort : Direction → Packet → InPort
  | .inbound, p => p.srcPort
  | .outbound, p => p.destPort

end Direction

/-- The C++ rule of a packet in a direction. -/
def ruleOf : Direction → Packet → Rule
  | .inbound => Rule.updateFromInboundPacket
  | .outbound => Rule.updateFromOutboundPacket

def ruleMatches : Direction → Rule → Packet → Bool
  | .inbound => Rule.matchInbound
  | .outbound => Rule.matchOutbound

namespace PacketMatcherRule

/-- The port's rule of a packet in a direction. -/
def ofPacket : Direction → List UInt8 → PacketMatcherRule
  | .inbound => updateFromInboundPacket
  | .outbound => updateFromOutboundPacket

def matchesIn : Direction → PacketMatcherRule → List UInt8 → Bool
  | .inbound => matchInbound
  | .outbound => matchOutbound

/-- **The port builds the C++ rule, carried over.** -/
theorem ofPacket_eq (d : Direction) {bytes : List UInt8} (h : 44 ≤ bytes.length) :
    ofPacket d bytes = ofRule (ruleOf d (ofBytes bytes)) := by
  cases d with
  | inbound => exact updateFromInboundPacket_eq h
  | outbound => exact updateFromOutboundPacket_eq h

end PacketMatcherRule

/-! ## 4. When the answers agree -/

/-- The checks of ports and addresses, which both sides make alike. -/
structure PassesEnds (d : Direction) (r : Rule) (q : Packet) : Prop where
  localPort : r.localPortMatch = true → d.localPort q = r.localPort
  remotePort : r.remotePortMatch = true → d.remotePort q = r.remotePort
  localAddr : r.localMatchMask ≠ 0 → (d.localAddr q).applyMask r.localMatchMask = r.localAddress
  remoteAddr : r.remoteMatchMask ≠ 0 → (d.remoteAddr q).applyMask r.remoteMatchMask = r.remoteAddress

/-- The C++ check of type and subtype. -/
def TypeMatches (r : Rule) (q : Packet) : Prop :=
  r.type ≠ typeNone ∧
    (r.type = typeAll ∨ (r.type = q.type ∧ (r.subtype = subtypeAll ∨ r.subtype = q.icmpSubtype)))

theorem ruleMatches_iff (d : Direction) (r : Rule) (q : Packet) :
    ruleMatches d r q ↔ q.isIpv6 ∧ TypeMatches r q ∧ PassesEnds d r q := by
  have key : ruleMatches d r q =
      r.matchEnds q (d.localPort q) (d.remotePort q) (d.localAddr q) (d.remoteAddr q) := by
    cases d <;> rfl
  rw [key, Rule.matchEnds_iff]
  constructor
  · intro ⟨h6, hn, ht, hlp, hrp, hla, hra⟩
    exact ⟨h6, ⟨hn, ht⟩, ⟨hlp, hrp, hla, hra⟩⟩
  · intro ⟨h6, ⟨hn, ht⟩, he⟩
    exact ⟨h6, hn, ht, he.localPort, he.remotePort, he.localAddr, he.remoteAddr⟩

/-- The port's check of type and subtype, on a rule that is carried over. -/
def ProtocolMatches (r : Rule) (q : Packet) : Prop :=
  r.type ≠ typeNone ∧
    (¬ KnownProtocol r.type ∨ (r.type = q.type ∧ (¬ KnownSubtype r.subtype ∨ r.subtype = q.icmpSubtype)))

variable {bytes p : List UInt8}

theorem matchesProtocol_ofRule (h : 44 ≤ bytes.length) (r : Rule) :
    (ofRule r).matchesProtocol bytes ↔ ProtocolMatches r (ofBytes bytes) := by
  rw [matchesProtocol_iff, getNextHeader_eq h, getIcmpv6Type_eq h]
  unfold ofRule ProtocolMatches typeNone
  simp only [ne_eq, fromRaw_eq_none, fromRaw_eq_all, Icmpv6Subtype.fromRaw_eq_all]
  refine and_congr_right fun hnone => ?_
  rw [and_iff_left hnone]
  refine or_congr_right' fun hp => ?_
  rw [fromRaw_inj (not_not.mp hp)]
  refine and_congr_right fun _ => or_congr_right' fun hs => ?_
  rw [Icmpv6Subtype.fromRaw_inj (not_not.mp hs)]

theorem matchesIn_iff (h : 44 ≤ bytes.length) (d : Direction) (r : Rule) :
    matchesIn d (.ofRule r) bytes ↔
      (ofBytes bytes).isIpv6 ∧ ProtocolMatches r (ofBytes bytes) ∧ PassesEnds d r (ofBytes bytes) := by
  have key : matchesIn d (.ofRule r) bytes =
      (ofRule r).matchEnds bytes (swapPort (d.localPort (ofBytes bytes)))
        (swapPort (d.remotePort (ofBytes bytes))) (d.localAddr (ofBytes bytes))
        (d.remoteAddr (ofBytes bytes)) := by
    cases d with
    | inbound =>
      show matchInbound (.ofRule r) bytes = _
      unfold matchInbound
      rw [getDstPort_eq h, getSrcPort_eq h, getDstAddr_eq h, getSrcAddr_eq h]
      rfl
    | outbound =>
      show matchOutbound (.ofRule r) bytes = _
      unfold matchOutbound
      rw [getDstPort_eq h, getSrcPort_eq h, getDstAddr_eq h, getSrcAddr_eq h]
      rfl
  rw [key, matchEnds_iff, isIpv6Packet_eq h, matchesProtocol_ofRule h]
  simp only [ofRule, swapPort_inj, applyMask_eq, gt_iff_lt, UInt8.pos_iff_ne_zero]
  constructor
  · intro ⟨h6, ht, hlp, hrp, hla, hra⟩
    exact ⟨h6, ht, ⟨fun e => (hlp e).symm, fun e => (hrp e).symm, hla, hra⟩⟩
  · intro ⟨h6, ht, he⟩
    exact ⟨h6, ht, fun e => (he.localPort e).symm, fun e => (he.remotePort e).symm, he.localAddr,
      he.remoteAddr⟩

/-- Two tests that share all their checks but one agree unless the shared ones pass and this one
    differs. -/
theorem matches_agree_iff (h : 44 ≤ bytes.length) (d : Direction) (r : Rule) :
    matchesIn d (.ofRule r) bytes = ruleMatches d r (ofBytes bytes) ↔
      ((ofBytes bytes).isIpv6 → PassesEnds d r (ofBytes bytes) →
        (ProtocolMatches r (ofBytes bytes) ↔ TypeMatches r (ofBytes bytes))) := by
  rw [Bool.eq_iff_iff, matchesIn_iff h, ruleMatches_iff]
  simp

/-! ## 5. Rules of packets -/

section Packets

/-- The addresses of `q` pass the checks of the rule of `p`; a multicast destination of an inbound
    packet is not checked. -/
def SameEnds (built matched : Direction) (p q : Packet) : Prop :=
  ((built = .inbound ∧ p.destAddr.isMulticast = true) ∨ matched.localAddr q = built.localAddr p) ∧
  matched.remoteAddr q = built.remoteAddr p

/-- A byte of `p` that the port's enumeration turns into `All`, where `q` has another one. -/
def Widened (p q : Packet) : Prop :=
  (¬ KnownProtocol p.type ∧ p.type ≠ typeAll ∧ p.type ≠ typeNone ∧ q.type ≠ p.type) ∨
  (p.type = typeIcmp ∧ q.type = typeIcmp ∧ ¬ KnownSubtype p.icmpSubtype ∧
    p.icmpSubtype ≠ subtypeAll ∧ q.icmpSubtype ≠ p.icmpSubtype)

variable {p q : Packet}

theorem ruleOf_type (d : Direction) (hp : p.isIpv6) : (ruleOf d p).type = p.type := by
  cases d
  · simp [ruleOf, Rule.updateFromInboundPacket, hp]
  · simp [ruleOf, Rule.updateFromOutboundPacket, hp]

theorem ruleOf_subtype (d : Direction) (hp : p.isIpv6) : (ruleOf d p).subtype = Rule.packetSubtype p := by
  cases d
  · simp [ruleOf, Rule.updateFromInboundPacket, hp]
  · simp [ruleOf, Rule.updateFromOutboundPacket, hp]

theorem passesEnds_ruleOf (built matched : Direction) (hp : p.isIpv6)
    (hports : Rule.hasPorts p.type = false) :
    PassesEnds matched (ruleOf built p) q ↔ SameEnds built matched p q := by
  have h128 : (128 : UInt8) ≠ 0 := by decide
  constructor
  · intro ⟨_, _, hl, hr⟩
    cases built with
    | inbound =>
      simp only [ruleOf, Rule.updateFromInboundPacket, hp, Bool.not_true] at hl hr
      refine ⟨?_, ?_⟩
      · cases hm : p.destAddr.isMulticast with
        | true => exact .inl ⟨rfl, rfl⟩
        | false =>
          rw [hm] at hl
          exact .inr ((applyMask_full _).symm.trans (hl h128))
      · exact (applyMask_full _).symm.trans (hr h128)
    | outbound =>
      simp only [ruleOf, Rule.updateFromOutboundPacket, hp, Bool.not_true] at hl hr
      exact ⟨.inr ((applyMask_full _).symm.trans (hl h128)), (applyMask_full _).symm.trans (hr h128)⟩
  · intro ⟨hl, hr⟩
    cases built with
    | inbound =>
      simp only [ruleOf, Rule.updateFromInboundPacket, hp, hports, Bool.not_true]
      refine ⟨fun h => absurd h Bool.false_ne_true, fun h => absurd h Bool.false_ne_true,
        fun hm => ?_, fun _ => (applyMask_full _).trans hr⟩
      cases hmc : p.destAddr.isMulticast with
      | true => exact absurd (if_pos hmc) hm
      | false =>
        rcases hl with ⟨_, hmc'⟩ | hl
        · rw [hmc] at hmc'
          cases hmc'
        · exact (applyMask_full _).trans hl
    | outbound =>
      simp only [ruleOf, Rule.updateFromOutboundPacket, hp, hports, Bool.not_true]
      have hl : matched.localAddr q = p.srcAddr := hl.resolve_left fun h => nomatch h.1
      exact ⟨fun h => absurd h Bool.false_ne_true, fun h => absurd h Bool.false_ne_true,
        fun _ => (applyMask_full _).trans hl, fun _ => (applyMask_full _).trans hr⟩

/-- **On the rule of a packet**, the two protocol checks differ exactly on a widened byte. -/
theorem protocolMatches_iff_typeMatches (d : Direction) (hp : p.isIpv6) :
    (ProtocolMatches (ruleOf d p) q ↔ TypeMatches (ruleOf d p) q) ↔ ¬ Widened p q := by
  unfold ProtocolMatches TypeMatches Widened
  rw [ruleOf_type d hp, ruleOf_subtype d hp]
  unfold Rule.packetSubtype
  by_cases hicmp : p.type = typeIcmp
  · have hknown : KnownProtocol typeIcmp := by decide
    have hall : typeIcmp ≠ typeAll := by decide
    have hnone : typeIcmp ≠ typeNone := by decide
    have hsub : p.icmpSubtype = subtypeAll → ¬ KnownSubtype p.icmpSubtype := by
      intro h
      rw [h]
      decide
    rw [hicmp]
    grind
  · have hsub : ¬ KnownSubtype subtypeAll := by decide
    have hall : p.type = typeAll → ¬ KnownProtocol p.type := by
      intro h
      rw [h]
      decide
    rw [if_neg hicmp]
    grind

theorem hasPorts_of_widened (h : Widened p q) : Rule.hasPorts p.type = false := by
  unfold Widened KnownProtocol typeIcmp at h
  unfold Rule.hasPorts typeTcp typeUdp
  grind

end Packets

/-- **Port and C++ daemon agree on a packet**, unless its addresses pass and the rule's protocol byte or
    ICMPv6 type is one that the port does not know. -/
theorem packetRules_agree_iff (built matched : Direction) (p q : List UInt8)
    (hp : 44 ≤ p.length) (hq : 44 ≤ q.length) (hp6 : (Packet.ofBytes p).isIpv6 = true)
    (hq6 : (Packet.ofBytes q).isIpv6 = true) :
    PacketMatcherRule.matchesIn matched (.ofPacket built p) q =
        ruleMatches matched (ruleOf built (Packet.ofBytes p)) (Packet.ofBytes q) ↔
      ¬ (SameEnds built matched (Packet.ofBytes p) (Packet.ofBytes q) ∧
        Widened (Packet.ofBytes p) (Packet.ofBytes q)) := by
  rw [ofPacket_eq built hp, matches_agree_iff hq, protocolMatches_iff_typeMatches built hp6]
  constructor
  · intro h ⟨hends, hw⟩
    exact h hq6 ((passesEnds_ruleOf built matched hp6 (hasPorts_of_widened hw)).mpr hends) hw
  · intro h _ hends hw
    exact h ⟨(passesEnds_ruleOf built matched hp6 (hasPorts_of_widened hw)).mp hends, hw⟩

/-- A bare IPv6 header with the given next header, from `::1` to `::2`, and four bytes. -/
def headerWith (next b : UInt8) : List UInt8 :=
  [0x60, 0, 0, 0, 0, 4, next, 64] ++ (List.replicate 15 0 ++ [1]) ++ (List.replicate 15 0 ++ [2]) ++
    [b, 0, 0, 0]

/-- The rule of an SCTP packet and a TCP packet between the same hosts. -/
theorem unknown_header_matches_tcp :
    PacketMatcherRule.matchesIn .inbound (.ofPacket .inbound (headerWith 132 1)) (headerWith 6 1) =
        true ∧
      ruleMatches .inbound (ruleOf .inbound (Packet.ofBytes (headerWith 132 1)))
        (Packet.ofBytes (headerWith 6 1)) = false := by
  decide +kernel

/-- Two TCP packets of one pair of hosts. -/
theorem packetRules_agree_on_tcp :
    PacketMatcherRule.matchesIn .inbound (.ofPacket .inbound (headerWith 6 1)) (headerWith 6 2) =
      ruleMatches .inbound (ruleOf .inbound (Packet.ofBytes (headerWith 6 1)))
        (Packet.ofBytes (headerWith 6 2)) :=
  (packetRules_agree_iff .inbound .inbound (headerWith 6 1) (headerWith 6 2) (by decide) (by decide)
    (by decide) (by decide)).mpr (fun h => absurd h.2 (by unfold Widened; decide))

/-! ## 6. Answers -/

/-- A TCP or UDP packet that is long enough for its ports. -/
structure PortPacket (bytes : List UInt8) : Prop where
  length : 44 ≤ bytes.length
  ipv6 : isIpv6Packet bytes = true
  protocol : getNextHeader bytes = typeTcp ∨ getNextHeader bytes = typeUdp

theorem PortPacket.outboundRule (h : PortPacket p) : updateFromOutboundPacket p =
      ⟨.fromRaw (getNextHeader p), .all, getSrcPort p, true, getSrcAddr p, 128, getDstPort p, true,
        getDstAddr p, 128⟩ := by
  have hports : hasPorts (.fromRaw (getNextHeader p)) := by
    rcases h.protocol with e | e <;> rw [e] <;> decide
  have hicmp : fromRaw (getNextHeader p) ≠ .icmpv6 := by
    rcases h.protocol with e | e <;> rw [e] <;> decide
  unfold updateFromOutboundPacket packetSubtype
  simp only [h.ipv6, hports, hicmp, Bool.not_true, Bool.false_eq_true, if_false, if_true]

theorem PortPacket.knownProtocol (h : PortPacket p) : KnownProtocol (getNextHeader p) := by
  rcases h.protocol with e | e <;> rw [e] <;> decide

/-- **The rule of an outbound packet lets in the answers to it**, and no other packets. -/
theorem answer_matches_iff {p q : List UInt8} (hp : PortPacket p) (hq : PortPacket q) :
    (PacketMatcherRule.updateFromOutboundPacket p).matchInbound q = true ↔
      getNextHeader q = getNextHeader p ∧
        (getSrcAddr q = getDstAddr p ∧ getSrcPort q = getDstPort p) ∧
        (getDstAddr q = getSrcAddr p ∧ getDstPort q = getSrcPort p) := by
  have hknown := hp.knownProtocol
  have hnone : fromRaw (getNextHeader p) ≠ .none := by
    rcases hp.protocol with e | e <;> rw [e] <;> decide
  have hall : fromRaw (getNextHeader p) ≠ .all := by
    rcases hp.protocol with e | e <;> rw [e] <;> decide
  have h128 : (128 : UInt8) > 0 := by decide
  rw [hp.outboundRule, matchInbound, matchEnds_iff, matchesProtocol_iff]
  simp only [hq.ipv6, hnone, hall, h128, applyMask_eq, applyMask_full, fromRaw_inj hknown,
    ne_eq, not_false_eq_true, true_and, true_implies, false_or, true_or, and_true]
  constructor
  · intro ⟨htype, hlocal, hremote, hdst, hsrc⟩
    exact ⟨htype.symm, ⟨hsrc, hremote.symm⟩, hdst, hlocal.symm⟩
  · intro ⟨htype, ⟨hsrc, hremote⟩, hdst, hlocal⟩
    exact ⟨htype.symm, hlocal.symm, hremote.symm, hdst, hsrc⟩

/-- A UDP packet between two hosts, with the given ends. -/
def udpPacket (src dst : UInt8) (srcPort dstPort : UInt8) : List UInt8 :=
  [0x60, 0, 0, 0, 0, 8, 17, 64, 0xfd] ++ (List.replicate 14 0 ++ [src]) ++
    (0xfd :: List.replicate 14 0 ++ [dst]) ++ [0, srcPort, 0, dstPort, 0, 8, 0, 0]

/-- An answer, and a packet to another port. -/
theorem answer_matches_udp :
    (PacketMatcherRule.updateFromOutboundPacket (udpPacket 1 2 10 20)).matchInbound
        (udpPacket 2 1 20 10) = true ∧
      ¬ (PacketMatcherRule.updateFromOutboundPacket (udpPacket 1 2 10 20)).matchInbound
        (udpPacket 2 1 20 11) = true := by
  have hp : PortPacket (udpPacket 1 2 10 20) := ⟨by decide, by decide, by decide⟩
  refine ⟨(answer_matches_iff hp ⟨by decide, by decide, by decide⟩).mpr (by decide), ?_⟩
  decide

/-! ## 7. Masks as prefixes -/

/-- Bit `i` of an address, the first one on top. -/
def addrBit (a : In6Addr) (i : Nat) : Bool := (a.val.getD (i / 8) 0).toNat.testBit (7 - i % 8)

theorem addr_ext {a b : In6Addr} (h : ∀ i < 128, addrBit a i = addrBit b i) : a = b := by
  refine Subtype.ext (ext_getElem (by rw [a.2, b.2]) fun q hq hq' => ?_)
  refine UInt8.toNat_inj.mp (Nat.eq_of_testBit_eq fun j => ?_)
  have hq16 : q < 16 := by rw [← a.2]; exact hq
  by_cases hj : j < 8
  · have hbit := h (8 * q + (7 - j)) (by omega)
    have hbyte : (8 * q + (7 - j)) / 8 = q := by omega
    have hplace : 7 - (8 * q + (7 - j)) % 8 = j := by omega
    rw [addrBit, addrBit, hbyte, hplace] at hbit
    simpa [hq, hq'] using hbit
  · have hover : ∀ x : UInt8, x.toNat.testBit j = false := fun x =>
      Nat.testBit_lt_two_pow (Nat.lt_of_lt_of_le x.toNat_lt (Nat.pow_le_pow_right (by decide) (by omega)))
    rw [hover, hover]

theorem testBit_cut : ∀ k < 8, ∀ r < 8,
    (~~~((0xFF : UInt8) >>> UInt8.ofNat k)).toNat.testBit (7 - r) = decide (r < k) := by
  decide

/-- **A mask keeps the bits before it and clears the others.** -/
theorem addrBit_applyMask (a : In6Addr) (n : UInt8) {i : Nat} (hi : i < 128) :
    addrBit (a.applyMask n) i = (decide (i < n.toNat) && addrBit a i) := by
  have hbits : ∃ bits, (if n > 128 then 128 else n.toNat) = bits ∧ (i < n.toNat ↔ i < bits) := by
    refine ⟨_, rfl, ?_⟩
    split
    · rename_i h
      have hgt : 128 < n.toNat := h
      omega
    · exact Iff.rfl
  obtain ⟨bits, hbits, hlt⟩ := hbits
  have hq : i / 8 < 16 := by omega
  rw [addrBit, addrBit, val_applyMask a hbits, getD_eq_getElem?_getD]
  simp only [hlt, hq, getElem?_map, getElem?_range, Option.map_some, Option.getD_some]
  by_cases hfull : i / 8 < bits / 8
  · rw [if_pos hfull, decide_eq_true (show i < bits by omega), Bool.true_and]
  · rw [if_neg hfull]
    by_cases hcut : i / 8 = bits / 8 ∧ bits % 8 ≠ 0
    · rw [if_pos hcut, UInt8.toNat_and, Nat.testBit_and,
        testBit_cut _ (Nat.mod_lt _ (by decide)) _ (Nat.mod_lt _ (by decide)), Bool.and_comm]
      congr 1
      exact decide_eq_decide.mpr (by omega)
    · rw [if_neg hcut, decide_eq_false (show ¬ i < bits by omega)]
      simp

/-- **Masks are prefixes.** Both implementations agree, two masks cut like the shorter one, and a mask
    identifies exactly the addresses that agree on its bits. -/
theorem applyMask_prefix (a b : In6Addr) (m n : UInt8) : applyMask a n = a.applyMask n ∧
      (a.applyMask m).applyMask n = a.applyMask (min m n) ∧
      (a.applyMask n = b.applyMask n ↔ ∀ i < min n.toNat 128, addrBit a i = addrBit b i) := by
  refine ⟨applyMask_eq a n, addr_ext fun i hi => ?_, fun h i hi => ?_, fun h => addr_ext fun i hi => ?_⟩
  · have hmin : (min m n).toNat = min m.toNat n.toNat := by
      show (if m ≤ n then m else n).toNat = _
      split
      · rename_i h
        exact (Nat.min_eq_left h).symm
      · rename_i h
        exact (Nat.min_eq_right (Nat.le_of_lt (Nat.lt_of_not_le h))).symm
    rw [addrBit_applyMask _ _ hi, addrBit_applyMask _ _ hi, addrBit_applyMask _ _ hi, ← Bool.and_assoc,
      ← Bool.decide_and]
    congr 1
    exact decide_eq_decide.mpr (by omega)
  · obtain ⟨hn, h128⟩ := Nat.lt_min.mp hi
    have hbit := congrArg (addrBit · i) h
    simpa [addrBit_applyMask _ _ h128, hn] using hbit
  · rw [addrBit_applyMask _ _ hi, addrBit_applyMask _ _ hi]
    by_cases hn : i < n.toNat
    · rw [h i (Nat.lt_min.mpr ⟨hn, hi⟩)]
    · simp [hn]

end DcuDaemon.Tun
