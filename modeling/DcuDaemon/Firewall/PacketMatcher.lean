/-
  Packet-matching rules (`src/util/IPv6PacketMatcher.cpp`, `src/util/IPv6Helpers.cpp`).

  A packet is the memory from its first byte on, with a length that the rules never look at: ports and
  ICMP type are read at fixed places whatever the length is.

  Main results: `outbound_of_reply`, `sameFlow_of_rule`.
-/
import DcuDaemon.Lib.StdSet

namespace DcuDaemon.Firewall

open Lib

/-! ## 1. Packets and addresses -/

/-- The memory at `ip_packet`, and `packet_length`. -/
structure Packet where
  byte : Nat → UInt8
  length : Nat

/-- A packet that is followed by zeros. -/
def Packet.ofBytes (bytes : List UInt8) : Packet := ⟨fun i => bytes.getD i 0, bytes.length⟩

/-- A packet in a buffer: `behind` is what the buffer holds behind it. -/
def Packet.inBuffer (bytes : List UInt8) (behind : Nat → UInt8) : Packet :=
  ⟨fun i => if i < bytes.length then bytes.getD i 0 else behind i, bytes.length⟩

/-- `struct in6_addr`: 16 bytes. -/
abbrev In6Addr := { bytes : List UInt8 // bytes.length = 16 }

/-- `in_port_t`, as the 16-bit word that is read from the packet. -/
abbrev InPort := UInt16

namespace Packet

/-- `PACKET_IS_IPV6`. -/
def isIpv6 (p : Packet) : Bool := p.byte 0 &&& 0xF0 == 0x60

/-- `IPV6_GET_TYPE`. -/
def type (p : Packet) : UInt8 := p.byte 6

/-- A 16-bit load, on a little-endian host. -/
def load16 (p : Packet) (offset : Nat) : UInt16 :=
  (p.byte offset).toUInt16 ||| ((p.byte (offset + 1)).toUInt16 <<< 8)

def srcPort (p : Packet) : InPort := p.load16 40
def destPort (p : Packet) : InPort := p.load16 42

/-- `memcpy` of an address. -/
def address (p : Packet) (offset : Nat) : In6Addr :=
  ⟨(List.range 16).map fun i => p.byte (offset + i), by simp⟩

def srcAddr (p : Packet) : In6Addr := p.address 8
def destAddr (p : Packet) : In6Addr := p.address 24

/-- `IPV6_ICMP_GET_SUBTYPE`. -/
def icmpSubtype (p : Packet) : UInt8 := p.byte 40

end Packet

/-- `is_valid_ipv6_packet`, with `MINIMUM_IPV6_PACKET_SIZE`. -/
def isValidIpv6Packet (p : Packet) : Bool := p.length > 40 && p.isIpv6

namespace In6Addr

def zero : In6Addr := ⟨List.replicate 16 0, List.length_replicate⟩

/-- `IN6_IS_ADDR_MULTICAST`. -/
def isMulticast (a : In6Addr) : Bool := a.val.getD 0 0 == 0xFF

/-- `IN6_IS_ADDR_LINKLOCAL`. -/
def isLinkLocal (a : In6Addr) : Bool := a.val.getD 0 0 == 0xFE && a.val.getD 1 0 &&& 0xC0 == 0x80

/-- `in6_addr_apply_mask`: the bytes behind the mask are zeroed, the byte it ends in is cut. -/
def applyMask (a : In6Addr) (mask : UInt8) : In6Addr :=
  let m := if mask > 128 then 128 else mask.toNat
  ⟨(List.range 16).map fun i =>
    let b := if i < (m + 7) / 8 then a.val.getD i 0 else 0
    if m % 8 ≠ 0 ∧ i = m / 8 then b &&& ~~~((0xFF : UInt8) >>> UInt8.ofNat (m % 8)) else b, by simp⟩

end In6Addr

/-! ## 2. Rules -/

def typeAll : UInt8 := 0xFF
def typeNone : UInt8 := 0xFE
def typeUdp : UInt8 := 17
def typeTcp : UInt8 := 6
def typeIcmp : UInt8 := 58
def typeHopByHop : UInt8 := 0
def subtypeAll : UInt8 := 0xFF
def subtypeIcmpNeighborAdv : UInt8 := 136
def subtypeIcmpNeighborSol : UInt8 := 135
def subtypeIcmpRouterSol : UInt8 := 133
def subtypeIcmpRouterAdv : UInt8 := 134
def subtypeIcmpRedirect : UInt8 := 137

/-- `IPv6PacketMatcherRule`. -/
structure Rule where
  type : UInt8
  subtype : UInt8
  localPort : InPort
  localPortMatch : Bool
  localAddress : In6Addr
  localMatchMask : UInt8
  remotePort : InPort
  remotePortMatch : Bool
  remoteAddress : In6Addr
  remoteMatchMask : UInt8
  deriving DecidableEq

namespace Rule

/-- `clear`: all zero, but every type and subtype. -/
def clear : Rule := ⟨typeAll, subtypeAll, 0, false, .zero, 0, 0, false, .zero, 0⟩

def hasPorts (type : UInt8) : Bool := type == typeTcp || type == typeUdp

def packetSubtype (p : Packet) : UInt8 := if p.type = typeIcmp then p.icmpSubtype else subtypeAll

/-- `update_from_inbound_packet`: local is the destination; a multicast destination is left out. -/
def updateFromInboundPacket (p : Packet) : Rule :=
  if !p.isIpv6 then clear
  else
    { type := p.type
      subtype := packetSubtype p
      localPort := if hasPorts p.type then p.destPort else 0
      localPortMatch := hasPorts p.type
      localAddress := if p.destAddr.isMulticast then .zero else p.destAddr
      localMatchMask := if p.destAddr.isMulticast then 0 else 128
      remotePort := if hasPorts p.type then p.srcPort else 0
      remotePortMatch := hasPorts p.type
      remoteAddress := p.srcAddr
      remoteMatchMask := 128 }

/-- `update_from_outbound_packet`: local is the source. -/
def updateFromOutboundPacket (p : Packet) : Rule :=
  if !p.isIpv6 then clear
  else
    { type := p.type
      subtype := packetSubtype p
      localPort := if hasPorts p.type then p.srcPort else 0
      localPortMatch := hasPorts p.type
      localAddress := p.srcAddr
      localMatchMask := 128
      remotePort := if hasPorts p.type then p.destPort else 0
      remotePortMatch := hasPorts p.type
      remoteAddress := p.destAddr
      remoteMatchMask := 128 }

/-- The checks of `match_inbound` and `match_outbound`, which differ in the end of the packet that
    is local. -/
def matchEnds (r : Rule) (p : Packet) (localPort remotePort : InPort)
    (localAddr remoteAddr : In6Addr) : Bool :=
  if !p.isIpv6 then false
  else if r.type = typeNone then false
  else if r.type ≠ typeAll ∧
      (r.type ≠ p.type ∨ (r.subtype ≠ subtypeAll ∧ r.subtype ≠ p.icmpSubtype)) then false
  else if r.localPortMatch ∧ localPort ≠ r.localPort then false
  else if r.remotePortMatch ∧ remotePort ≠ r.remotePort then false
  else if r.localMatchMask ≠ 0 ∧ localAddr.applyMask r.localMatchMask ≠ r.localAddress then false
  else if r.remoteMatchMask ≠ 0 ∧ remoteAddr.applyMask r.remoteMatchMask ≠ r.remoteAddress then
    false
  else true

def matchInbound (r : Rule) (p : Packet) : Bool := r.matchEnds p p.destPort p.srcPort p.destAddr p.srcAddr

def matchOutbound (r : Rule) (p : Packet) : Bool := r.matchEnds p p.srcPort p.destPort p.srcAddr p.destAddr

/-- The value of a flag in a comparison. -/
def flag (b : Bool) : Nat := if b then 1 else 0

/-- `operator<`, field by field in the source's order. -/
def lt (a b : Rule) : Bool :=
  thenCompare a.type.toNat b.type.toNat <|
  thenCompare a.subtype.toNat b.subtype.toNat <|
  thenCompare a.localPort.toNat b.localPort.toNat <|
  thenCompare (flag a.localPortMatch) (flag b.localPortMatch) <|
  thenCompare a.localMatchMask.toNat b.localMatchMask.toNat <|
  thenMemcmp a.localAddress.val b.localAddress.val <|
  thenCompare a.remotePort.toNat b.remotePort.toNat <|
  thenCompare (flag a.remotePortMatch) (flag b.remotePortMatch) <|
  thenCompare a.remoteMatchMask.toNat b.remoteMatchMask.toNat <|
  thenMemcmp a.remoteAddress.val b.remoteAddress.val false

end Rule

open Rule

/-- **What a rule matches**, as one condition. -/
theorem Rule.matchEnds_iff (r : Rule) (p : Packet) (localPort remotePort : InPort)
    (localAddr remoteAddr : In6Addr) :
    r.matchEnds p localPort remotePort localAddr remoteAddr ↔
      p.isIpv6 ∧ r.type ≠ typeNone ∧
        (r.type = typeAll ∨ (r.type = p.type ∧ (r.subtype = subtypeAll ∨ r.subtype = p.icmpSubtype))) ∧
        (r.localPortMatch → localPort = r.localPort) ∧
        (r.remotePortMatch → remotePort = r.remotePort) ∧
        (r.localMatchMask ≠ 0 → localAddr.applyMask r.localMatchMask = r.localAddress) ∧
        (r.remoteMatchMask ≠ 0 → remoteAddr.applyMask r.remoteMatchMask = r.remoteAddress) := by
  have htype : ¬ (r.type ≠ typeAll ∧
      (r.type ≠ p.type ∨ (r.subtype ≠ subtypeAll ∧ r.subtype ≠ p.icmpSubtype))) ↔
        r.type = typeAll ∨ (r.type = p.type ∧ (r.subtype = subtypeAll ∨ r.subtype = p.icmpSubtype)) := by
    rw [not_and_or, not_or, not_and_or, not_not, not_not, not_not, not_not]
  unfold matchEnds
  simp only [Bool.if_false_left, Bool.and_eq_true, Bool.and_true, Bool.not_eq_true',
    Bool.not_eq_false, decide_eq_false_iff_not, htype, ne_eq, not_and, not_not]

/-- `IPv6PacketMatcher`. -/
abbrev Matcher := StdSet Rule.lt

/-! ## 3. The order of rules -/

theorem flag_inj {a b : Bool} (h : flag a = flag b) : a = b := by
  cases a <;> cases b
  · rfl
  · cases h
  · cases h
  · rfl

/-- **The order of rules tells any two different rules apart.** -/
theorem rule_separates : Separates lt := by
  intro a b
  unfold equivalent
  rw [Bool.and_eq_true, Bool.not_eq_true', Bool.not_eq_true']
  unfold lt
  rw [thenCompare_separates, thenCompare_separates, thenCompare_separates, thenCompare_separates,
    thenCompare_separates,
    thenMemcmp_separates (a.localAddress.property.trans b.localAddress.property.symm),
    thenCompare_separates, thenCompare_separates, thenCompare_separates,
    thenMemcmp_separates (a.remoteAddress.property.trans b.remoteAddress.property.symm)]
  constructor
  · rintro ⟨h1, h2, h3, h4, h5, h6, h7, h8, h9, h10, _⟩
    cases a
    cases b
    simp only [mk.injEq]
    exact ⟨UInt8.toNat_inj.mp h1, UInt8.toNat_inj.mp h2, UInt16.toNat_inj.mp h3, flag_inj h4,
      Subtype.ext h6, UInt8.toNat_inj.mp h5, UInt16.toNat_inj.mp h7, flag_inj h8, Subtype.ext h10,
      UInt8.toNat_inj.mp h9⟩
  · rintro rfl
    exact ⟨rfl, rfl, rfl, rfl, rfl, rfl, rfl, rfl, rfl, rfl, rfl, rfl⟩

namespace Matcher

theorem count_iff (m : Matcher) (r : Rule) : m.count r ↔ r ∈ m := StdSet.count_iff rule_separates m r

theorem mem_insert (m : Matcher) (r r' : Rule) : r' ∈ m.insert r ↔ r' = r ∨ r' ∈ m :=
  StdSet.mem_insert rule_separates m r r'

theorem mem_erase (m : Matcher) (r r' : Rule) : r' ∈ m.erase r ↔ r' ≠ r ∧ r' ∈ m :=
  StdSet.mem_erase rule_separates m r r'

end Matcher

/-! ## 4. Flows -/

def Rule.anySubtype (r : Rule) : Rule := { r with subtype := subtypeAll }

/-- Two packets of one flow in one direction: protocol, addresses, and ports where there are
    any. -/
structure SameFlow (p q : Packet) : Prop where
  type : q.type = p.type
  src : q.srcAddr = p.srcAddr
  dest : q.destAddr = p.destAddr
  srcPort : Rule.hasPorts p.type = true → q.srcPort = p.srcPort
  destPort : Rule.hasPorts p.type = true → q.destPort = p.destPort

/-- A packet of the other direction. -/
structure Reply (p q : Packet) : Prop where
  type : q.type = p.type
  src : q.srcAddr = p.destAddr
  dest : q.destAddr = p.srcAddr
  srcPort : Rule.hasPorts p.type = true → q.srcPort = p.destPort
  destPort : Rule.hasPorts p.type = true → q.destPort = p.srcPort

theorem packetSubtype_of_hasPorts {p : Packet} (h : hasPorts p.type) : packetSubtype p = subtypeAll := by
  refine if_neg fun e => ?_
  rw [e] at h
  exact absurd h (by decide)

section Flow

variable {p q : Packet}

theorem inbound_unicast (hp : p.isIpv6) (hu : p.destAddr.isMulticast = false) :
    updateFromInboundPacket p =
      { type := p.type, subtype := packetSubtype p
        localPort := if hasPorts p.type then p.destPort else 0
        localPortMatch := hasPorts p.type
        localAddress := p.destAddr, localMatchMask := 128
        remotePort := if hasPorts p.type then p.srcPort else 0
        remotePortMatch := hasPorts p.type
        remoteAddress := p.srcAddr, remoteMatchMask := 128 } := by
  unfold updateFromInboundPacket
  simp [hp, hu]

/-- **A reply is looked up under the rule of what it answers**, up to the subtype. -/
theorem outbound_of_reply (hp : p.isIpv6) (hq : q.isIpv6)
    (hu : p.destAddr.isMulticast = false) (h : Reply p q) :
    (updateFromOutboundPacket q).anySubtype = (updateFromInboundPacket p).anySubtype := by
  rw [inbound_unicast hp hu]
  unfold updateFromOutboundPacket anySubtype
  simp only [hq, Bool.not_true, Bool.false_eq_true, if_false, h.type, h.src, h.dest, mk.injEq,
    true_and, and_true]
  by_cases hports : hasPorts p.type
  · rw [if_pos hports, if_pos hports, if_pos hports, if_pos hports, h.srcPort hports, h.destPort hports]
    exact ⟨rfl, rfl⟩
  · rw [if_neg hports, if_neg hports, if_neg hports, if_neg hports]
    exact ⟨rfl, rfl⟩

/-- **Packets of one rule are of one flow**, when the destination is unicast. -/
theorem sameFlow_of_rule (hp : p.isIpv6) (hq : q.isIpv6)
    (hu : p.destAddr.isMulticast = false)
    (h : (updateFromInboundPacket q).anySubtype =
      (updateFromInboundPacket p).anySubtype) : SameFlow p q := by
  have huq : q.destAddr.isMulticast = false := by
    have hmask := congrArg localMatchMask h
    rw [inbound_unicast hp hu] at hmask
    cases hm : q.destAddr.isMulticast with
    | false => rfl
    | true =>
      unfold updateFromInboundPacket anySubtype at hmask
      simp only [hq, hm, Bool.not_true, Bool.false_eq_true, if_false, if_true] at hmask
      exact absurd hmask (by decide)
  rw [inbound_unicast hp hu, inbound_unicast hq huq] at h
  simp only [anySubtype, mk.injEq, true_and, and_true] at h
  obtain ⟨ht, hdp, _, hd, hsp, _, hs⟩ := h
  refine ⟨ht, hs, hd, fun hports => ?_, fun hports => ?_⟩
  · rw [ht, if_pos hports, if_pos hports] at hsp
    exact hsp
  · rw [ht, if_pos hports, if_pos hports] at hdp
    exact hdp

end Flow

end DcuDaemon.Firewall
