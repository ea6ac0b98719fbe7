/-
  The packet-matching rules of the port (`crates/dcu-tun/src/packet_matcher.rs`).

  A packet is a byte slice. The next header and the ICMPv6 type go through an enumeration before they
  are kept or compared; ports are read in network order; an address is 16 octets, as in the C++ model.

  Main definitions: `PacketMatcherRule.matchInbound`, `matchOutbound`. Main result: `matchEnds_iff`.
-/
import DcuDaemon.Firewall.PacketMatcher

namespace DcuDaemon.Tun

open Firewall (In6Addr)

/-! ## 1. Protocol and subtype -/

inductive ProtocolType where
  | all
  | none
  | hopByHop
  | tcp
  | udp
  | icmpv6
  deriving DecidableEq, Repr

/-- `ProtocolType::from_raw`: an unknown next header is `All`. -/
def ProtocolType.fromRaw (val : UInt8) : ProtocolType :=
  if val = 0 then .hopByHop
  else if val = 6 then .tcp
  else if val = 17 then .udp
  else if val = 58 then .icmpv6
  else if val = 0xFF then .all
  else if val = 0xFE then .none
  else .all

inductive Icmpv6Subtype where
  | all
  | routerSol
  | routerAdv
  | neighborSol
  | neighborAdv
  | redirect
  deriving DecidableEq, Repr

/-- `Icmpv6Subtype::from_raw`: every other ICMPv6 type is `All`. -/
def Icmpv6Subtype.fromRaw (val : UInt8) : Icmpv6Subtype :=
  if val = 133 then .routerSol
  else if val = 134 then .routerAdv
  else if val = 135 then .neighborSol
  else if val = 136 then .neighborAdv
  else if val = 137 then .redirect
  else .all

def KnownProtocol (val : UInt8) : Prop := val = 0 ∨ val = 6 ∨ val = 17 ∨ val = 58

def KnownSubtype (val : UInt8) : Prop := val = 133 ∨ val = 134 ∨ val = 135 ∨ val = 136 ∨ val = 137

instance (val : UInt8) : Decidable (KnownProtocol val) := inferInstanceAs (Decidable (_ ∨ _))

instance (val : UInt8) : Decidable (KnownSubtype val) := inferInstanceAs (Decidable (_ ∨ _))

variable {val a b : UInt8}

theorem ProtocolType.fromRaw_eq_none : fromRaw val = .none ↔ val = 0xFE := by
  unfold fromRaw
  grind -ring -linarith

theorem ProtocolType.fromRaw_eq_all : fromRaw val = .all ↔ ¬ KnownProtocol val ∧ val ≠ 0xFE := by
  unfold fromRaw KnownProtocol
  grind -ring -linarith

theorem ProtocolType.fromRaw_eq_tcp : fromRaw val = .tcp ↔ val = 6 := by
  unfold fromRaw
  grind -ring -linarith

theorem ProtocolType.fromRaw_eq_udp : fromRaw val = .udp ↔ val = 17 := by
  unfold fromRaw
  grind -ring -linarith

theorem ProtocolType.fromRaw_eq_icmpv6 : fromRaw val = .icmpv6 ↔ val = 58 := by
  unfold fromRaw
  grind -ring -linarith

theorem ProtocolType.fromRaw_inj (h : KnownProtocol a) : fromRaw a = fromRaw b ↔ a = b := by
  unfold KnownProtocol at h
  unfold fromRaw
  grind -ring -linarith

theorem Icmpv6Subtype.fromRaw_eq_all : fromRaw val = .all ↔ ¬ KnownSubtype val := by
  unfold fromRaw KnownSubtype
  grind -ring -linarith

theorem Icmpv6Subtype.fromRaw_inj (h : KnownSubtype a) : fromRaw a = fromRaw b ↔ a = b := by
  unfold KnownSubtype at h
  unfold fromRaw
  grind -ring -linarith

/-! ## 2. Fields of a packet -/

variable (buf : List UInt8)

/-- `is_ipv6_packet`, with `IPV6_HEADER_LEN`. -/
def isIpv6Packet : Bool := buf.length ≥ 40 && buf.getD 0 0 &&& 0xF0 == 0x60

def getNextHeader : UInt8 := if buf.length ≥ 7 then buf.getD 6 0 else 0

def fromBeBytes (hi lo : UInt8) : UInt16 := (hi.toUInt16 <<< 8) ||| lo.toUInt16

def getSrcPort : UInt16 :=
  if buf.length ≥ 42 then fromBeBytes (buf.getD 40 0) (buf.getD 41 0) else 0

def getDstPort : UInt16 :=
  if buf.length ≥ 44 then fromBeBytes (buf.getD 42 0) (buf.getD 43 0) else 0

def getIcmpv6Type : UInt8 := if buf.length > 40 then buf.getD 40 0 else 0

/-- `copy_from_slice` of 16 octets. -/
def octetsAt (offset : Nat) : In6Addr := ⟨(List.range 16).map fun i => buf.getD (offset + i) 0, by simp⟩

def getSrcAddr : In6Addr :=
  if buf.length ≥ 24 then octetsAt buf 8 else In6Addr.zero

def getDstAddr : In6Addr :=
  if buf.length ≥ 40 then octetsAt buf 24 else In6Addr.zero

/-- `apply_mask`: the byte the mask ends in is cut, what follows is zeroed. -/
def applyMask (addr : In6Addr) (prefixLen : UInt8) : In6Addr :=
  if prefixLen = 0 then In6Addr.zero
  else
    let fullBytes := prefixLen.toNat / 8
    let remainingBits := prefixLen.toNat % 8
    if remainingBits > 0 ∧ fullBytes < 16 then
      ⟨(List.range 16).map fun i =>
        if i < fullBytes then addr.val.getD i 0
        else if i = fullBytes then
          addr.val.getD i 0 &&& ((0xFF : UInt8) <<< UInt8.ofNat (8 - remainingBits))
        else 0, by simp⟩
    else
      ⟨(List.range 16).map fun i => if i < fullBytes then addr.val.getD i 0 else 0, by simp⟩

/-! ## 3. Rules -/

structure PacketMatcherRule where
  protocol : ProtocolType
  subtype : Icmpv6Subtype
  localPort : UInt16
  localPortMatch : Bool
  localAddress : In6Addr
  localMatchMask : UInt8
  remotePort : UInt16
  remotePortMatch : Bool
  remoteAddress : In6Addr
  remoteMatchMask : UInt8
  deriving DecidableEq

namespace PacketMatcherRule

/-- `Default`, which `clear` puts back. -/
def default : PacketMatcherRule := ⟨.all, .all, 0, false, In6Addr.zero, 0, 0, false, In6Addr.zero, 0⟩

def hasPorts (proto : ProtocolType) : Bool := proto == .tcp || proto == .udp

def packetSubtype (proto : ProtocolType) (packet : List UInt8) : Icmpv6Subtype :=
  if proto = .icmpv6 then .fromRaw (getIcmpv6Type packet) else .all

def updateFromInboundPacket (packet : List UInt8) : PacketMatcherRule :=
  if !isIpv6Packet packet then default
  else
    let proto := ProtocolType.fromRaw (getNextHeader packet)
    let dst := getDstAddr packet
    { protocol := proto
      subtype := packetSubtype proto packet
      localPort := if hasPorts proto then getDstPort packet else 0
      localPortMatch := hasPorts proto
      localAddress := if dst.isMulticast then In6Addr.zero else dst
      localMatchMask := if dst.isMulticast then 0 else 128
      remotePort := if hasPorts proto then getSrcPort packet else 0
      remotePortMatch := hasPorts proto
      remoteAddress := getSrcAddr packet
      remoteMatchMask := 128 }

def updateFromOutboundPacket (packet : List UInt8) : PacketMatcherRule :=
  if !isIpv6Packet packet then default
  else
    let proto := ProtocolType.fromRaw (getNextHeader packet)
    { protocol := proto
      subtype := packetSubtype proto packet
      localPort := if hasPorts proto then getSrcPort packet else 0
      localPortMatch := hasPorts proto
      localAddress := getSrcAddr packet
      localMatchMask := 128
      remotePort := if hasPorts proto then getDstPort packet else 0
      remotePortMatch := hasPorts proto
      remoteAddress := getDstAddr packet
      remoteMatchMask := 128 }

variable (r : PacketMatcherRule) (packet : List UInt8)

def matchesProtocol : Bool :=
  if r.protocol = .none then false
  else if r.protocol = .all then true
  else if r.protocol ≠ .fromRaw (getNextHeader packet) then false
  else if r.subtype ≠ .all ∧ r.subtype ≠ .fromRaw (getIcmpv6Type packet) then false
  else true

/-- The checks of `match_inbound` and `match_outbound`, which differ in the end of the packet that
    is local. -/
def matchEnds (localPort remotePort : UInt16) (localAddr remoteAddr : In6Addr) : Bool :=
  if !isIpv6Packet packet || !r.matchesProtocol packet then false
  else if r.localPortMatch ∧ r.localPort ≠ localPort then false
  else if r.remotePortMatch ∧ r.remotePort ≠ remotePort then false
  else if r.localMatchMask > 0 ∧ applyMask localAddr r.localMatchMask ≠ r.localAddress then false
  else if r.remoteMatchMask > 0 ∧ applyMask remoteAddr r.remoteMatchMask ≠ r.remoteAddress then
    false
  else true

def matchInbound : Bool :=
  r.matchEnds packet (getDstPort packet) (getSrcPort packet) (getDstAddr packet) (getSrcAddr packet)

def matchOutbound : Bool :=
  r.matchEnds packet (getSrcPort packet) (getDstPort packet) (getSrcAddr packet) (getDstAddr packet)

/-- **What a rule of the port matches**, as one condition. -/
theorem matchEnds_iff (localPort remotePort : UInt16)
    (localAddr remoteAddr : In6Addr) :
    r.matchEnds packet localPort remotePort localAddr remoteAddr ↔
      isIpv6Packet packet ∧ r.matchesProtocol packet ∧
        (r.localPortMatch → r.localPort = localPort) ∧
        (r.remotePortMatch → r.remotePort = remotePort) ∧
        (r.localMatchMask > 0 → applyMask localAddr r.localMatchMask = r.localAddress) ∧
        (r.remoteMatchMask > 0 → applyMask remoteAddr r.remoteMatchMask = r.remoteAddress) := by
  have hpacket : ¬ (!isIpv6Packet packet || !r.matchesProtocol packet) ↔
      isIpv6Packet packet ∧ r.matchesProtocol packet := by
    rw [← Bool.not_and, Bool.not_eq_true', Bool.not_eq_false, Bool.and_eq_true]
  unfold matchEnds
  simp only [Bool.if_false_left, Bool.and_eq_true, Bool.and_true, Bool.not_eq_true',
    decide_eq_false_iff_not, hpacket, ne_eq, not_and, not_not, and_assoc]

/-- **What the protocol check lets through**, as one condition. -/
theorem matchesProtocol_iff :
    r.matchesProtocol packet ↔
      r.protocol ≠ .none ∧
        (r.protocol = .all ∨ (r.protocol = .fromRaw (getNextHeader packet) ∧
            (r.subtype = .all ∨ r.subtype = .fromRaw (getIcmpv6Type packet)))) := by
  have hsubtype : ¬ (r.subtype ≠ .all ∧ r.subtype ≠ .fromRaw (getIcmpv6Type packet)) ↔
      r.subtype = .all ∨ r.subtype = .fromRaw (getIcmpv6Type packet) := by
    rw [not_and_or, not_not, not_not]
  unfold matchesProtocol
  simp only [Bool.if_false_left, Bool.if_true_left, Bool.and_eq_true, Bool.or_eq_true, Bool.and_true,
    Bool.not_eq_true', decide_eq_true_eq, decide_eq_false_iff_not, hsubtype, ne_eq, not_not]

end PacketMatcherRule

end DcuDaemon.Tun
