/-
  The statistics of the Rust daemon (`instance/stat_collector.rs`): counters that saturate and histories
  of at most 64 items.

  Main result: `stat_collector_tells`.
-/
import DcuDaemon.Dbus.Properties
import DcuDaemon.Lib.Bounded
import DcuDaemon.Lib.Run

namespace DcuDaemon.Instance

open Lib List
open Dbus (NcpState)

/-! ## 1. Packets -/

def maxHistory : Nat := 64

inductive Protocol where
  | tcp
  | udp
  | icmp
  | other
  deriving DecidableEq

/-- The `match` on the next header. -/
def Protocol.ofNextHeader (nextHeader : UInt8) : Protocol :=
  if nextHeader = 6 then .tcp else if nextHeader = 17 then .udp else if nextHeader = 58 then .icmp else .other

/-- `u16::from_be_bytes` of two bytes. -/
def beU16 (hi lo : UInt8) : UInt16 := UInt16.ofNat (hi.toNat * 256 + lo.toNat)

/-- An `Ipv6Addr`, by its bytes. -/
abbrev Ipv6Bytes := List UInt8

/-- `classify_packet`: source, destination, payload length and protocol. -/
def classifyPacket (packet : List UInt8) : Ipv6Bytes × Ipv6Bytes × UInt16 × Protocol :=
  if packet.length < 40 then (List.replicate 16 0, List.replicate 16 0, 0, .other)
  else
    let payloadLen := beU16 (packet.getD 4 0) (packet.getD 5 0)
    let src := (packet.drop 8).take 16
    let dst := (packet.drop 24).take 16
    (src, dst, payloadLen, .ofNextHeader (packet.getD 6 0))

/-- `PacketInfo`; the time stamp is what `Instant::now` gave. -/
structure PacketInfo where
  timestamp : Nat
  payloadLen : UInt16
  src : Ipv6Bytes
  dst : Ipv6Bytes
  deriving DecidableEq

structure NcpStateInfo where
  timestamp : Nat
  state : NcpState
  deriving DecidableEq

/-! ## 2. The collector -/

/-- `u32::saturating_add`. -/
def saturatingAdd32 (a b : UInt32) : UInt32 := UInt32.ofNat (min (a.toNat + b.toNat) (2 ^ 32 - 1))

/-- `u64::saturating_add`. -/
def saturatingAdd64 (a b : UInt64) : UInt64 := UInt64.ofNat (min (a.toNat + b.toNat) (2 ^ 64 - 1))

/-- The fields of one direction, `rx_` or `tx_`. -/
structure Traffic where
  packetsTotal : UInt32 := 0
  bytesTotal : UInt64 := 0
  packetsUdp : UInt32 := 0
  packetsTcp : UInt32 := 0
  packetsIcmp : UInt32 := 0
  history : List PacketInfo := []

/-- What recording a packet does to the fields of its direction. -/
def Traffic.record (t : Traffic) (packet : List UInt8) (now : Nat) : Traffic :=
  if packet.length < 40 then t
  else
    let (src, dst, payloadLen, proto) := classifyPacket packet
    { packetsTotal := saturatingAdd32 t.packetsTotal 1
      bytesTotal := saturatingAdd64 t.bytesTotal payloadLen.toUInt64
      packetsUdp := if proto = .udp then saturatingAdd32 t.packetsUdp 1 else t.packetsUdp
      packetsTcp := if proto = .tcp then saturatingAdd32 t.packetsTcp 1 else t.packetsTcp
      packetsIcmp := if proto = .icmp then saturatingAdd32 t.packetsIcmp 1 else t.packetsIcmp
      history := pushBounded maxHistory t.history ⟨now, payloadLen, src, dst⟩ }

structure StatCollector where
  rx : Traffic := {}
  tx : Traffic := {}
  ncpStateHistory : List NcpStateInfo := []

namespace StatCollector

/-- `new`; the start time is only printed. -/
def new : StatCollector := {}

def recordInboundPacket (c : StatCollector) (packet : List UInt8) (now : Nat) : StatCollector :=
  { c with rx := c.rx.record packet now }

def recordOutboundPacket (c : StatCollector) (packet : List UInt8) (now : Nat) : StatCollector :=
  { c with tx := c.tx.record packet now }

def recordNcpStateChange (c : StatCollector) (state : NcpState) (now : Nat) : StatCollector :=
  { c with ncpStateHistory := pushBounded maxHistory c.ncpStateHistory ⟨now, state⟩ }

end StatCollector

/-- What the collector is told, and when. -/
inductive StatEvent where
  | inbound (packet : List UInt8) (now : Nat)
  | outbound (packet : List UInt8) (now : Nat)
  | ncpState (state : NcpState) (now : Nat)

def StatCollector.step (c : StatCollector) : StatEvent → StatCollector
  | .inbound packet now => c.recordInboundPacket packet now
  | .outbound packet now => c.recordOutboundPacket packet now
  | .ncpState state now => c.recordNcpStateChange state now

/-! ## 3. What the collector tells -/

/-- A packet that came by, and when. -/
structure Sighting where
  packet : List UInt8
  now : Nat

namespace Sighting

def payloadLength (s : Sighting) : Nat := (s.packet.getD 4 0).toNat * 256 + (s.packet.getD 5 0).toNat

def nextHeader (s : Sighting) : UInt8 := s.packet.getD 6 0

def info (s : Sighting) : PacketInfo :=
  ⟨s.now, beU16 (s.packet.getD 4 0) (s.packet.getD 5 0), (s.packet.drop 8).take 16, (s.packet.drop 24).take 16⟩

end Sighting

/-- A packet is looked at if it has a whole header. -/
def accept (packet : List UInt8) (now : Nat) : Option Sighting :=
  if packet.length < 40 then none else some ⟨packet, now⟩

def acceptedInbound (es : List StatEvent) : List Sighting :=
  es.filterMap fun
    | .inbound packet now => accept packet now
    | _ => none

def acceptedOutbound (es : List StatEvent) : List Sighting :=
  es.filterMap fun
    | .outbound packet now => accept packet now
    | _ => none

def stateChanges (es : List StatEvent) : List NcpStateInfo :=
  es.filterMap fun
    | .ncpState state now => some ⟨now, state⟩
    | _ => none

/-- **The fields of a direction tell its packets**: the counts and bytes up to their maxima, and the last 64
    in order. -/
structure Tells (t : Traffic) (ps : List Sighting) : Prop where
  total : t.packetsTotal.toNat = min ps.length (2 ^ 32 - 1)
  tcp : t.packetsTcp.toNat = min (ps.countP fun p => p.nextHeader = 6) (2 ^ 32 - 1)
  udp : t.packetsUdp.toNat = min (ps.countP fun p => p.nextHeader = 17) (2 ^ 32 - 1)
  icmp : t.packetsIcmp.toNat = min (ps.countP fun p => p.nextHeader = 58) (2 ^ 32 - 1)
  bytes : t.bytesTotal.toNat = min (ps.map Sighting.payloadLength).sum (2 ^ 64 - 1)
  history : t.history = (lastN 64 ps).map Sighting.info

section Tells

variable {t : Traffic} {ps : List Sighting}

theorem tells_new : Tells {} [] := ⟨rfl, rfl, rfl, rfl, rfl, rfl⟩

theorem toNat_saturatingAdd32 {a b : UInt32} {n : Nat} (h : a.toNat = min n (2 ^ 32 - 1)) :
    (saturatingAdd32 a b).toNat = min (n + b.toNat) (2 ^ 32 - 1) := by
  rw [saturatingAdd32, h, min_add_min]
  exact UInt32.toNat_ofNat_of_lt' (by simp only [UInt32.size]; omega)

theorem toNat_saturatingAdd64 {a b : UInt64} {n : Nat} (h : a.toNat = min n (2 ^ 64 - 1)) :
    (saturatingAdd64 a b).toNat = min (n + b.toNat) (2 ^ 64 - 1) := by
  rw [saturatingAdd64, h, min_add_min]
  exact UInt64.toNat_ofNat_of_lt' (by simp only [UInt64.size]; omega)

theorem count_kind {a : UInt32} {p : Sighting → Bool} {kind : Prop} [Decidable kind]
    (h : a.toNat = min (ps.countP p) (2 ^ 32 - 1)) (s : Sighting) (hkind : kind ↔ p s) :
    (if kind then saturatingAdd32 a 1 else a).toNat = min ((ps ++ [s]).countP p) (2 ^ 32 - 1) := by
  rw [countP_append, countP_singleton]
  by_cases hk : kind
  · rw [if_pos hk, if_pos (hkind.mp hk)]
    exact toNat_saturatingAdd32 h
  · rw [if_neg hk, if_neg fun hp => hk (hkind.mpr hp)]
    exact h

theorem beU16_toNat (hi lo : UInt8) : (beU16 hi lo).toNat = hi.toNat * 256 + lo.toNat := by
  have hhi := hi.toNat_lt
  have hlo := lo.toNat_lt
  exact UInt16.toNat_ofNat_of_lt' (by simp only [UInt16.size]; omega)

theorem ofNextHeader_iff (b : UInt8) : (Protocol.ofNextHeader b = .tcp ↔ b = 6) ∧
    (Protocol.ofNextHeader b = .udp ↔ b = 17) ∧ (Protocol.ofNextHeader b = .icmp ↔ b = 58) := by
  unfold Protocol.ofNextHeader
  split_ifs <;> simp_all

/-- **One packet more.** -/
theorem tells_record (h : Tells t ps) {packet : List UInt8} (hlen : ¬ packet.length < 40) (now : Nat) :
    Tells (t.record packet now) (ps ++ [⟨packet, now⟩]) := by
  obtain ⟨htcp, hudp, hicmp⟩ := ofNextHeader_iff (packet.getD 6 0)
  rw [Traffic.record, if_neg hlen, classifyPacket, if_neg hlen]
  refine ⟨?_, ?_, ?_, ?_, ?_, ?_⟩
  · rw [length_append, length_singleton]
    exact toNat_saturatingAdd32 h.total
  · exact count_kind h.tcp _ (htcp.trans decide_eq_true_iff.symm)
  · exact count_kind h.udp _ (hudp.trans decide_eq_true_iff.symm)
  · exact count_kind h.icmp _ (hicmp.trans decide_eq_true_iff.symm)
  · show (saturatingAdd64 t.bytesTotal (beU16 (packet.getD 4 0) (packet.getD 5 0)).toUInt64).toNat = _
    rw [toNat_saturatingAdd64 h.bytes, map_append, sum_append, UInt16.toNat_toUInt64, beU16_toNat,
      map_singleton, sum_singleton, Sighting.payloadLength]
  · show pushBounded 64 t.history (Sighting.info ⟨packet, now⟩) = _
    rw [h.history, map_lastN, map_lastN, map_append, map_singleton]
    exact pushBounded_lastN (by decide) _ _

theorem tells_accept (h : Tells t ps) (packet : List UInt8) (now : Nat) :
    Tells (t.record packet now) (ps ++ (accept packet now).toList) := by
  by_cases hlen : packet.length < 40
  · rw [Traffic.record, if_pos hlen, accept, if_pos hlen, Option.toList_none, append_nil]
    exact h
  · rw [accept, if_neg hlen]
    exact tells_record h hlen now

end Tells

/-- What is known of the collector after these events. -/
structure Told (es : List StatEvent) (c : StatCollector) : Prop where
  rx : Tells c.rx (acceptedInbound es)
  tx : Tells c.tx (acceptedOutbound es)
  states : c.ncpStateHistory = lastN 64 (stateChanges es)

theorem filterMap_concat {α β : Type} (f : α → Option β) (xs : List α) (x : α) :
    (xs ++ [x]).filterMap f = xs.filterMap f ++ (f x).toList := by
  rw [filterMap_append, filterMap_cons]
  cases f x <;> rfl

/-- A packet leaves the other direction and the state history as they are, a state change both directions. -/
theorem told_step {es : List StatEvent} {c : StatCollector} (h : Told es c) (e : StatEvent) :
    Told (es ++ [e]) (c.step e) := by
  have hrx := filterMap_concat (fun | .inbound p now => accept p now | _ => none) es e
  have htx := filterMap_concat (fun | .outbound p now => accept p now | _ => none) es e
  have hstates := filterMap_concat (fun | .ncpState s now => some (⟨now, s⟩ : NcpStateInfo) | _ => none) es e
  refine ⟨?_, ?_, ?_⟩
  · rw [acceptedInbound, hrx]
    cases e with
    | inbound p now => exact tells_accept h.rx p now
    | outbound p now => exact (append_nil (acceptedInbound es)).symm ▸ h.rx
    | ncpState s now => exact (append_nil (acceptedInbound es)).symm ▸ h.rx
  · rw [acceptedOutbound, htx]
    cases e with
    | inbound p now => exact (append_nil (acceptedOutbound es)).symm ▸ h.tx
    | outbound p now => exact tells_accept h.tx p now
    | ncpState s now => exact (append_nil (acceptedOutbound es)).symm ▸ h.tx
  · rw [stateChanges, hstates]
    cases e with
    | inbound p now => exact (append_nil (stateChanges es)).symm ▸ h.states
    | outbound p now => exact (append_nil (stateChanges es)).symm ▸ h.states
    | ncpState s now =>
      show pushBounded 64 c.ncpStateHistory _ = _
      rw [h.states]
      exact pushBounded_lastN (by decide) _ _

/-- **The collector tells what it was told**, after every sequence of packets and state changes. -/
theorem stat_collector_tells (es : List StatEvent) :
    Tells (run StatCollector.step .new es).rx (acceptedInbound es) ∧
    Tells (run StatCollector.step .new es).tx (acceptedOutbound es) ∧
    (run StatCollector.step .new es).ncpStateHistory = lastN 64 (stateChanges es) := by
  have htold : Told es (run StatCollector.step .new es) := by
    induction es using reverseRecOn with
    | nil => exact ⟨tells_new, tells_new, rfl⟩
    | append_singleton es e ih =>
      rw [run_append]
      exact told_step ih e
  exact ⟨htold.rx, htold.tx, htold.states⟩

end DcuDaemon.Instance
