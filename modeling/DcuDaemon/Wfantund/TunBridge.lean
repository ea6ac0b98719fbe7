/-
  The frames for packets of the host (`crates/dcu-tunnel-daemon/src/instance/tun_bridge.rs`:
  `tun_to_ncp`, `build_stream_net_frame`, `extract_ipv6`, against `driver_to_ncp_pump` of
  `src/ncp-spinel/SpinelNCPInstance-DataPump.cpp`).

  Both daemons put a packet of the host into a PROP_VALUE_SET of STREAM_NET or STREAM_NET_INSECURE. The
  C++ daemon decides twice which of them it is: in `should_forward_ncpbound_frame`, by the rule sets and
  by whether the NCP is joining, and in the pump itself, by CREDENTIALS_NEEDED. The port asks whether
  the NCP is associated.

  Main result: `host_frames_equal`.
-/
import DcuDaemon.Firewall.NetInterface
import DcuDaemon.Spinel.PackFormat
import DcuDaemon.Tasks.Exchange
import DcuDaemon.Wfantund.OutboundPump

namespace DcuDaemon.Wfantund

open Firewall Lib Spinel

/-! ## 1. The port -/

def buildStreamNetFrame (prop : UInt32) (packet : List UInt8) : Option SpinelFrame :=
  (PackWriter.new.writeUintPacked prop).map fun w =>
    SpinelFrame.withHeader (makeHeader 0 0) cmdPropValueSet (w.writeDataWithLen packet).intoBytes

/-- One turn of `tun_to_ncp`: the frame for what is read, if anything is. -/
def tunToNcp (state : Dbus.NcpState) (read : List UInt8) : Option SpinelFrame :=
  let packet := read.take 2000
  if packet.isEmpty then none
  else buildStreamNetFrame (if state.isAssociated then propStreamNet else propStreamNetInsecure) packet

def extractIpv6 (payload : List UInt8) : Option (List UInt8) :=
  match (PackReader.new payload).readUintPacked with
  | (.error _, _) => none
  | (.ok _, r) => r.readDataWithLen.1.toOption

/-! ## 2. The C++ daemon -/

/-- The first five bytes of `mOutboundBuffer`. -/
def outboundHeader (type : FrameType) (length : Nat) : List UInt8 :=
  let stream : UInt8 × UInt8 := match type with
    | .data => (0x80, 0x72)
    | .insecureData => (0x80, 0x73)
    | .legacyData => (0x90, 0x72)
  [stream.1, 3, stream.2, UInt8.ofNat length, UInt8.ofNat (length / 256)]

/-- `driver_to_ncp_pump` for a packet that stands for the given type, up to the escaping; `none` when
    dropped. -/
def driverToNcpPump (tiWisunFan : Bool) (s : NcpInstance) (type : FrameType) (read : List UInt8)
    (behind : Nat → UInt8) : Option (List UInt8) × NcpInstance :=
  let packet := read.take (spinelFrameBufferSize - 5)
  if packet.isEmpty then (none, s)
  else
    let (forward, type, s) := s.shouldForwardNcpboundFrame tiWisunFan type (.inBuffer packet behind)
    if forward then
      let type := if s.ncpState = .credentialsNeeded then .insecureData else type
      (some (outboundHeader type packet.length ++ packet), s)
    else (none, s)

def portState : NcpState → Dbus.NcpState
  | .uninitialized => .uninitialized
  | .fault => .fault
  | .upgrading => .upgrading
  | .deepSleep => .deepSleep
  | .offline => .offline
  | .commissioned => .commissioned
  | .associating => .associating
  | .credentialsNeeded => .credentialsNeeded
  | .associated => .associated
  | .isolated => .isolated
  | .netWakeWaking => .netWakeWaking
  | .netWakeAsleep => .netWakeAsleep

/-! ## 3. The same frames -/

structure NoRules (s : NcpInstance) : Prop where
  insecure : s.insecureFirewall = StdSet.empty
  legacy : s.legacyCommissioningMatcher = StdSet.empty

section Frames

variable {tiWisunFan : Bool} {s : NcpInstance} {packet bytes : List UInt8} {behind : Nat → UInt8}

theorem legacyOutbound_of_noRules (h : NoRules s) (type : FrameType) (rule : Rule) :
    s.legacyOutbound type rule = (type, s) := by
  unfold NcpInstance.legacyOutbound
  rw [h.legacy]
  exact if_neg Bool.false_ne_true

theorem insecureOutbound_of_noRules (h : NoRules s) (type : FrameType) (rule : Rule) :
    (s.insecureOutbound tiWisunFan type rule).1 =
        (if s.joining tiWisunFan then .insecureData else type) ∧
      (s.insecureOutbound tiWisunFan type rule).2.ncpState = s.ncpState := by
  have hcount : ¬ s.insecureFirewall.count rule.anySubtype := by
    rw [h.insecure]
    exact Bool.false_ne_true
  unfold NcpInstance.insecureOutbound
  by_cases hjoining : s.joining tiWisunFan
  · rw [if_pos hjoining, if_pos hjoining]
    exact ⟨rfl, rfl⟩
  · rw [if_neg hjoining, if_neg hjoining]
    split
    · exact ⟨rfl, rfl⟩
    · exact ⟨rfl, rfl⟩

theorem ncpbound_of_noRules (h : NoRules s) {p : Packet}
    (hforward : (s.shouldForwardNcpboundFrame tiWisunFan .data p).1) :
    s.ncpState.isInterfaceUp ∧
      (s.shouldForwardNcpboundFrame tiWisunFan .data p).2.1 =
        (if s.joining tiWisunFan then .insecureData else .data) ∧
      (s.shouldForwardNcpboundFrame tiWisunFan .data p).2.2.ncpState = s.ncpState := by
  unfold NcpInstance.shouldForwardNcpboundFrame at hforward ⊢
  cases hup : s.ncpState.isInterfaceUp with
  | false =>
    rw [hup] at hforward
    cases hforward
  | true =>
    refine ⟨rfl, ?_⟩
    simp only [hup, Bool.not_true, Bool.false_eq_true, if_false] at hforward ⊢
    split at hforward
    · cases hforward
    · rename_i hvalid
      rw [if_neg hvalid]
      split at hforward
      · cases hforward
      · rename_i hdrop
        rw [if_neg hdrop, legacyOutbound_of_noRules h]
        exact insecureOutbound_of_noRules h _ _

/-- **What the C++ daemon sends** while its rule sets are empty: the insecure stream in CREDENTIALS_NEEDED,
    else the secure one. -/
theorem driverToNcpPump_frame (h : NoRules s) (hlen : packet.length ≤ spinelFrameBufferSize - 5)
    (hframe : (driverToNcpPump tiWisunFan s .data packet behind).1 = some bytes) :
    s.ncpState.isInterfaceUp ∧ packet ≠ [] ∧
      bytes = outboundHeader (if s.ncpState = .credentialsNeeded then .insecureData else .data)
        packet.length ++ packet := by
  unfold driverToNcpPump at hframe
  rw [List.take_of_length_le hlen] at hframe
  dsimp only at hframe
  split at hframe
  · cases hframe
  · rename_i hne
    split at hframe
    · rename_i hforward
      obtain ⟨hup, htype, hstate⟩ := ncpbound_of_noRules h hforward
      rw [hstate, htype] at hframe
      refine ⟨hup, fun e => hne (by rw [e]; rfl), ?_⟩
      rw [← Option.some.inj hframe]
      -- a joining NCP with its interface up needs credentials
      by_cases hcred : s.ncpState = .credentialsNeeded
      · rw [if_pos hcred, if_pos hcred]
      · have hjoining : ¬ s.joining tiWisunFan := by
          intro hj
          unfold NcpInstance.joining at hj
          cases hs : s.ncpState with
          | credentialsNeeded => exact hcred hs
          | associating =>
            rw [hs] at hup
            cases hup
          | _ =>
            rw [hs] at hj
            cases hj
        rw [if_neg hcred, if_neg hcred, if_neg hjoining]
    · cases hframe

theorem extractIpv6_stream {prop : UInt32} (hprop : prop ≤ spinelMaxUintPacked)
    (hlen : packet.length ≤ 65535) :
    extractIpv6 (PackWriter.uintPackedBytes prop ++ structEntry packet) = some packet := by
  obtain ⟨hkey, hat⟩ := PackReader.readUintPacked_append hprop
    (PackReader.at_new (PackWriter.uintPackedBytes prop ++ structEntry packet))
  have hentry := Datatype.unpackDataWlen_structEntry (Nat.lt_succ_of_le hlen) []
  have hdata := PackReader.reads_dataWithLen hat
  rw [List.append_nil] at hentry
  rw [hentry] at hdata
  obtain ⟨r, hread, -⟩ := hdata
  rw [extractIpv6, hkey]
  dsimp only
  rw [hread]
  rfl

theorem encode_buildStreamNetFrame {prop : UInt32} (hprop : prop ≤ spinelMaxUintPacked)
    (hlen : packet.length ≤ 65535) : ∃ frame, buildStreamNetFrame prop packet = some frame ∧
      frame.encode = some (0x80 :: 3 :: (PackWriter.uintPackedBytes prop ++ structEntry packet)) ∧
      extractIpv6 frame.payload = some packet := by
  refine ⟨⟨0x80, cmdPropValueSet, PackWriter.uintPackedBytes prop ++ structEntry packet⟩, ?_, ?_,
    extractIpv6_stream hprop hlen⟩
  · rw [buildStreamNetFrame, PackWriter.writeUintPacked, if_pos hprop, Option.map_some,
      writeDataWithLen_eq _ hlen]
    rfl
  · rfl

/-- **Where the C++ daemon forwards a packet, the port sends the same bytes**, and `extract_ipv6` finds it in
    them. -/
theorem host_frames_equal (h : NoRules s) (hlen : packet.length ≤ spinelFrameBufferSize - 5)
    (hframe : (driverToNcpPump tiWisunFan s .data packet behind).1 = some bytes) :
    ∃ frame, tunToNcp (portState s.ncpState) packet = some frame ∧ frame.encode = some bytes ∧
      extractIpv6 frame.payload = some packet := by
  obtain ⟨hup, hne, hbytes⟩ := driverToNcpPump_frame h hlen hframe
  have hsize : packet.length ≤ 1295 := hlen
  have hshort : packet.length ≤ 65535 := by omega
  have htake : packet.take 2000 = packet := List.take_of_length_le (by omega)
  have hnonempty : ¬ packet.isEmpty := fun e => hne (List.isEmpty_iff.mp e)
  -- the interface is up in CREDENTIALS_NEEDED and where the NCP is associated
  have hstream : ∀ prop : UInt32, prop ≤ spinelMaxUintPacked →
      (if (portState s.ncpState).isAssociated then propStreamNet else propStreamNetInsecure) = prop →
      bytes = 0x80 :: 3 :: (PackWriter.uintPackedBytes prop ++ structEntry packet) →
      ∃ frame, tunToNcp (portState s.ncpState) packet = some frame ∧ frame.encode = some bytes ∧
        extractIpv6 frame.payload = some packet := by
    intro prop hprop hkey he
    obtain ⟨frame, hbuild, hencode, hextract⟩ := encode_buildStreamNetFrame hprop hshort
    refine ⟨frame, ?_, he ▸ hencode, hextract⟩
    unfold tunToNcp
    rw [htake, if_neg hnonempty, hkey]
    exact hbuild
  by_cases hcred : s.ncpState = .credentialsNeeded
  · rw [if_pos hcred] at hbytes
    exact hstream propStreamNetInsecure (by decide) (by rw [hcred]; rfl) hbytes
  · rw [if_neg hcred] at hbytes
    have hassoc : (portState s.ncpState).isAssociated := by
      cases hs : s.ncpState with
      | credentialsNeeded => exact absurd hs hcred
      | associated | isolated | netWakeWaking | netWakeAsleep => rfl
      | _ =>
        rw [hs] at hup
        cases hup
    exact hstream propStreamNet (by decide) (by rw [hassoc]; rfl) hbytes

/-- A UDP packet of 44 bytes in CREDENTIALS_NEEDED: the insecure stream. -/
theorem host_frames_equal_joining :
    ∃ frame, tunToNcp .credentialsNeeded ([0x60, 0, 0, 0, 0, 4, 17, 64] ++ List.replicate 36 1) =
        some frame ∧ frame.encode = some ([0x80, 3, 0x73, 44, 0] ++
        ([0x60, 0, 0, 0, 0, 4, 17, 64] ++ List.replicate 36 1)) ∧
      extractIpv6 frame.payload = some ([0x60, 0, 0, 0, 0, 4, 17, 64] ++ List.replicate 36 1) := by
  have hrules : NoRules (NcpInstance.start .credentialsNeeded 0) := ⟨rfl, rfl⟩
  have hframe : (driverToNcpPump true (NcpInstance.start .credentialsNeeded 0) .data
      ([0x60, 0, 0, 0, 0, 4, 17, 64] ++ List.replicate 36 1) fun _ => 0).1 =
        some ([0x80, 3, 0x73, 44, 0] ++ ([0x60, 0, 0, 0, 0, 4, 17, 64] ++ List.replicate 36 1)) := by
    decide +kernel
  exact host_frames_equal hrules (by decide) hframe

end Frames

end DcuDaemon.Wfantund
