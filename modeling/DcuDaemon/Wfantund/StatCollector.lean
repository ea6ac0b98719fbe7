/-
  The statistics of the C++ daemon (`src/wfantund/StatCollector.cpp`, `src/util/ObjectPool.h`): counters
  and histories over all packets, and those of each node, the nodes held in a pool of 64 objects.

  The node map compares addresses by `IPAddress::operator<`, which goes through the four words of the
  address from the last one down and stops before word 0.

  Main result: `update_cases`.
-/
import DcuDaemon.Firewall.PacketMatcher
import DcuDaemon.Lib.StdMap
import DcuDaemon.Lib.WrapTime
import DcuDaemon.Spinel.Fields
import DcuDaemon.Util.RingBuffer

namespace DcuDaemon.Wfantund

open Lib Firewall Util List Option

/-! ## 1. Addresses, time stamps, packets -/

/-- `StatCollector::IPAddress`, by the bytes of its buffer. -/
abbrev IPAddress := In6Addr

namespace IPAddress

/-- `mAddressBuffer[i]`, on a little-endian host. -/
def word (a : IPAddress) (i : Nat) : Nat := Spinel.PackReader.leValue ((a.val.drop (4 * i)).take 4)

/-- The loop of `operator<`: it ends when the index is 0. -/
def ltFrom (a b : IPAddress) : Nat → Bool
  | 0 => false
  | i + 1 => thenCompare (word a (i + 1)) (word b (i + 1)) (ltFrom a b i)

/-- `operator<`. -/
def lt (a b : IPAddress) : Bool := ltFrom a b 3

/-- What the comparison sees of an address. -/
def compared (a : IPAddress) : List UInt8 := a.val.drop 4

theorem length_word (a : IPAddress) {i : Nat} (hi : i < 4) : ((a.val.drop (4 * i)).take 4).length = 4 := by
  rw [length_take, length_drop]
  omega

theorem word_eq_iff {a b : IPAddress} {i : Nat} (hi : i < 4) :
    word a i = word b i ↔ (a.val.drop (4 * i)).take 4 = (b.val.drop (4 * i)).take 4 :=
  ⟨Spinel.eq_of_leValue_eq ((length_word a hi).trans (length_word b hi).symm),
    congrArg Spinel.PackReader.leValue⟩

theorem ltFrom_eq_false_iff (a b : IPAddress) (n : Nat) :
    ltFrom a b n = false ∧ ltFrom b a n = false ↔ ∀ i, 0 < i → i ≤ n → word a i = word b i := by
  induction n with
  | zero => exact ⟨fun _ i hpos hle => absurd hpos (by omega), fun _ => ⟨rfl, rfl⟩⟩
  | succ n ih =>
    rw [ltFrom, ltFrom, thenCompare_separates, ih]
    refine ⟨fun h i hpos hle => ?_, fun h => ⟨h _ n.succ_pos (Nat.le_refl _), fun i hpos hle => ?_⟩⟩
    · rcases Nat.le_succ_iff.mp hle with hle | rfl
      · exact h.2 i hpos hle
      · exact h.1
    · exact h i hpos (Nat.le_succ_of_le hle)

theorem compared_eq (a : IPAddress) :
    a.compared = (a.val.drop (4 * 1)).take 4 ++ ((a.val.drop (4 * 2)).take 4 ++ (a.val.drop (4 * 3)).take 4) := by
  have hlast : (a.val.drop (4 * 3)).take 4 = (a.val.drop 8).drop 4 := by
    rw [drop_drop, take_of_length_le]
    rw [length_drop, a.property]
  have hmiddle : a.val.drop 8 = (a.val.drop 4).drop 4 := by rw [drop_drop]
  rw [hlast]
  show a.val.drop 4 = (a.val.drop 4).take 4 ++ ((a.val.drop 8).take 4 ++ (a.val.drop 8).drop 4)
  rw [take_append_drop, hmiddle, take_append_drop]

/-- **Word 0 is not compared**: the map cannot tell addresses apart by their first 4 bytes. -/
theorem equivalent_lt_iff (a b : IPAddress) : equivalent lt a b ↔ a.compared = b.compared := by
  have hwords : (∀ i, 0 < i → i ≤ 3 → word a i = word b i) ↔ a.compared = b.compared := by
    refine ⟨fun h => ?_, fun h => ?_⟩
    · rw [compared_eq, compared_eq, (word_eq_iff (by decide)).mp (h 1 (by decide) (by decide)),
        (word_eq_iff (by decide)).mp (h 2 (by decide) (by decide)),
        (word_eq_iff (by decide)).mp (h 3 (by decide) (by decide))]
    · intro i hpos hle
      have hdrop : ∀ c : IPAddress, c.val.drop (4 * i) = c.compared.drop (4 * i - 4) := by
        intro c
        rw [compared, drop_drop]
        congr 1
        omega
      rw [word, word, hdrop a, hdrop b, h]
  rw [equivalent, Bool.and_eq_true, Bool.not_eq_true', Bool.not_eq_true', lt, lt, ltFrom_eq_false_iff, hwords]

end IPAddress

/-- `TimeStamp::set_to_now`: 0 stands for a stamp that was never set. -/
def setToNow (now : Time32) : Time32 := if now = 0 then now - 1 else now

theorem setToNow_ne_zero (now : Time32) : setToNow now ≠ 0 := by
  unfold setToNow
  split
  · rename_i h
    rw [h]
    decide
  · assumption

structure PacketInfo where
  timeStamp : Time32
  payloadLen : UInt16
  type : UInt8
  subtype : UInt8
  srcPort : UInt16
  dstPort : UInt16
  srcAddress : IPAddress
  dstAddress : IPAddress

/-- A `PacketInfo` that was never filled in; all but the time stamp is arbitrary. -/
def PacketInfo.blank : PacketInfo := ⟨0, 0, 0, 0, 0, 0, In6Addr.zero, In6Addr.zero⟩

/-- `IPV6_GET_UINT16`. -/
def getUint16 (p : Packet) (i : Nat) : UInt16 := ((p.byte i).toUInt16 <<< 8) + (p.byte (i + 1)).toUInt16

/-- `PacketInfo::update_from_packet`; `none` if it returns false. -/
def PacketInfo.updateFromPacket (now : Time32) (p : Packet) : Option PacketInfo :=
  if p.isIpv6 then
    let type := p.byte 6
    let ports := type == typeUdp || type == typeTcp
    some
      { timeStamp := setToNow now
        payloadLen := getUint16 p 4
        type
        srcAddress := p.address 8
        dstAddress := p.address 24
        subtype := if type == typeIcmp then p.byte 40 else 0
        srcPort := if ports then getUint16 p 40 else 0
        dstPort := if ports then getUint16 p 42 else 0 }
  else none

/-! ## 2. Nodes -/

/-- `STAT_COLLECTOR_PER_NODE_RX_HISTORY_SIZE`, and the one for sent packets. -/
def perNodeHistorySize : Nat := 5

structure NodeInfo where
  txPacketsTotal : UInt32
  txPacketsUDP : UInt32
  txPacketsTCP : UInt32
  rxPacketsTotal : UInt32
  rxPacketsUDP : UInt32
  rxPacketsTCP : UInt32
  rxHistory : RingBuffer PacketInfo
  txHistory : RingBuffer PacketInfo

namespace NodeInfo

/-- The constructor, with whatever the cells of the histories hold. -/
def new (cells : Nat → PacketInfo) : NodeInfo := ⟨0, 0, 0, 0, 0, 0, RingBuffer.new cells, RingBuffer.new cells⟩

def clear (n : NodeInfo) : NodeInfo where
  txPacketsTotal := 0
  txPacketsUDP := 0
  txPacketsTCP := 0
  rxPacketsTotal := 0
  rxPacketsUDP := 0
  rxPacketsTCP := 0
  rxHistory := n.rxHistory.clear
  txHistory := n.txHistory.clear

/-- The time stamp of the newest item, or one that was never set. -/
def lastTime (history : RingBuffer PacketInfo) : Time32 :=
  match history.back perNodeHistorySize with
  | none => 0
  | some info => info.timeStamp

def getLastRxTime (n : NodeInfo) : Time32 := lastTime n.rxHistory
def getLastTxTime (n : NodeInfo) : Time32 := lastTime n.txHistory

def getLastRxOrTxTime (n : NodeInfo) : Time32 :=
  if n.getLastRxTime = 0 then n.getLastTxTime
  else if n.getLastTxTime = 0 then n.getLastRxTime
  else if Time32.before n.getLastRxTime n.getLastTxTime then n.getLastTxTime
  else n.getLastRxTime

/-- What `update_from_inbound_packet` does to the node it found. -/
def countInbound (n : NodeInfo) (info : PacketInfo) : NodeInfo :=
  { n with
    rxPacketsTotal := n.rxPacketsTotal + 1
    rxPacketsUDP := if info.type == typeUdp then n.rxPacketsUDP + 1 else n.rxPacketsUDP
    rxPacketsTCP := if info.type == typeTcp then n.rxPacketsTCP + 1 else n.rxPacketsTCP
    rxHistory := n.rxHistory.forceWrite perNodeHistorySize info }

/-- What `update_from_outbound_packet` does to the node it found. -/
def countOutbound (n : NodeInfo) (info : PacketInfo) : NodeInfo :=
  { n with
    txPacketsTotal := n.txPacketsTotal + 1
    txPacketsUDP := if info.type == typeUdp then n.txPacketsUDP + 1 else n.txPacketsUDP
    txPacketsTCP := if info.type == typeTcp then n.txPacketsTCP + 1 else n.txPacketsTCP
    txHistory := n.txHistory.forceWrite perNodeHistorySize info }

end NodeInfo

/-- `STAT_COLLECTOR_MAX_NODES`. -/
def maxNodes : Nat := 64

/-- An entry of the node map: the address, and the object of the pool it points to. -/
abbrev NodeEntry := IPAddress × Nat

/-- `NodeStat`, with its pool; objects are named by their place in `mElementPool`. -/
structure NodeStat where
  elementPool : Nat → NodeInfo
  freeElementList : List Nat
  nodeInfoMap : List NodeEntry

namespace NodeStat

/-- `free_all`: the last element is the first to be handed out. -/
def new (elements : Nat → NodeInfo) : NodeStat := ⟨elements, (List.range maxNodes).reverse, []⟩

def free (s : NodeStat) (p : Nat) : NodeStat :=
  if p < maxNodes then { s with freeElementList := s.freeElementList ++ [p] } else s

def findNodeInfo (s : NodeStat) (a : IPAddress) : Option Nat := StdMap.find IPAddress.lt s.nodeInfoMap a

/-- One round of the search for the oldest node: `oldest_ts` and `oldest_iter`. -/
def oldestRound (pool : Nat → NodeInfo) (oldest : Time32 × Option NodeEntry) (cur : NodeEntry) :
    Time32 × Option NodeEntry :=
  let ts := (pool cur.2).getLastRxOrTxTime
  let oldest := if oldest.1 = 0 then (ts, some cur) else oldest
  if ts ≠ 0 then if Time32.before ts oldest.1 then (ts, some cur) else oldest
  else oldest

def oldestNode (s : NodeStat) : Option NodeEntry :=
  (s.nodeInfoMap.foldl (oldestRound s.elementPool) (0, s.nodeInfoMap.head?)).2

def removeOldestNodeInfo (s : NodeStat) : NodeStat :=
  match s.oldestNode with
  | none => s
  | some e => { s with nodeInfoMap := s.nodeInfoMap.erase e }.free e.2

/-- The loop of `create_new_node_info`, for as many rounds: until `alloc` gives an object. -/
def allocLoop : Nat → NodeStat → Option (Nat × NodeStat)
  | 0, _ => none
  | rounds + 1, s =>
    match s.freeElementList with
    | p :: rest => some (p, { s with freeElementList := rest })
    | [] => allocLoop rounds s.removeOldestNodeInfo

/-- An object that was allocated becomes the node of the address. -/
def addNode (s : NodeStat) (a : IPAddress) (p : Nat) : NodeStat :=
  { s with
    elementPool := Function.update s.elementPool p (s.elementPool p).clear
    nodeInfoMap := StdMap.insert IPAddress.lt s.nodeInfoMap a p }

def createNewNodeInfo (rounds : Nat) (s : NodeStat) (a : IPAddress) : Option (Nat × NodeStat) :=
  (allocLoop rounds s).map fun r => (r.1, r.2.addNode a r.1)

def modify (s : NodeStat) (p : Nat) (f : NodeInfo → NodeInfo) : NodeStat :=
  { s with elementPool := Function.update s.elementPool p (f (s.elementPool p)) }

/-- The node of the address, created if there is none, is changed. -/
def update (rounds : Nat) (s : NodeStat) (a : IPAddress) (f : NodeInfo → NodeInfo) : Option NodeStat :=
  match s.findNodeInfo a with
  | some p => some (s.modify p f)
  | none => (s.createNewNodeInfo rounds a).map fun r => r.2.modify r.1 f

def updateFromInboundPacket (rounds : Nat) (s : NodeStat) (info : PacketInfo) : Option NodeStat :=
  s.update rounds info.srcAddress fun n => n.countInbound info

def updateFromOutboundPacket (rounds : Nat) (s : NodeStat) (info : PacketInfo) : Option NodeStat :=
  s.update rounds info.dstAddress fun n => n.countOutbound info

end NodeStat

/-! ## 3. The collector -/

structure BytesTotal where
  bytes : UInt16
  kiloBytes : UInt32

def BytesTotal.add (t : BytesTotal) (count : UInt16) : BytesTotal :=
  let numBytes := count.toUInt32 + t.bytes.toUInt32
  ⟨(numBytes &&& 1023).toUInt16, t.kiloBytes + (numBytes >>> 10)⟩

/-- `STAT_COLLECTOR_RX_HISTORY_SIZE`, and the one for sent packets. -/
def historySize : Nat := 64

/-- The counters and the history of one direction. -/
structure Traffic where
  packetsTotal : UInt32
  packetsUDP : UInt32
  packetsTCP : UInt32
  packetsICMP : UInt32
  bytesTotal : BytesTotal
  history : RingBuffer PacketInfo

def Traffic.count (t : Traffic) (info : PacketInfo) : Traffic where
  packetsTotal := t.packetsTotal + 1
  packetsUDP := if info.type == typeUdp then t.packetsUDP + 1 else t.packetsUDP
  packetsTCP := if info.type == typeTcp then t.packetsTCP + 1 else t.packetsTCP
  packetsICMP := if info.type == typeIcmp then t.packetsICMP + 1 else t.packetsICMP
  bytesTotal := t.bytesTotal.add info.payloadLen
  history := t.history.forceWrite historySize info

structure StatCollector where
  rx : Traffic
  tx : Traffic
  nodeStat : NodeStat

namespace StatCollector

/-- A fresh collector, with whatever the histories and the objects of the pool hold. -/
def new (cells : Nat → PacketInfo) (elements : Nat → NodeInfo) : StatCollector :=
  let traffic : Traffic := ⟨0, 0, 0, 0, ⟨0, 0⟩, RingBuffer.new cells⟩
  ⟨traffic, traffic, NodeStat.new elements⟩

def recordInboundPacket (rounds : Nat) (c : StatCollector) (now : Time32) (p : Packet) :
    Option StatCollector :=
  match PacketInfo.updateFromPacket now p with
  | none => some c
  | some info =>
    (c.nodeStat.updateFromInboundPacket rounds info).map fun s =>
      { c with rx := c.rx.count info, nodeStat := s }

def recordOutboundPacket (rounds : Nat) (c : StatCollector) (now : Time32) (p : Packet) :
    Option StatCollector :=
  match PacketInfo.updateFromPacket now p with
  | none => some c
  | some info =>
    (c.nodeStat.updateFromOutboundPacket rounds info).map fun s =>
      { c with tx := c.tx.count info, nodeStat := s }

end StatCollector

inductive Direction where
  | inbound
  | outbound
  deriving DecidableEq

/-- A packet that passes the daemon, and what `time_ms` says then. -/
structure Passage where
  direction : Direction
  packet : Packet
  now : Time32

namespace StatCollector

def record (rounds : Nat) (c : StatCollector) (e : Passage) : Option StatCollector :=
  match e.direction with
  | .inbound => c.recordInboundPacket rounds e.now e.packet
  | .outbound => c.recordOutboundPacket rounds e.now e.packet

/-- The packets one after the other; each may take `rounds` rounds to find an object for its node. -/
def records (rounds : Nat) (c : StatCollector) (es : List Passage) : Option StatCollector :=
  es.foldlM (record rounds) c

end StatCollector

/-! ## 4. What a packet does to the nodes -/

namespace Passage

/-- The other end: the source of a packet that comes in, the destination of one that goes out. -/
def peer (e : Passage) : IPAddress :=
  match e.direction with
  | .inbound => e.packet.address 8
  | .outbound => e.packet.address 24

/-- What the collector keeps of the packet, if it looks at it. -/
def info (e : Passage) : Option PacketInfo := PacketInfo.updateFromPacket e.now e.packet

theorem info_eq_none_iff (e : Passage) : e.info = none ↔ e.packet.isIpv6 = false := by
  rw [info, PacketInfo.updateFromPacket]
  split <;> simp_all

theorem info_fields {e : Passage} {i : PacketInfo} (h : e.info = some i) :
    i.timeStamp = setToNow e.now ∧ i.srcAddress = e.packet.address 8 ∧
      i.dstAddress = e.packet.address 24 := by
  rw [info, PacketInfo.updateFromPacket] at h
  split at h
  · cases h
    exact ⟨rfl, rfl, rfl⟩
  · cases h

end Passage

/-- The counters and the history of the packet's direction. -/
def NodeInfo.countPacket (n : NodeInfo) (e : Passage) (i : PacketInfo) : NodeInfo :=
  match e.direction with
  | .inbound => n.countInbound i
  | .outbound => n.countOutbound i

namespace NodeStat

/-- What recording a packet does to the nodes. -/
def observe (rounds : Nat) (s : NodeStat) (e : Passage) : Option NodeStat :=
  match e.info with
  | none => some s
  | some i => s.update rounds e.peer fun n => n.countPacket e i

end NodeStat

open StatCollector

theorem record_nodeStat (rounds : Nat) (c : StatCollector) (e : Passage) :
    (c.record rounds e).map nodeStat = c.nodeStat.observe rounds e := by
  obtain ⟨direction, packet, now⟩ := e
  cases hi : Passage.info ⟨direction, packet, now⟩ with
  | none =>
    have hinfo : PacketInfo.updateFromPacket now packet = none := hi
    rw [NodeStat.observe, hi]
    cases direction with
    | inbound => simp only [record, recordInboundPacket, hinfo, map_some]
    | outbound => simp only [record, recordOutboundPacket, hinfo, map_some]
  | some i =>
    have hinfo : PacketInfo.updateFromPacket now packet = some i := hi
    obtain ⟨-, hsrc, hdst⟩ := Passage.info_fields hi
    rw [NodeStat.observe, hi]
    cases direction with
    | inbound =>
      simp only [record, recordInboundPacket, hinfo, Option.map_map, NodeStat.updateFromInboundPacket, hsrc]
      exact map_id'
    | outbound =>
      simp only [record, recordOutboundPacket, hinfo, Option.map_map,
        NodeStat.updateFromOutboundPacket, hdst]
      exact map_id'

theorem records_nodeStat (rounds : Nat) (c : StatCollector) (es : List Passage) :
    (c.records rounds es).map nodeStat = es.foldlM (NodeStat.observe rounds) c.nodeStat := by
  induction es generalizing c with
  | nil => rfl
  | cons e es ih =>
    rw [records, foldlM_cons, foldlM_cons, ← record_nodeStat]
    cases c.record rounds e with
    | none => rfl
    | some c' => exact ih c'

theorem records_of_observed {rounds : Nat} {elements : Nat → NodeInfo} {es : List Passage} {s : NodeStat}
    (h : es.foldlM (NodeStat.observe rounds) (NodeStat.new elements) = some s) (cells : Nat → PacketInfo) :
    ∃ c, (new cells elements).records rounds es = some c ∧ c.nodeStat = s :=
  map_eq_some_iff.mp ((records_nodeStat rounds (new cells elements) es).trans h)

namespace NodeStat

variable {rounds : Nat} {s s' : NodeStat} {a : IPAddress} {f : NodeInfo → NodeInfo}

/-- **All that a packet can do to the nodes**: the node of its peer is changed, or one is made for it. -/
theorem update_cases (h : s.update rounds a f = some s') :
    (∃ b p, (b, p) ∈ s.nodeInfoMap ∧ a.compared = b.compared ∧ s' = s.modify p f) ∨
    (∃ p s₀, (∀ e ∈ s.nodeInfoMap, a.compared ≠ e.1.compared) ∧ allocLoop rounds s = some (p, s₀) ∧
      s' = (s₀.addNode a p).modify p f) := by
  rw [update] at h
  cases hfind : s.findNodeInfo a with
  | some p =>
    rw [hfind] at h
    obtain ⟨b, hb, hk⟩ := StdMap.mem_of_find IPAddress.equivalent_lt_iff hfind
    exact .inl ⟨b, p, hb, hk, (some.inj h).symm⟩
  | none =>
    rw [hfind] at h
    obtain ⟨r, hr, rfl⟩ := map_eq_some_iff.mp h
    obtain ⟨q, hq, rfl⟩ := map_eq_some_iff.mp hr
    exact .inr ⟨q.1, q.2, (StdMap.find_eq_none_iff IPAddress.equivalent_lt_iff).mp hfind, hq, rfl⟩

theorem update_isSome (a : IPAddress) (f : NodeInfo → NodeInfo) (h : (allocLoop rounds s).isSome) :
    ∃ s', s.update rounds a f = some s' := by
  rw [update]
  cases s.findNodeInfo a with
  | some p => exact ⟨_, rfl⟩
  | none =>
    obtain ⟨r, hr⟩ := isSome_iff_exists.mp h
    exact ⟨_, by rw [createNewNodeInfo, hr]; rfl⟩

theorem addNode_perm {p : Nat} (hnew : ∀ e ∈ s.nodeInfoMap, a.compared ≠ e.1.compared) :
    (s.addNode a p).nodeInfoMap.Perm ((a, p) :: s.nodeInfoMap) :=
  StdMap.insert_perm IPAddress.equivalent_lt_iff hnew

end NodeStat

end DcuDaemon.Wfantund
