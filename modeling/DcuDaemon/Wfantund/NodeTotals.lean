/-
  What the totals of a node of the C++ statistics count.

  The node map takes addresses for the same whose last 12 bytes agree, so their packets are counted
  together.

  Main result: `node_totals_exact_iff`.
-/
import DcuDaemon.Wfantund.NodePool

namespace DcuDaemon.Wfantund

open Lib Firewall List

/-! ## 1. Counts -/

/-- The packets of a direction whose peer is this address. -/
def countTo (d : Direction) (a : IPAddress) (es : List Passage) : Nat :=
  es.countP fun e => decide (e.direction = d ∧ e.peer = a)

/-- The packets of a direction whose peer is this address to the node map. -/
def countAlike (d : Direction) (a : IPAddress) (es : List Passage) : Nat :=
  es.countP fun e => decide (e.direction = d ∧ e.peer.compared = a.compared)

def NodeInfo.total (n : NodeInfo) : Direction → UInt32
  | .inbound => n.rxPacketsTotal
  | .outbound => n.txPacketsTotal

section Counts

variable {d : Direction} {a b : IPAddress} {es : List Passage} {e : Passage}

theorem countAlike_concat (d : Direction) (a : IPAddress) (es : List Passage) (e : Passage) :
    countAlike d a (es ++ [e]) =
      countAlike d a es + if e.direction = d ∧ e.peer.compared = a.compared then 1 else 0 := by
  rw [countAlike, countP_append, countP_singleton]
  simp only [decide_eq_true_eq]
  rfl

theorem countAlike_congr (h : a.compared = b.compared) : countAlike d a es = countAlike d b es := by
  rw [countAlike, countAlike, h]

theorem countAlike_le (d : Direction) (a : IPAddress) (es : List Passage) : countAlike d a es ≤ es.length :=
  countP_le_length

/-- Equal counts of a narrower and a wider kind: there is no more of the wider one. -/
theorem of_countP_eq {α : Type} {p q : α → Bool} {xs : List α} (hpq : ∀ x, p x → q x)
    (h : xs.countP p = xs.countP q) : ∀ x ∈ xs, q x → p x := by
  induction xs with
  | nil => exact fun x hx => absurd hx not_mem_nil
  | cons y xs ih =>
    have hle : xs.countP p ≤ xs.countP q := countP_mono_left fun x _ => hpq x
    rw [countP_cons, countP_cons] at h
    have hy : q y → p y := by
      intro hqy
      refine Classical.byContradiction fun hpy => ?_
      rw [if_pos hqy, if_neg hpy] at h
      omega
    have hrest : xs.countP p = xs.countP q := by
      by_cases hqy : q y
      · rw [if_pos hqy, if_pos (hy hqy)] at h
        omega
      · rw [if_neg hqy, if_neg fun hpy => hqy (hpq y hpy)] at h
        exact h
    intro x hx
    rcases mem_cons.mp hx with rfl | hx
    · exact hy
    · exact ih hrest x hx

/-- **Alike peers are counted together**, so both counts agree only if there are none. -/
theorem countTo_eq_iff :
    (∀ d, countTo d a es = countAlike d a es) ↔ ∀ e ∈ es, e.peer.compared = a.compared → e.peer = a := by
  refine ⟨fun h e he halike => ?_, fun h d => ?_⟩
  · have hexact := of_countP_eq (p := fun x : Passage => decide (x.direction = e.direction ∧ x.peer = a))
      (fun x hx => by
        rw [decide_eq_true_iff] at hx ⊢
        exact ⟨hx.1, by rw [hx.2]⟩) (h e.direction) e he (decide_eq_true ⟨rfl, halike⟩)
    exact (of_decide_eq_true hexact).2
  · refine countP_congr fun e he => ?_
    rw [decide_eq_true_iff, decide_eq_true_iff]
    refine and_congr_right fun _ => ⟨fun hpeer => by rw [hpeer], h e he⟩

end Counts

/-! ## 2. The totals along a run -/

namespace NodeStat

/-- The nodes after these packets: every peer has one, and its totals count all peers like it. -/
structure Counted (es : List Passage) (s : NodeStat) : Prop where
  owned : Owned s
  entries : ∀ x ∈ s.nodeInfoMap, x.1 ∈ es.map Passage.peer
  present : ∀ a ∈ es.map Passage.peer, ∃ x ∈ s.nodeInfoMap, a.compared = x.1.compared
  totals : ∀ x ∈ s.nodeInfoMap, ∀ d, ((s.elementPool x.2).total d).toNat = countAlike d x.1 es

section Run

variable {s s' : NodeStat} {es : List Passage} {e : Passage} {rounds : Nat}

theorem counted_new (elements : Nat → NodeInfo) : Counted [] (new elements) where
  owned := owned_new elements
  entries := fun _ hx => absurd hx not_mem_nil
  present := fun _ ha => absurd ha not_mem_nil
  totals := fun _ hx => absurd hx not_mem_nil

theorem Counted.room (h : Counted es s) (hpeers : ((es ++ [e]).map Passage.peer).dedup.length ≤ 64)
    (hfull : s.freeElementList = []) : ∃ x ∈ s.nodeInfoMap, e.peer.compared = x.1.compared := by
  refine Classical.byContradiction fun hnone => ?_
  have hnew : e.peer ∉ s.nodeInfoMap.map Prod.fst := by
    intro hmem
    obtain ⟨x, hx, hpeer⟩ := mem_map.mp hmem
    exact hnone ⟨x, hx, by rw [hpeer]⟩
  have hkeys : (s.nodeInfoMap.map Prod.fst).Nodup := by
    have hnodup := h.owned.keys
    rw [show (fun x : NodeEntry => x.1.compared) = IPAddress.compared ∘ Prod.fst from rfl, ← map_map]
      at hnodup
    exact List.Nodup.of_map _ hnodup
  have hsub : e.peer :: s.nodeInfoMap.map Prod.fst ⊆ ((es ++ [e]).map Passage.peer).dedup := by
    intro a ha
    rw [mem_dedup, map_append, mem_append]
    rcases mem_cons.mp ha with rfl | ha
    · exact .inr (mem_singleton_self _)
    · obtain ⟨x, hx, rfl⟩ := mem_map.mp ha
      exact .inl (h.entries x hx)
  have hle := ((nodup_cons.mpr ⟨hnew, hkeys⟩).subperm hsub).length_le
  have hlen := h.owned.length
  rw [hfull, length_nil, add_zero] at hlen
  rw [length_cons, length_map, hlen] at hle
  exact absurd (hle.trans hpeers) (by decide)

theorem total_countPacket {n : NodeInfo} {i : PacketInfo} {k : Nat} (d : Direction)
    (hn : (n.total d).toNat = k) (hk : k + 1 < 2 ^ 32) :
    ((n.countPacket e i).total d).toNat = k + if e.direction = d then 1 else 0 := by
  have hone : ∀ t : UInt32, t.toNat = k → (t + 1).toNat = k + 1 := by
    intro t ht
    rw [UInt32.toNat_add, ht]
    exact Nat.mod_eq_of_lt hk
  rw [NodeInfo.countPacket]
  cases hdir : e.direction with
  | inbound =>
    cases d with
    | inbound => exact hone _ hn
    | outbound => exact hn
  | outbound =>
    cases d with
    | inbound => exact hn
    | outbound => exact hone _ hn

theorem Counted.nodeOf (h : Counted es s) {p : Nat} {n : NodeInfo} (hn : s.NodeOf e.peer p n) (d : Direction) :
    (n.total d).toNat = countAlike d e.peer es := by
  rcases hn with ⟨⟨b, hb, hk⟩, rfl⟩ | ⟨hnew, rfl⟩
  · rw [h.totals _ hb d]
    exact countAlike_congr hk.symm
  · have hzero : countAlike d e.peer es = 0 := by
      refine countP_eq_zero.mpr fun x hx hlike => ?_
      obtain ⟨y, hy, hk⟩ := h.present x.peer (mem_map_of_mem hx)
      exact hnew y hy ((of_decide_eq_true hlike).2.symm.trans hk)
    rw [hzero]
    cases d <;> rfl

theorem counted_observe (h : Counted es s) (hrounds : 2 ≤ rounds) (hv6 : e.packet.isIpv6)
    (hlen : (es ++ [e]).length < 2 ^ 32) (hpeers : ((es ++ [e]).map Passage.peer).dedup.length ≤ 64) :
    ∃ s', s.observe rounds e = some s' ∧ Counted (es ++ [e]) s' := by
  obtain ⟨s', hs', ⟨hno, -⟩ | ⟨i, -, -, hu⟩⟩ := observe_spec h.owned hrounds e
  · exact absurd (hno.symm.trans hv6) Bool.false_ne_true
  rw [length_append, length_singleton] at hlen
  have hkept := hu.kept (h.room hpeers)
  refine ⟨s', hs', hu.owned, fun x hx => ?_, fun a ha => ?_, fun x hx d => ?_⟩
  · rw [map_append, mem_append]
    by_cases hk : e.peer.compared = x.1.compared
    · rcases (hu.peer x hx hk).1 with hpeer | hx
      · exact .inr (by rw [hpeer]; exact mem_singleton_self _)
      · exact .inl (h.entries x hx)
    · exact .inl (h.entries x (hu.others x hx hk).1)
  · rw [map_append, mem_append] at ha
    rcases ha with ha | ha
    · obtain ⟨x, hx, hk⟩ := h.present a ha
      exact ⟨x, hkept x hx, hk⟩
    · rw [mem_singleton.mp ha]
      exact hu.found
  · rw [countAlike_concat]
    by_cases hk : e.peer.compared = x.1.compared
    · obtain ⟨-, n, hn, hnode⟩ := hu.peer x hx hk
      have hle := countAlike_le d e.peer es
      rw [hnode, total_countPacket d (h.nodeOf hn d) (by omega), countAlike_congr hk]
      simp only [hk, and_true]
    · obtain ⟨hx, hnode⟩ := hu.others x hx hk
      rw [hnode, h.totals x hx d, if_neg fun hboth => hk hboth.2]
      rfl

/-- **The totals after a run.** -/
theorem counted_run (hrounds : 2 ≤ rounds) (elements : Nat → NodeInfo)
    (hv6 : ∀ e ∈ es, e.packet.isIpv6) (hlen : es.length < 2 ^ 32)
    (hpeers : (es.map Passage.peer).dedup.length ≤ 64) :
    ∃ s, es.foldlM (observe rounds) (new elements) = some s ∧ Counted es s := by
  refine foldlM_prefix Counted (counted_new elements) fun done e s hpre h => ?_
  refine counted_observe h hrounds (hv6 e ?_) (hpre.length_le.trans_lt hlen) (le_trans ?_ hpeers)
  · exact hpre.mem (mem_append_right done (mem_singleton_self e))
  · refine ((nodup_dedup _).subperm fun a ha => ?_).length_le
    rw [mem_dedup] at ha ⊢
    exact (hpre.map Passage.peer).mem ha

end Run

/-- **The node of the address has counted its packets**, both ways, and no others. -/
def TotalsExact (s : NodeStat) (es : List Passage) (a : IPAddress) : Prop :=
  ∃ p, s.findNodeInfo a = some p ∧ (s.elementPool p).rxPacketsTotal.toNat = countTo .inbound a es ∧
    (s.elementPool p).txPacketsTotal.toNat = countTo .outbound a es

theorem totalsExact_iff {s : NodeStat} {es : List Passage} (h : Counted es s) {a : IPAddress}
    (ha : a ∈ es.map Passage.peer) :
    s.TotalsExact es a ↔ ∀ e ∈ es, e.peer.compared = a.compared → e.peer = a := by
  obtain ⟨⟨b, p⟩, hx, hk⟩ := h.present a ha
  have hfind : s.findNodeInfo a = some p :=
    (StdMap.find_eq_some_iff IPAddress.equivalent_lt_iff h.owned.keys).mpr ⟨b, hx, hk⟩
  have htotal : ∀ d, ((s.elementPool p).total d).toNat = countAlike d a es := fun d =>
    (h.totals _ hx d).trans (countAlike_congr hk.symm)
  rw [← countTo_eq_iff]
  refine ⟨fun hexact d => ?_, fun hcounts => ⟨p, hfind, ?_, ?_⟩⟩
  · obtain ⟨q, hq, hrx, htx⟩ := hexact
    obtain rfl := Option.some.inj (hfind.symm.trans hq)
    rw [← htotal d]
    cases d with
    | inbound => exact hrx.symm
    | outbound => exact htx.symm
  · exact (htotal .inbound).trans (hcounts .inbound).symm
  · exact (htotal .outbound).trans (hcounts .outbound).symm

end NodeStat

/-- **Per-node totals** of fewer than 2^32 packets with at most 64 peers are exact if no two peers agree in
    their last 12 bytes. -/
theorem node_totals_exact_iff (rounds : Nat) (hrounds : 2 ≤ rounds) (cells : Nat → PacketInfo)
    (elements : Nat → NodeInfo) (es : List Passage) (hv6 : ∀ e ∈ es, e.packet.isIpv6 = true)
    (hlen : es.length < 2 ^ 32) (hpeers : (es.map Passage.peer).dedup.length ≤ 64) :
    ∃ c, (StatCollector.new cells elements).records rounds es = some c ∧
      ((∀ a ∈ es.map Passage.peer, c.nodeStat.TotalsExact es a) ↔
        ∀ a ∈ es.map Passage.peer, ∀ b ∈ es.map Passage.peer, a.val.drop 4 = b.val.drop 4 → a = b) := by
  obtain ⟨s, hrun, hcounted⟩ := NodeStat.counted_run hrounds elements hv6 hlen hpeers
  obtain ⟨c, hc, rfl⟩ := records_of_observed hrun cells
  refine ⟨c, hc, forall₂_congr fun a ha => ?_⟩
  rw [NodeStat.totalsExact_iff hcounted ha]
  refine ⟨fun h b hb hk => ?_, fun h e he hk => ?_⟩
  · obtain ⟨e, he, rfl⟩ := mem_map.mp hb
    exact (h e he hk.symm).symm
  · exact (h e.peer (mem_map_of_mem he) hk.symm).symm

/-- Two packets of one peer, one each way; the first is stamped just before the clock wraps around. -/
def pings : List Passage :=
  [⟨.outbound, .ofBytes (0x60 :: List.replicate 39 1), 0⟩,
    ⟨.inbound, .ofBytes (0x60 :: List.replicate 39 1), 7⟩]

theorem node_totals_exact_pings :
    ∃ c, (StatCollector.new (fun _ => .blank) fun _ => .new fun _ => .blank).records 2 pings = some c ∧
      ((∀ a ∈ pings.map Passage.peer, c.nodeStat.TotalsExact pings a) ↔
        ∀ a ∈ pings.map Passage.peer, ∀ b ∈ pings.map Passage.peer, a.val.drop 4 = b.val.drop 4 → a = b) :=
  node_totals_exact_iff 2 (Nat.le_refl 2) _ _ pings (by decide) (by decide) (by decide)

/-- One packet each from `2001:db8::1` and from `fd00:db8::1`. -/
def twoPeers : List Passage :=
  [⟨.inbound, .ofBytes ([0x60, 0, 0, 0, 0, 0, 17, 64] ++ [0x20, 0x01, 0x0d, 0xb8] ++ List.replicate 11 0 ++ [1] ++
      List.replicate 16 0), 1000⟩,
    ⟨.inbound, .ofBytes ([0x60, 0, 0, 0, 0, 0, 17, 64] ++ [0xfd, 0x00, 0x0d, 0xb8] ++ List.replicate 11 0 ++ [1] ++
      List.replicate 16 0), 2000⟩]

/-- **Each of the two has sent one packet, and is said to have sent two.** -/
theorem two_peers_one_node : (twoPeers.map Passage.peer).map (fun a => (countTo .inbound a twoPeers,
    ((StatCollector.new (fun _ => .blank) fun _ => .new fun _ => .blank).records 2 twoPeers).map
      fun c => (c.nodeStat.findNodeInfo a).map fun p => (c.nodeStat.elementPool p).rxPacketsTotal)) =
    [(1, some (some 2)), (1, some (some 2))] := by
  decide +kernel

end DcuDaemon.Wfantund
