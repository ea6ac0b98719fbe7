/-
  Who holds the objects of the node pool of the C++ statistics, and which node has to go.

  Main result: `node_pool_sound`.
-/
import DcuDaemon.Wfantund.StatCollector

namespace DcuDaemon.Wfantund

open Lib Util List Option Time32

/-! ## 1. The last activity of a node -/

namespace NodeInfo

/-- How late an item was recorded; 0 if there is none. -/
def stampOffset (base : Time32) : Option PacketInfo → Nat
  | none => 0
  | some i => Time32.offset base i.timeStamp

/-- **The last activity of a node**: when the newest packet of its two histories was recorded. -/
def lastActivity (base : Time32) (n : NodeInfo) : Nat :=
  max (stampOffset base (n.rxHistory.back perNodeHistorySize))
    (stampOffset base (n.txHistory.back perNodeHistorySize))

/-- The histories of a node hold these packets, all of them with time stamps as `P` says. -/
structure Recorded (P : Time32 → Prop) (n : NodeInfo) (rx tx : List PacketInfo) : Prop where
  rxHolds : RingBuffer.Rep perNodeHistorySize n.rxHistory rx
  txHolds : RingBuffer.Rep perNodeHistorySize n.txHistory tx
  stamps : ∀ i ∈ rx ++ tx, P i.timeStamp

/-- A time stamp that was set, in the window. -/
def SetIn (base t : Time32) : Prop := t ≠ 0 ∧ Time32.InWindow base t

section Recorded

variable {base : Time32} {P : Time32 → Prop} {n : NodeInfo} {rx tx : List PacketInfo}

theorem recorded_clear (P : Time32 → Prop) (n : NodeInfo) : Recorded P n.clear [] [] where
  rxHolds := RingBuffer.rep_new (by decide) n.rxHistory.buffer
  txHolds := RingBuffer.rep_new (by decide) n.txHistory.buffer
  stamps := fun _ h => absurd h not_mem_nil

theorem Recorded.mono {Q : Time32 → Prop} (hPQ : ∀ t, P t → Q t) (h : Recorded P n rx tx) :
    Recorded Q n rx tx :=
  ⟨h.rxHolds, h.txHolds, fun i hi => hPQ _ (h.stamps i hi)⟩

variable {history : RingBuffer PacketInfo} {q : List PacketInfo} {i : PacketInfo}

theorem write_history (h : RingBuffer.Rep perNodeHistorySize history q) (i : PacketInfo) :
    ∃ q', RingBuffer.Rep perNodeHistorySize (history.forceWrite perNodeHistorySize i) (q' ++ [i]) ∧
      ∀ j ∈ q', j ∈ q := by
  have hwrite := RingBuffer.rep_forceWrite h i
  split at hwrite
  · exact ⟨q, hwrite, fun j hj => hj⟩
  · exact ⟨q.tail, hwrite, fun j hj => mem_of_mem_tail hj⟩

theorem recorded_countPacket (h : Recorded P n rx tx) (e : Passage) (hi : P i.timeStamp) :
    ∃ rx' tx', Recorded P (n.countPacket e i) rx' tx' ∧ rx' ++ tx' ≠ [] := by
  unfold countPacket
  cases e.direction with
  | inbound =>
    obtain ⟨q, hq, hsub⟩ := write_history h.rxHolds i
    refine ⟨q ++ [i], tx, ⟨hq, h.txHolds, fun j hj => ?_⟩, by simp⟩
    rcases mem_append.mp hj with hj | hj
    · rcases mem_append.mp hj with hj | hj
      · exact h.stamps j (mem_append_left tx (hsub j hj))
      · rwa [mem_singleton.mp hj]
    · exact h.stamps j (mem_append_right rx hj)
  | outbound =>
    obtain ⟨q, hq, hsub⟩ := write_history h.txHolds i
    refine ⟨rx, q ++ [i], ⟨h.rxHolds, hq, fun j hj => ?_⟩, by simp⟩
    rcases mem_append.mp hj with hj | hj
    · exact h.stamps j (mem_append_left tx hj)
    · rcases mem_append.mp hj with hj | hj
      · exact h.stamps j (mem_append_right rx (hsub j hj))
      · rwa [mem_singleton.mp hj]

theorem stampOffset_back_le {latest : Nat} (h : RingBuffer.Rep perNodeHistorySize history q)
    (hle : ∀ i ∈ q, offset base i.timeStamp ≤ latest) :
    stampOffset base (history.back perNodeHistorySize) ≤ latest := by
  rw [RingBuffer.back_eq h]
  cases hq : q.getLast? with
  | none => exact Nat.zero_le latest
  | some i => exact hle i (mem_of_getLast? hq)

theorem stampOffset_write (h : RingBuffer.Rep perNodeHistorySize history q) (i : PacketInfo) :
    stampOffset base ((history.forceWrite perNodeHistorySize i).back perNodeHistorySize) =
      offset base i.timeStamp := by
  obtain ⟨q', hq', -⟩ := write_history h i
  rw [RingBuffer.back_eq hq', getLast?_concat]
  rfl

/-- **A packet that is no older than what is recorded is the last activity.** -/
theorem lastActivity_countPacket (h : Recorded P n rx tx) (e : Passage)
    (hlatest : ∀ t, P t → offset base t ≤ offset base i.timeStamp) :
    (n.countPacket e i).lastActivity base = offset base i.timeStamp := by
  have hrx := stampOffset_back_le h.rxHolds fun j hj => hlatest _ (h.stamps j (mem_append_left tx hj))
  have htx := stampOffset_back_le h.txHolds fun j hj => hlatest _ (h.stamps j (mem_append_right rx hj))
  unfold countPacket lastActivity
  cases e.direction with
  | inbound =>
    show max (stampOffset base ((n.rxHistory.forceWrite _ i).back _)) _ = _
    rw [stampOffset_write h.rxHolds]
    exact max_eq_left htx
  | outbound =>
    show max _ (stampOffset base ((n.txHistory.forceWrite _ i).back _)) = _
    rw [stampOffset_write h.txHolds]
    exact max_eq_right hrx

theorem lastTime_spec (h : RingBuffer.Rep perNodeHistorySize history q)
    (hstamps : ∀ i ∈ q, SetIn base i.timeStamp) :
    (q = [] ∧ lastTime history = 0 ∧ stampOffset base (history.back perNodeHistorySize) = 0) ∨
    (lastTime history ≠ 0 ∧ Time32.InWindow base (lastTime history) ∧
      stampOffset base (history.back perNodeHistorySize) = offset base (lastTime history)) := by
  have hback := RingBuffer.back_eq h
  cases hq : q.getLast? with
  | none =>
    rw [hq] at hback
    exact .inl ⟨getLast?_eq_none_iff.mp hq, by rw [lastTime, hback], by rw [hback]; rfl⟩
  | some i =>
    rw [hq] at hback
    obtain ⟨hne, hin⟩ := hstamps i (mem_of_getLast? hq)
    have htime : lastTime history = i.timeStamp := by rw [lastTime, hback]
    rw [htime, hback]
    exact .inr ⟨hne, hin, rfl⟩

/-- **`get_last_rx_or_tx_time` is the last activity**, of a node with any. -/
theorem getLastRxOrTxTime_spec (h : Recorded (SetIn base) n rx tx) (hany : rx ++ tx ≠ []) :
    n.getLastRxOrTxTime ≠ 0 ∧ Time32.InWindow base n.getLastRxOrTxTime ∧
      offset base n.getLastRxOrTxTime = n.lastActivity base := by
  have hrx := lastTime_spec h.rxHolds fun i hi => h.stamps i (mem_append_left tx hi)
  have htx := lastTime_spec h.txHolds fun i hi => h.stamps i (mem_append_right rx hi)
  rw [getLastRxOrTxTime, getLastRxTime, getLastTxTime, lastActivity]
  rcases hrx with ⟨hnil, hzero, hoff⟩ | ⟨hrx, hrxin, hrxoff⟩
  · rw [if_pos hzero, hoff]
    rcases htx with ⟨hnil', -, -⟩ | ⟨htx, htxin, htxoff⟩
    · exact absurd (by rw [hnil, hnil']; rfl) hany
    · exact ⟨htx, htxin, htxoff.symm⟩
  · rw [if_neg hrx]
    rcases htx with ⟨-, hzero, hoff⟩ | ⟨htx, htxin, htxoff⟩
    · rw [if_pos hzero, hoff, Nat.max_zero]
      exact ⟨hrx, hrxin, hrxoff.symm⟩
    · rw [if_neg htx, hrxoff, htxoff]
      split
      · rename_i hbefore
        have hlt := (before_iff hrxin htxin).mp hbefore
        exact ⟨htx, htxin, (max_eq_right (le_of_lt hlt)).symm⟩
      · rename_i hbefore
        have hle := (not_before_iff hrxin htxin).mp (Bool.eq_false_iff.mpr hbefore)
        exact ⟨hrx, hrxin, (max_eq_left hle).symm⟩

end Recorded

end NodeInfo

namespace NodeStat

/-! ## 2. Who holds the objects -/

/-- **Every object of the pool is held by one entry, or is free**; no two entries have one address. -/
structure Owned (s : NodeStat) : Prop where
  objects : (s.nodeInfoMap.map Prod.snd ++ s.freeElementList).Perm (List.range maxNodes)
  keys : (s.nodeInfoMap.map fun e => e.1.compared).Nodup

section Owned

variable {s : NodeStat}

theorem owned_new (elements : Nat → NodeInfo) : Owned (new elements) := ⟨reverse_perm _, nodup_nil⟩

theorem Owned.nodup (h : Owned s) : (s.nodeInfoMap.map Prod.snd).Nodup :=
  (nodup_append.mp (h.objects.nodup_iff.mpr nodup_range)).1

theorem Owned.lt (h : Owned s) {e : NodeEntry} (he : e ∈ s.nodeInfoMap) : e.2 < maxNodes :=
  mem_range.mp (h.objects.mem_iff.mp (mem_append_left _ (mem_map_of_mem he)))

theorem Owned.length (h : Owned s) : s.nodeInfoMap.length + s.freeElementList.length = maxNodes := by
  have hlen := h.objects.length_eq
  rwa [length_append, length_map] at hlen

theorem Owned.ne_nil (h : Owned s) (hfree : s.freeElementList = []) : s.nodeInfoMap ≠ [] := by
  intro hnil
  have hlen := h.length
  rw [hfree, hnil] at hlen
  exact absurd hlen (by decide)

theorem Owned.eq_of_object (h : Owned s) {e e' : NodeEntry} (he : e ∈ s.nodeInfoMap)
    (he' : e' ∈ s.nodeInfoMap) (heq : e.2 = e'.2) : e = e' :=
  inj_on_of_nodup_map h.nodup he he' heq

end Owned

/-! ## 3. The oldest node -/

section Oldest

variable {base : Time32} {pool : Nat → NodeInfo} {e : NodeEntry} {m : List NodeEntry}

theorem oldest_mem (pool : Nat → NodeInfo) (t : Time32) (e : NodeEntry) (m : List NodeEntry) :
    ∃ t' e', m.foldl (oldestRound pool) (t, some e) = (t', some e') ∧ e' ∈ e :: m := by
  induction m generalizing t e with
  | nil => exact ⟨t, e, rfl, mem_singleton_self e⟩
  | cons cur m ih =>
    have hround : ∃ t', oldestRound pool (t, some e) cur = (t', some e) ∨
        oldestRound pool (t, some e) cur = (t', some cur) := by
      unfold oldestRound
      dsimp only
      split_ifs
      all_goals first | exact ⟨_, .inl rfl⟩ | exact ⟨_, .inr rfl⟩
    obtain ⟨t', hkept | htaken⟩ := hround
    · obtain ⟨t'', e', hfold, hmem⟩ := ih t' e
      refine ⟨t'', e', by rw [foldl_cons, hkept, hfold], ?_⟩
      rcases mem_cons.mp hmem with rfl | hmem
      · exact mem_cons_self
      · exact mem_cons_of_mem e (mem_cons_of_mem cur hmem)
    · obtain ⟨t'', e', hfold, hmem⟩ := ih t' cur
      exact ⟨t'', e', by rw [foldl_cons, htaken, hfold], mem_cons_of_mem e hmem⟩

/-- The time stamp by which nodes are compared. -/
def nodeTime (pool : Nat → NodeInfo) (e : NodeEntry) : Time32 := (pool e.2).getLastRxOrTxTime

theorem oldestRound_eq {cur : NodeEntry} (he : nodeTime pool e ≠ 0) (hcur : nodeTime pool cur ≠ 0) :
    oldestRound pool (nodeTime pool e, some e) cur =
      if before (nodeTime pool cur) (nodeTime pool e) then (nodeTime pool cur, some cur)
      else (nodeTime pool e, some e) := by
  have hts : (pool cur.2).getLastRxOrTxTime ≠ 0 := hcur
  rw [oldestRound, if_neg he, if_pos hts]
  rfl

/-- **The search keeps an oldest entry of those it has seen.** -/
theorem oldest_le (hset : ∀ x ∈ e :: m, NodeInfo.SetIn base (nodeTime pool x)) :
    ∃ e', m.foldl (oldestRound pool) (nodeTime pool e, some e) = (nodeTime pool e', some e') ∧ e' ∈ e :: m ∧
      ∀ x ∈ e :: m, offset base (nodeTime pool e') ≤ offset base (nodeTime pool x) := by
  induction m generalizing e with
  | nil =>
    refine ⟨e, rfl, mem_singleton_self e, fun x hx => ?_⟩
    rw [mem_singleton.mp hx]
  | cons cur m ih =>
    have he := hset e mem_cons_self
    have hcur := hset cur (mem_cons_of_mem e mem_cons_self)
    rw [foldl_cons, oldestRound_eq he.1 hcur.1]
    cases hbefore : before (nodeTime pool cur) (nodeTime pool e) with
    | true =>
      have hlt := (before_iff hcur.2 he.2).mp hbefore
      obtain ⟨e', hfold, hmem, hle⟩ := ih fun x hx => hset x (mem_cons_of_mem e hx)
      refine ⟨e', hfold, mem_cons_of_mem e hmem, fun x hx => ?_⟩
      rcases mem_cons.mp hx with rfl | hx
      · exact (hle cur mem_cons_self).trans (le_of_lt hlt)
      · exact hle x hx
    | false =>
      have hge := (not_before_iff hcur.2 he.2).mp hbefore
      have hsub : ∀ x ∈ e :: m, x ∈ e :: cur :: m := fun x hx =>
        (sublist_cons_self cur m).cons_cons e |>.mem hx
      obtain ⟨e', hfold, hmem, hle⟩ := ih fun x hx => hset x (hsub x hx)
      refine ⟨e', hfold, hsub e' hmem, fun x hx => ?_⟩
      rcases mem_cons.mp hx with rfl | hx
      · exact hle x mem_cons_self
      · rcases mem_cons.mp hx with rfl | hx
        · exact (hle e mem_cons_self).trans hge
        · exact hle x (mem_cons_of_mem e hx)

theorem oldestRound_first (e : NodeEntry) : oldestRound pool (0, some e) e = (nodeTime pool e, some e) := by
  have hself : before (nodeTime pool e) (nodeTime pool e) = false := by
    rw [before, BitVec.sub_self]
    rfl
  show (if nodeTime pool e ≠ 0 then if before (nodeTime pool e) (nodeTime pool e) then _ else _
    else _) = _
  rw [hself]
  exact ite_self _

theorem oldestNode_mem {s : NodeStat} (h : s.nodeInfoMap ≠ []) :
    ∃ e ∈ s.nodeInfoMap, s.oldestNode = some e := by
  obtain ⟨e, m, hm⟩ := exists_cons_of_ne_nil h
  rw [oldestNode, hm, head?_cons, foldl_cons, oldestRound_first]
  obtain ⟨t, e', hfold, hmem⟩ := oldest_mem s.elementPool (nodeTime s.elementPool e) e m
  exact ⟨e', hmem, by rw [hfold]⟩

/-- The nodes are all in use, with their time stamps set in the window. -/
def Stamped (P : Time32 → Prop) (s : NodeStat) : Prop :=
  ∀ e ∈ s.nodeInfoMap, ∃ rx tx, NodeInfo.Recorded P (s.elementPool e.2) rx tx ∧ rx ++ tx ≠ []

/-- **The node that is found has the oldest last activity.** -/
theorem oldestNode_spec {s : NodeStat} (hstamped : Stamped (NodeInfo.SetIn base) s) (h : s.oldestNode = some e) :
    ∀ e' ∈ s.nodeInfoMap,
      (s.elementPool e.2).lastActivity base ≤ (s.elementPool e'.2).lastActivity base := by
  have htime : ∀ x ∈ s.nodeInfoMap, NodeInfo.SetIn base (nodeTime s.elementPool x) ∧
      offset base (nodeTime s.elementPool x) = (s.elementPool x.2).lastActivity base := by
    intro x hx
    obtain ⟨rx, tx, hrec, hany⟩ := hstamped x hx
    obtain ⟨hne, hin, hoff⟩ := NodeInfo.getLastRxOrTxTime_spec hrec hany
    exact ⟨⟨hne, hin⟩, hoff⟩
  cases hm : s.nodeInfoMap with
  | nil => exact fun e' he' => absurd he' not_mem_nil
  | cons x m =>
    rw [hm] at htime
    obtain ⟨y, hfold, hy, hle⟩ := oldest_le fun z hz => (htime z hz).1
    rw [oldestNode, hm, head?_cons, foldl_cons, oldestRound_first, hfold, some.injEq] at h
    subst h
    intro e' he'
    rw [← (htime y hy).2, ← (htime e' he').2]
    exact hle e' he'

end Oldest

/-! ## 4. An object for a new node -/

section Allocation

variable {s s' : NodeStat} {rounds : Nat}

theorem removeOldestNodeInfo_eq (h : Owned s) {e : NodeEntry} (he : e ∈ s.nodeInfoMap)
    (hold : s.oldestNode = some e) : s.removeOldestNodeInfo =
      { s with nodeInfoMap := s.nodeInfoMap.erase e, freeElementList := s.freeElementList ++ [e.2] } := by
  rw [removeOldestNodeInfo, hold]
  exact if_pos (h.lt he)

/-- **The loop ends with an object in its second round**: a free one, or that of the oldest node. -/
theorem allocLoop_cases (h : Owned s) (hrounds : 2 ≤ rounds) :
    (∃ p rest, s.freeElementList = p :: rest ∧
      allocLoop rounds s = some (p, { s with freeElementList := rest })) ∨
    (s.freeElementList = [] ∧ ∃ e ∈ s.nodeInfoMap, s.oldestNode = some e ∧
      allocLoop rounds s = some (e.2, { s with nodeInfoMap := s.nodeInfoMap.erase e })) := by
  obtain ⟨rounds, rfl⟩ := Nat.exists_eq_add_of_le hrounds
  rw [add_comm, allocLoop]
  cases hfree : s.freeElementList with
  | cons p rest => exact .inl ⟨p, rest, rfl, rfl⟩
  | nil =>
    obtain ⟨e, he, hold⟩ := oldestNode_mem (h.ne_nil hfree)
    refine .inr ⟨rfl, e, he, hold, ?_⟩
    show allocLoop (rounds + 1) s.removeOldestNodeInfo = _
    rw [removeOldestNodeInfo_eq h he hold, hfree]
    rfl

theorem allocLoop_spec (h : Owned s) (hrounds : 2 ≤ rounds) :
    ∃ p s₀, allocLoop rounds s = some (p, s₀) ∧ s₀.elementPool = s.elementPool ∧
      s₀.nodeInfoMap.Sublist s.nodeInfoMap ∧ (s.freeElementList ≠ [] → s₀.nodeInfoMap = s.nodeInfoMap) ∧
      (p :: (s₀.nodeInfoMap.map Prod.snd ++ s₀.freeElementList)).Perm (range maxNodes) := by
  rcases allocLoop_cases h hrounds with ⟨p, rest, hfree, halloc⟩ | ⟨hfree, e, he, -, halloc⟩
  · refine ⟨p, _, halloc, rfl, List.Sublist.refl _, fun _ => rfl, ?_⟩
    have hperm := h.objects
    rw [hfree] at hperm
    exact perm_middle.symm.trans hperm
  · refine ⟨e.2, _, halloc, rfl, erase_sublist, fun hne => absurd hfree hne, ?_⟩
    have herase : (s.nodeInfoMap.map Prod.snd).Perm (e.2 :: (s.nodeInfoMap.erase e).map Prod.snd) :=
      (perm_cons_erase he).map Prod.snd
    exact (herase.symm.append_right s.freeElementList).trans h.objects

end Allocation

/-! ## 5. The nodes after a packet -/

section View

variable {s s' : NodeStat} {rounds : Nat} {a : IPAddress} {f : NodeInfo → NodeInfo}

/-- The node of an address: a new one, or the one that the address has. -/
def NodeOf (s : NodeStat) (a : IPAddress) (p : Nat) (n : NodeInfo) : Prop :=
  ((∃ b, (b, p) ∈ s.nodeInfoMap ∧ a.compared = b.compared) ∧ n = s.elementPool p) ∨
  ((∀ e ∈ s.nodeInfoMap, a.compared ≠ e.1.compared) ∧ n = (s.elementPool p).clear)

/-- **The entries after a packet**: the others stay, its peer's points to its node or a new one, with the
    packet counted. -/
structure Updated (s s' : NodeStat) (a : IPAddress) (f : NodeInfo → NodeInfo) : Prop where
  owned : Owned s'
  others : ∀ e ∈ s'.nodeInfoMap, a.compared ≠ e.1.compared →
    e ∈ s.nodeInfoMap ∧ s'.elementPool e.2 = s.elementPool e.2
  peer : ∀ e ∈ s'.nodeInfoMap, a.compared = e.1.compared →
    (e.1 = a ∨ e ∈ s.nodeInfoMap) ∧ ∃ n, s.NodeOf a e.2 n ∧ s'.elementPool e.2 = f n
  found : ∃ e ∈ s'.nodeInfoMap, a.compared = e.1.compared
  kept : (s.freeElementList = [] → ∃ e ∈ s.nodeInfoMap, a.compared = e.1.compared) →
    ∀ e ∈ s.nodeInfoMap, e ∈ s'.nodeInfoMap

theorem updated_modify (h : Owned s) {b : IPAddress} {p : Nat} (hb : (b, p) ∈ s.nodeInfoMap)
    (hk : a.compared = b.compared) : Updated s (s.modify p f) a f where
  owned := ⟨h.objects, h.keys⟩
  others := fun e he hne => by
    refine ⟨he, Function.update_of_ne (fun heq => ?_) _ _⟩
    have hsame : e = (b, p) := h.eq_of_object he hb heq
    exact hne (by rw [hsame, hk])
  peer := fun e he hek => by
    have hsame : e = (b, p) := inj_on_of_nodup_map h.keys he hb (hek.symm.trans hk)
    subst hsame
    exact ⟨.inr he, _, .inl ⟨⟨b, hb, hk⟩, rfl⟩, Function.update_self _ _ _⟩
  found := ⟨(b, p), hb, hk⟩
  kept := fun _ e he => he

theorem updated_addNode (h : Owned s) {p : Nat} {s₀ : NodeStat}
    (hnew : ∀ e ∈ s.nodeInfoMap, a.compared ≠ e.1.compared)
    (hpool : s₀.elementPool = s.elementPool) (hsub : s₀.nodeInfoMap.Sublist s.nodeInfoMap)
    (hkept : s.freeElementList ≠ [] → s₀.nodeInfoMap = s.nodeInfoMap)
    (hperm : (p :: (s₀.nodeInfoMap.map Prod.snd ++ s₀.freeElementList)).Perm (range maxNodes)) :
    Updated s ((s₀.addNode a p).modify p f) a f := by
  have hadd : (s₀.addNode a p).nodeInfoMap.Perm ((a, p) :: s₀.nodeInfoMap) :=
    addNode_perm fun e he => hnew e (hsub.mem he)
  have hfresh : ∀ e ∈ s₀.nodeInfoMap, e.2 ≠ p := by
    intro e he heq
    have hnodup := hperm.nodup_iff.mpr nodup_range
    exact (nodup_cons.mp hnodup).1 (mem_append_left _ (heq ▸ mem_map_of_mem he))
  have hentry : ∀ e, e ∈ (s₀.addNode a p).nodeInfoMap ↔ e = (a, p) ∨ e ∈ s₀.nodeInfoMap := fun e =>
    hadd.mem_iff.trans mem_cons
  have hadded : (s₀.addNode a p).elementPool = Function.update s.elementPool p (s.elementPool p).clear := by
    rw [← hpool]
    rfl
  have hnode : ((s₀.addNode a p).modify p f).elementPool p = f (s.elementPool p).clear := by
    show Function.update (s₀.addNode a p).elementPool p (f ((s₀.addNode a p).elementPool p)) p = _
    rw [Function.update_self, hadded, Function.update_self]
  have hother : ∀ q ≠ p, ((s₀.addNode a p).modify p f).elementPool q = s.elementPool q := by
    intro q hq
    show Function.update (s₀.addNode a p).elementPool p _ q = _
    rw [Function.update_of_ne hq, hadded, Function.update_of_ne hq]
  refine ⟨⟨?_, ?_⟩, fun e he hne => ?_, fun e he hek => ?_, ?_, fun hfree e he => ?_⟩
  · exact ((hadd.map Prod.snd).append_right s₀.freeElementList).trans hperm
  · refine (hadd.map fun e => e.1.compared).nodup_iff.mpr (nodup_cons.mpr ⟨fun hmem => ?_, ?_⟩)
    · obtain ⟨e, he, hek⟩ := mem_map.mp hmem
      exact hnew e (hsub.mem he) hek.symm
    · exact h.keys.sublist (hsub.map _)
  · rcases (hentry e).mp he with rfl | he
    · exact absurd rfl hne
    · exact ⟨hsub.mem he, hother e.2 (hfresh e he)⟩
  · rcases (hentry e).mp he with rfl | he
    · exact ⟨.inl rfl, _, .inr ⟨hnew, rfl⟩, hnode⟩
    · exact absurd hek (hnew e (hsub.mem he))
  · exact ⟨(a, p), (hentry _).mpr (.inl rfl), rfl⟩
  · have hsome : s.freeElementList ≠ [] := by
      intro hnil
      obtain ⟨x, hx, hk⟩ := hfree hnil
      exact hnew x hx hk
    exact (hentry e).mpr (.inr (hkept hsome ▸ he))

/-- **A packet is recorded**, if the loop that looks for an object may take two rounds. -/
theorem update_spec (h : Owned s) (hrounds : 2 ≤ rounds) (a : IPAddress) (f : NodeInfo → NodeInfo) :
    ∃ s', s.update rounds a f = some s' ∧ Updated s s' a f := by
  obtain ⟨p, s₀, halloc, hpool, hsub, hkept, hperm⟩ := allocLoop_spec h hrounds
  obtain ⟨s', hs'⟩ := update_isSome a f (isSome_iff_exists.mpr ⟨_, halloc⟩)
  refine ⟨s', hs', ?_⟩
  rcases update_cases hs' with ⟨b, q, hb, hk, rfl⟩ | ⟨q, s₁, hnew, halloc', rfl⟩
  · exact updated_modify h hb hk
  · obtain ⟨rfl, rfl⟩ := Prod.mk.inj (some.inj (halloc.symm.trans halloc'))
    exact updated_addNode h hnew hpool hsub hkept hperm

theorem observe_spec (h : Owned s) (hrounds : 2 ≤ rounds) (e : Passage) :
    ∃ s', s.observe rounds e = some s' ∧ ((e.packet.isIpv6 = false ∧ s' = s) ∨
      ∃ i, e.packet.isIpv6 ∧ i.timeStamp = setToNow e.now ∧
        Updated s s' e.peer fun n => n.countPacket e i) := by
  rw [observe]
  cases hi : e.info with
  | none => exact ⟨s, rfl, .inl ⟨e.info_eq_none_iff.mp hi, rfl⟩⟩
  | some i =>
    obtain ⟨s', hs', hupdated⟩ := update_spec h hrounds e.peer fun n => n.countPacket e i
    have hv6 : e.packet.isIpv6 := by
      refine Bool.of_not_eq_false fun hno => ?_
      rw [e.info_eq_none_iff.mpr hno] at hi
      cases hi
    exact ⟨s', hs', .inr ⟨i, hv6, (Passage.info_fields hi).1, hupdated⟩⟩

end View

/-! ## 6. Runs -/

section Runs

variable {base : Time32} {P : Time32 → Prop} {s s' : NodeStat} {rounds : Nat} {e : Passage} {i : PacketInfo}

theorem Stamped.mono {Q : Time32 → Prop} (hPQ : ∀ t, P t → Q t) (h : Stamped P s) : Stamped Q s := by
  intro x hx
  obtain ⟨rx, tx, hrec, hany⟩ := h x hx
  exact ⟨rx, tx, hrec.mono hPQ, hany⟩

theorem Stamped.nodeOf (h : Stamped P s) {a : IPAddress} {p : Nat} {n : NodeInfo} (hn : s.NodeOf a p n) :
    ∃ rx tx, NodeInfo.Recorded P n rx tx := by
  rcases hn with ⟨⟨b, hb, -⟩, rfl⟩ | ⟨-, rfl⟩
  · obtain ⟨rx, tx, hrec, -⟩ := h _ hb
    exact ⟨rx, tx, hrec⟩
  · exact ⟨[], [], NodeInfo.recorded_clear P _⟩

theorem Stamped.updated (h : Stamped P s) (hu : Updated s s' e.peer fun n => n.countPacket e i)
    (hi : P i.timeStamp) : Stamped P s' := by
  intro x hx
  by_cases hk : e.peer.compared = x.1.compared
  · obtain ⟨-, n, hn, hnode⟩ := hu.peer x hx hk
    obtain ⟨rx, tx, hrec⟩ := h.nodeOf hn
    rw [hnode]
    exact NodeInfo.recorded_countPacket hrec e hi
  · obtain ⟨hx, hnode⟩ := hu.others x hx hk
    rw [hnode]
    exact h x hx

/-- The last packet that was exchanged with the node of an address. -/
def lastPassage (es : List Passage) (a : IPAddress) : Option Passage :=
  es.reverse.find? fun e => e.packet.isIpv6 && decide (e.peer.compared = a.compared)

theorem lastPassage_concat (es : List Passage) (e : Passage) (a : IPAddress) :
    lastPassage (es ++ [e]) a =
      if e.packet.isIpv6 ∧ e.peer.compared = a.compared then some e else lastPassage es a := by
  rw [lastPassage, reverse_append, reverse_singleton, singleton_append, find?_cons]
  split
  · rename_i h
    rw [Bool.and_eq_true, decide_eq_true_iff] at h
    rw [if_pos h]
  · rename_i h
    rw [Bool.and_eq_false_iff, decide_eq_false_iff_not] at h
    rw [if_neg fun hboth => h.elim (fun hno => Bool.false_ne_true (hno.symm.trans hboth.1)) (· hboth.2)]
    rfl

/-- The last activity of every node is the last packet that was exchanged with it. -/
def LastSeen (base : Time32) (es : List Passage) (s : NodeStat) : Prop :=
  ∀ x ∈ s.nodeInfoMap, ∃ e, lastPassage es x.1 = some e ∧
    (s.elementPool x.2).lastActivity base = Time32.offset base (setToNow e.now)

variable {es : List Passage}

theorem LastSeen.updated (h : LastSeen base es s) (hstamped : Stamped P s)
    (hu : Updated s s' e.peer fun n => n.countPacket e i) (hv6 : e.packet.isIpv6)
    (hi : i.timeStamp = setToNow e.now)
    (hlatest : ∀ t, P t → offset base t ≤ offset base (setToNow e.now)) :
    LastSeen base (es ++ [e]) s' := by
  intro x hx
  rw [lastPassage_concat]
  by_cases hk : e.peer.compared = x.1.compared
  · obtain ⟨-, n, hn, hnode⟩ := hu.peer x hx hk
    obtain ⟨rx, tx, hrec⟩ := hstamped.nodeOf hn
    rw [if_pos ⟨hv6, hk⟩, hnode, NodeInfo.lastActivity_countPacket hrec e (hi ▸ hlatest), hi]
    exact ⟨e, rfl, rfl⟩
  · obtain ⟨hx, hnode⟩ := hu.others x hx hk
    rw [if_neg fun hboth => hk hboth.2, hnode]
    exact h x hx

def ClockForward (base : Time32) (es : List Passage) : Prop :=
  es.Pairwise fun e e' => Time32.offset base (setToNow e.now) ≤ Time32.offset base (setToNow e'.now)

/-- What is known of the nodes after these packets. -/
structure After (base : Time32) (es : List Passage) (s : NodeStat) : Prop where
  owned : Owned s
  stamped : Stamped (fun t => ∃ e ∈ es, t = setToNow e.now) s
  lastSeen : ClockForward base es → LastSeen base es s

theorem after_new (base : Time32) (elements : Nat → NodeInfo) : After base [] (new elements) where
  owned := owned_new elements
  stamped := fun _ hx => absurd hx not_mem_nil
  lastSeen := fun _ _ hx => absurd hx not_mem_nil

theorem after_observe (h : After base es s) (hrounds : 2 ≤ rounds) (e : Passage) :
    ∃ s', s.observe rounds e = some s' ∧ After base (es ++ [e]) s' := by
  have hmore : ∀ t, (∃ x ∈ es, t = setToNow x.now) → ∃ x ∈ es ++ [e], t = setToNow x.now :=
    fun t ⟨x, hx, ht⟩ => ⟨x, mem_append_left [e] hx, ht⟩
  obtain ⟨s', hs', ⟨hno, rfl⟩ | ⟨i, hv6, hi, hu⟩⟩ := observe_spec h.owned hrounds e
  · refine ⟨s', hs', h.owned, h.stamped.mono hmore, fun hclock x hx => ?_⟩
    rw [lastPassage_concat, if_neg fun hboth => Bool.false_ne_true (hno.symm.trans hboth.1)]
    exact h.lastSeen (pairwise_append.mp hclock).1 x hx
  · refine ⟨s', hs', hu.owned, ?_, fun hclock => ?_⟩
    · exact (h.stamped.mono hmore).updated hu ⟨e, mem_append_right es (mem_singleton_self e), hi⟩
    · obtain ⟨hbefore, -, hcross⟩ := pairwise_append.mp hclock
      refine (h.lastSeen hbefore).updated h.stamped hu hv6 hi fun t ⟨x, hx, ht⟩ => ?_
      rw [ht]
      exact hcross x hx e (mem_singleton_self e)

theorem after_run (base : Time32) (hrounds : 2 ≤ rounds) (elements : Nat → NodeInfo) (es : List Passage) :
    ∃ s, es.foldlM (observe rounds) (new elements) = some s ∧ After base es s :=
  foldlM_prefix (After base) (after_new base elements) fun _ e _ _ h => after_observe h hrounds e

end Runs

/-- **The pool is used soundly**: an object of its own for each entry, all 64 accounted for, one for every new
    node, and the oldest gives its up. -/
structure PoolSound (base : Time32) (rounds : Nat) (s : NodeStat) : Prop where
  entries : s.nodeInfoMap.length ≤ 64
  distinct : (s.nodeInfoMap.map Prod.snd).Nodup
  inPool : ∀ e ∈ s.nodeInfoMap, e.2 < 64
  total : s.nodeInfoMap.length + s.freeElementList.length = 64
  creates : ∀ a, ∃ p s', s.createNewNodeInfo rounds a = some (p, s')
  evicts : s.freeElementList = [] → ∃ e ∈ s.nodeInfoMap,
    s.removeOldestNodeInfo = { s with nodeInfoMap := s.nodeInfoMap.erase e, freeElementList := [e.2] } ∧
    ∀ e' ∈ s.nodeInfoMap, (s.elementPool e.2).lastActivity base ≤ (s.elementPool e'.2).lastActivity base

theorem poolSound {base : Time32} {rounds : Nat} {s : NodeStat} (h : Owned s)
    (hstamped : Stamped (NodeInfo.SetIn base) s) (hrounds : 2 ≤ rounds) : PoolSound base rounds s where
  entries := (Nat.le_add_right _ _).trans (le_of_eq h.length)
  distinct := h.nodup
  inPool := fun _ he => h.lt he
  total := h.length
  creates := fun a => by
    obtain ⟨p, s₀, halloc, -⟩ := allocLoop_spec h hrounds
    exact ⟨_, _, by rw [createNewNodeInfo, halloc]; rfl⟩
  evicts := fun hfree => by
    obtain ⟨e, he, hold⟩ := oldestNode_mem (h.ne_nil hfree)
    refine ⟨e, he, ?_, oldestNode_spec hstamped hold⟩
    rw [removeOldestNodeInfo_eq h he hold, hfree]
    rfl

end NodeStat

/-- **The node pool, along every run**, if all time stamps lie in half the circle. Where the clock does not go
    back, the last activity of a node is its last packet. -/
theorem node_pool_sound (base : Time32) (rounds : Nat) (hrounds : 2 ≤ rounds) (cells : Nat → PacketInfo)
    (elements : Nat → NodeInfo) (es : List Passage)
    (hwindow : ∀ e ∈ es, Time32.InWindow base (setToNow e.now)) :
    ∃ c, (StatCollector.new cells elements).records rounds es = some c ∧
      c.nodeStat.PoolSound base rounds ∧
      (NodeStat.ClockForward base es → c.nodeStat.LastSeen base es) := by
  obtain ⟨s, hrun, hafter⟩ := NodeStat.after_run base hrounds elements es
  obtain ⟨c, hc, rfl⟩ := records_of_observed hrun cells
  refine ⟨c, hc, NodeStat.poolSound hafter.owned (hafter.stamped.mono ?_) hrounds, hafter.lastSeen⟩
  rintro t ⟨e, he, rfl⟩
  exact ⟨setToNow_ne_zero e.now, hwindow e he⟩

/-- A packet from each of 65 peers, one for which an entry has to go; the first is stamped just before the
    clock wraps around. -/
def crowd : List Passage := (List.range 65).map fun i =>
  ⟨.inbound, .ofBytes (0x60 :: List.replicate 22 1 ++ UInt8.ofNat i :: List.replicate 16 1), BitVec.ofNat 32 i⟩

theorem node_pool_sound_crowd : (crowd.map Passage.peer).dedup.length = 65 ∧
    ∃ c, (StatCollector.new (fun _ => .blank) fun _ => .new fun _ => .blank).records 2 crowd = some c ∧
      c.nodeStat.PoolSound (-10) 2 ∧ c.nodeStat.LastSeen (-10) crowd := by
  obtain ⟨c, hc, hsound, hseen⟩ := node_pool_sound (-10) 2 (Nat.le_refl 2) (fun _ => .blank)
    (fun _ => .new fun _ => .blank) crowd (by decide +kernel)
  refine ⟨by decide +kernel, c, hc, hsound, hseen ?_⟩
  unfold NodeStat.ClockForward
  decide +kernel

end DcuDaemon.Wfantund
