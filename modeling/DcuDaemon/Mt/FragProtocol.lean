/-
  The sender of fragments against its peer (`frag_txrx_one_block`, `MT_MSG_tx_fragment` in
  `linux-host/src/mt_interface/api/src/mt_msg.c`).

  The sender repeats a block until it is acknowledged. `retry_max` only ends the inner loop: the outer
  one then starts it again for the same block. An acknowledgement that is taken out of the list frees all that
  are behind it, and the next wait reads them.

  Main results: `mtMsgTxFragment_bounded`, `acked_never_delivered`, `exchanges_never_deliver`.
-/
import DcuDaemon.Mt.Fragments

namespace DcuDaemon.Mt

open List Option

/-! ## 1. The sender -/

/-- The sender of a message: `pTxFragAck`, what will come before each of its looks at it, the other side, and
    the number of blocks it sent. -/
structure Tx (σ : Type) where
  acks : AckList
  inbox : List (List Msg)
  peer : σ
  sent : Nat

section Sender

variable {σ : Type} (send : Nat → σ → List (List Msg) × σ) (mi : Iface) (count : Nat)

/-- A block goes out, and the sender waits. What comes for it comes before anything else. -/
def attempt (block : Nat) (tx : Tx σ) : Wait × Tx σ :=
  let (news, peer) := send block tx.peer
  let (r, acks, inbox) := waitForFragAck mi count block tx.acks (news ++ tx.inbox)
  (r, ⟨acks, inbox, peer, tx.sent + 1⟩)

/-- `frag_txrx_one_block`, with the tries that are left. -/
def fragTxrxOneBlock (block : Nat) : Nat → Tx σ → Wait × Tx σ
  | 0, tx => (.resend, tx)
  | tries + 1, tx =>
    match attempt send mi count block tx with
    | (.resend, tx) => fragTxrxOneBlock block tries tx
    | (r, tx) => (r, tx)

/-- The loop of `MT_MSG_tx_fragment` from a block on: whether it ended without an error. A sender that used
    freed memory has no result. -/
def txBlocks : Nat → Nat → Tx σ → Option (Bool × Tx σ)
  | fuel, block, tx =>
    if count ≤ block then some (true, tx)
    else
      match fuel with
      | 0 => none
      | fuel + 1 =>
        match fragTxrxOneBlock send mi count block mi.retryMax tx with
        | (.advance, tx) => txBlocks fuel (block + 1) tx
        | (.resend, tx) => txBlocks fuel block tx
        | (.error, tx) => some (false, tx)
        | (.fault, _) => none

variable {send mi count} {block fuel : Nat} {tx tx' : Tx σ}

theorem txBlocks_of_le (h : count ≤ block) : txBlocks send mi count fuel block tx = some (true, tx) := by
  unfold txBlocks
  rw [if_pos h]

theorem txBlocks_zero (h : block < count) : txBlocks send mi count 0 block tx = none := by
  unfold txBlocks
  rw [if_neg (not_le.mpr h)]

theorem txBlocks_succ (h : block < count) :
    txBlocks send mi count (fuel + 1) block tx =
      match fragTxrxOneBlock send mi count block mi.retryMax tx with
      | (.advance, tx) => txBlocks send mi count fuel (block + 1) tx
      | (.resend, tx) => txBlocks send mi count fuel block tx
      | (.error, tx) => some (false, tx)
      | (.fault, _) => none := by
  rw [txBlocks, if_neg (not_le.mpr h)]

variable {P : σ → Prop} {ok : Bool} {r : Wait}

theorem fragTxrxOneBlock_peer (hsend : ∀ p, P p → P (send block p).2) (tries : Nat) (hp : P tx.peer) :
    P (fragTxrxOneBlock send mi count block tries tx).2.peer := by
  induction tries generalizing tx with
  | zero => exact hp
  | succ tries ih =>
    have hstep : P (attempt send mi count block tx).2.peer := hsend tx.peer hp
    rw [fragTxrxOneBlock]
    rcases hattempt : attempt send mi count block tx with ⟨r, tx'⟩
    rw [hattempt] at hstep
    cases r with
    | resend => exact ih hstep
    | advance => exact hstep
    | error => exact hstep
    | fault => exact hstep

/-- **What every transmission keeps of the other side** holds at the end. -/
theorem txBlocks_peer (hsend : ∀ b < count, ∀ p, P p → P (send b p).2) (hp : P tx.peer)
    (h : txBlocks send mi count fuel block tx = some (ok, tx')) : P tx'.peer := by
  induction fuel generalizing block tx with
  | zero =>
    rcases Nat.lt_or_ge block count with hlt | hge
    · rw [txBlocks_zero hlt] at h
      cases h
    · rw [txBlocks_of_le hge] at h
      cases h
      exact hp
  | succ fuel ih =>
    rcases Nat.lt_or_ge block count with hlt | hge
    · have hblock : P (fragTxrxOneBlock send mi count block mi.retryMax tx).2.peer :=
        fragTxrxOneBlock_peer (hsend block hlt) mi.retryMax hp
      rw [txBlocks_succ hlt] at h
      rcases hrun : fragTxrxOneBlock send mi count block mi.retryMax tx with ⟨r, tx₁⟩
      rw [hrun] at h hblock
      cases r with
      | advance => exact ih hblock h
      | resend => exact ih hblock h
      | error =>
        cases h
        exact hblock
      | fault => cases h
    · rw [txBlocks_of_le hge] at h
      cases h
      exact hp

end Sender

/-- `MT_MSG_tx_fragment` of a message of `len` bytes. The block count is a division. -/
def mtMsgTxFragment {σ : Type} (send : Nat → σ → List (List Msg) × σ) (mi : Iface)
    (len fuel : Nat) (tx : Tx σ) : Option (Bool × Tx σ) :=
  if mi.txFragSize = 0 then none else txBlocks send mi (blockCount mi len) fuel 0 tx

/-! ## 2. A peer that sends what it likes, one acknowledgement at a time -/

theorem look_cons {mi : Iface} {count block : Nat} (pAck : Msg) (rest : List Msg) (freed : Bool) :
    AckList.look mi count block ⟨pAck :: rest, freed⟩ =
      match judge mi count block pAck with
      | none => .again ⟨rest, freed⟩
      | some r => .ended (if freed then .fault else r) ⟨[], freed || !rest.isEmpty⟩ := rfl

/-- The sender with nothing in its list, and what each of its looks will find. -/
def Tx.waiting (script : List (Option Msg)) (sent : Nat) : Tx Unit :=
  ⟨⟨[], false⟩, script.map toList, (), sent⟩

section Script

variable (mi : Iface) (count : Nat)

/-- What a look comes to: `none` if it is skipped, as an acknowledgement of another block is. -/
def found (block : Nat) : Option Msg → Option Wait
  | none => some .resend
  | some pAck => judge mi count block pAck

/-- A look that does not end the tries for a block. -/
def Passed (block : Nat) (look : Option Msg) : Prop :=
  found mi count block look = none ∨ found mi count block look = some .resend

/-- The looks for a block, up to the one that finds its answer `r`. -/
def Answer (block : Nat) (r : Wait) (looks : List (Option Msg)) : Prop :=
  ∃ before last, looks = before ++ [last] ∧ found mi count block last = some r ∧
    ∀ look ∈ before, Passed mi count block look

/-- How often a block is sent for its looks. -/
def tries (block : Nat) (looks : List (Option Msg)) : Nat :=
  looks.countP fun look => (found mi count block look).isSome

end Script

section OneAtATime

variable {mi : Iface} {count block n sent : Nat} {script looks rest : List (Option Msg)} {r : Wait}

theorem wait_cons (look : Option Msg) (inbox : List (List Msg)) :
    waitForFragAck mi count block ⟨[], false⟩ (look.toList :: inbox) =
      (found mi count block look).elim (waitForFragAck mi count block ⟨[], false⟩ inbox)
        fun r => (r, ⟨[], false⟩, inbox) := by
  cases look with
  | none => rfl
  | some pAck =>
    have hlook : AckList.look mi count block ⟨(some pAck).toList.reverse ++ [], false⟩ = _ := look_cons pAck [] false
    rw [waitForFragAck, hlook, found]
    cases judge mi count block pAck <;> rfl

end OneAtATime

/-- The other side, and which of the acknowledgements to come are lost. -/
structure Link where
  thread : Thread
  losses : List Bool

/-- The acknowledgements of a block, or none of them. -/
def answers (mi : Iface) (l : Link) (sent : List Msg) : List Msg :=
  if l.losses.headD false then [] else acks mi sent

/-- A block goes over the channel; a receiver that faulted does not answer any more. -/
def linkSend (mi : Iface) (steps : Nat) (pMsg : Msg) (block : Nat) :
    Option Link → List (List Msg) × Option Link
  | none => ([[]], none)
  | some l =>
    match transmit mi steps pMsg block l.thread with
    | none => ([[]], none)
    | some t => ([answers mi l t.sent], some ⟨t, l.losses.tail⟩)

/-- A message goes over the channel: whether the sender ended without an error, and the other
    side. -/
def exchange (mi : Iface) (steps fuel : Nat) (q : Request) (link : Option Link) :
    Option (Bool × Option Link) :=
  (mtMsgTxFragment (linkSend mi steps (q.outgoing mi)) mi q.payload.length fuel
    ⟨⟨[], false⟩, [], link, 0⟩).map fun (ok, tx) => (ok, tx.peer)

/-- What came of a message: whether the sender ended without an error, what the other side put together
    meanwhile, and what it queued. -/
structure Outcome where
  request : Request
  acked : Bool
  whole : List Msg
  rxList : List Msg

def outcome (q : Request) (ok : Bool) (link : Option Link) : Outcome :=
  ⟨q, ok, (link.map (·.thread.whole)).getD [], (link.map (·.thread.rxList)).getD []⟩

/-- One message after another. -/
def exchanges (mi : Iface) (steps fuel : Nat) : List Request → Option Link → Option (List Outcome)
  | [], _ => some []
  | q :: qs, link =>
    (exchange mi steps fuel q
      (link.map fun l => { l with thread := { l.thread with whole := [], rxList := [] } })).bind
      fun (ok, link) => (exchanges mi steps fuel qs link).map (outcome q ok link :: ·)

/-! ## 4. What the sender makes of the answers -/

section Answers

variable {mi : Iface} {count block : Nat}

theorem acks_append (mi : Iface) (sent rest : List Msg) :
    acks mi (sent ++ rest) = acks mi sent ++ acks mi rest := by
  unfold acks
  rw [filterMap_append, filter_append]

theorem length_acks_le (mi : Iface) (sent : List Msg) : (acks mi sent).length ≤ sent.length :=
  (length_filter_le _ _).trans (length_filterMap_le _ _)

theorem acks_status (mi : Iface) (m : Msg) (b : Nat) (status : UInt8) :
    acks mi [commonSendStatus mi m b 4 status] = [] := by
  obtain ⟨r, hr, hret⟩ := arrive_commonSendStatus mi m b 4 status
  have htype := hret.mType_eq (or_bit7 m.cmd0).2.1 (by decide)
  have hnot : ¬ isFragAck r := by
    unfold isFragAck
    rw [htype]
    cases extendedKind ((m.cmd0 ||| 0x80).toNat / 32 % 4) <;> exact Bool.false_ne_true
  unfold acks
  rw [filterMap_cons, hr]
  exact filter_cons_of_neg hnot

variable {frag : Option RxFrag} {h : Handled}

/-- **An answer has one acknowledgement at most.** -/
theorem length_answers_le {q : Request} (hh : Handles mi q block frag h) (l : Link) : (answers mi l h.sent).length ≤ 1 := by
  unfold answers
  split
  · exact Nat.zero_le 1
  · rcases hh with rfl | ⟨r, k, -, -, hh⟩
    · exact Nat.zero_le 1
    · rcases handleDataFragment_cases hh with ⟨-, hone, -⟩ | ⟨f, -, rfl | rfl⟩
      · exact (length_acks_le mi h.sent).trans hone
      · exact length_acks_le mi [sendFragAck mi f]
      · rw [← singleton_append, acks_append, acks_status, append_nil]
        exact length_acks_le mi [sendFragAck mi f]

/-- What a wait makes of one acknowledgement or none. -/
def verdict (mi : Iface) (count block : Nat) (news : List Msg) : Wait :=
  (waitForFragAck mi count block ⟨[], false⟩ [news]).1

theorem eq_toList_of_length_le {news : List Msg} (h : news.length ≤ 1) : ∃ look, news = Option.toList look := by
  rcases news with _ | ⟨pAck, _ | ⟨other, news⟩⟩
  · exact ⟨none, rfl⟩
  · exact ⟨some pAck, rfl⟩
  · rw [length_cons, length_cons] at h
    omega

theorem wait_news {news : List Msg} (h : news.length ≤ 1) :
    waitForFragAck mi count block ⟨[], false⟩ [news] = (verdict mi count block news, ⟨[], false⟩, []) := by
  obtain ⟨look, rfl⟩ := eq_toList_of_length_le h
  rw [verdict, wait_cons]
  cases found mi count block look <;> rfl

theorem verdict_ne_advance {news : List Msg} (hlen : news.length ≤ 1)
    (h : ∀ pAck ∈ news, judge mi count block pAck ≠ some .advance) :
    verdict mi count block news ≠ .advance := by
  obtain ⟨look, rfl⟩ := eq_toList_of_length_le hlen
  cases look with
  | none => exact Wait.noConfusion
  | some pAck =>
    have hne := h pAck mem_cons_self
    rw [verdict, wait_cons, found]
    cases hv : judge mi count block pAck with
    | none => exact Wait.noConfusion
    | some v => exact fun hadv => hne (hadv ▸ hv)

theorem verdict_outOfOrder (mi : Iface) (f : RxFrag) (count block : Nat) :
    verdict mi count block (acks mi [sendFragAckPacket mi f .blockOutOfOrder]) ≠ .advance := by
  obtain ⟨r, hr, hret⟩ := arrive_commonSendStatus mi f.msg f.blockCur 3 FragStatus.blockOutOfOrder.code
  refine verdict_ne_advance (length_acks_le mi [_]) fun pAck hp => ?_
  obtain ⟨x, hx, harrive⟩ := mem_filterMap.mp (mem_of_mem_filter hp)
  rw [mem_singleton.mp hx, sendFragAckPacket, hr] at harrive
  cases harrive
  unfold judge
  rw [hret.readAck]
  dsimp only
  split_ifs <;> simp_all [FragStatus.code]

theorem verdict_of_ge (h : 256 ≤ block) {news : List Msg} (hlen : news.length ≤ 1) :
    verdict mi count block news ≠ .advance := by
  refine verdict_ne_advance hlen fun pAck _ hadv => ?_
  have hbyte : (pAck.readAck mi).1 < 256 := UInt8.toNat_lt _
  unfold judge at hadv
  dsimp only at hadv
  rw [if_pos (show (pAck.readAck mi).1 ≠ block by omega)] at hadv
  split at hadv <;> cases hadv

theorem verdict_answers_ne_advance {l : Link} {sent : List Msg}
    (hnone : sent = [] ∨ ∃ f, sent = [sendFragAckPacket mi f .blockOutOfOrder]) :
    verdict mi count block (answers mi l sent) ≠ .advance := by
  unfold answers
  split
  · exact Wait.noConfusion
  · rcases hnone with rfl | ⟨f, rfl⟩
    · exact Wait.noConfusion
    · exact verdict_outOfOrder mi f count block

end Answers

/-! ## 5. The receiver, out of step -/

section OutOfStep

variable {mi : Iface} {q : Request} {pMsg r : Msg} {i : Nat} {f : RxFrag}

theorem handle_late (hs : Sendable mi q pMsg)
    (hi : i < q.blocks mi) (hbyte : i < 256) (hne : i ≠ 0)
    (h : BlockArrived mi q i r) : ∃ f, handleDataFragment mi none r =
      some ⟨none, [sendFragAckPacket mi f .blockOutOfOrder], none⟩ := by
  have hstart := (lt_blockCount_iff hs.pos).mp hi
  have hlen := length_blockData mi q.payload i
  have hpos := hs.pos
  unfold handleDataFragment rxFirstFragBlock
  dsimp only
  rw [h.fragHeader hbyte hs.small]
  dsimp only
  rw [show (r.seek (mi.headerLen + 4)).expectedLen = r.expectedLen from rfl, h.expectedLen,
    if_neg (by omega), if_pos hne]
  exact ⟨_, rfl⟩

theorem handle_again (hs : Sendable mi q pMsg) (hbyte : i < 256)
    (h : BlockArrived mi q i r) (hf : f.blockCur = i) :
    handleDataFragment mi (some f) r = some ⟨none, [], none⟩ := by
  unfold handleDataFragment
  rw [h.fragHeader hbyte hs.small]
  dsimp only
  rw [if_pos hf]

theorem handle_stale (hs : Sendable mi q pMsg)
    (h : BlockArrived mi q 0 r) :
    ∃ sent, handleDataFragment mi (some f) r = some ⟨none, sent, none⟩ ∧
      (sent = [] ∨ sent = [sendFragAckPacket mi f .blockOutOfOrder]) := by
  unfold handleDataFragment
  rw [h.fragHeader (by decide) hs.small]
  dsimp only
  rw [if_pos (Nat.succ_ne_zero f.blockCur)]
  split_ifs with hagain htotal
  · exact ⟨_, rfl, .inl rfl⟩
  · exact ⟨_, rfl, .inr rfl⟩
  · exact ⟨_, rfl, .inr rfl⟩

end OutOfStep

/-! ## 6. Sender and receiver -/

/-- The receiver does not acknowledge block `i` any more. -/
def Stuck (i : Nat) : Option Link → Prop
  | none => True
  | some l => 256 ≤ i ∨ (i ≠ 0 ∧ (l.thread.frag = none ∨ ∃ f, l.thread.frag = some f ∧ f.blockCur = i))

/-- Nothing is queued, and the payload is put together exactly if it has two blocks. -/
structure Freed (mi : Iface) (q : Request) (whole rxList : List Msg) : Prop where
  rxList : rxList = []
  whole : whole.map (·.payload mi) = [q.payload] ↔ 2 ≤ q.blocks mi

/-- **Where the receiver can be when the sender is at block `i`.** -/
inductive Agreed (mi : Iface) (q : Request) : Nat → Option Link → Prop where
  /-- Nothing of the message was acknowledged; the receiver may have the first block, or parts of
      another message. -/
  | start (l : Link) (hfresh : Fresh l.thread) : Agreed mi q 0 (some l)
  | holding (i : Nat) (l : Link) (f : RxFrag) (hfresh : Fresh l.thread) (hfrag : l.thread.frag = some f)
      (hold : Holding mi q i f) (hi : i < q.blocks mi)
      (hbyte : i < 256) : Agreed mi q i (some l)
  /-- An acknowledgement was lost, and the receiver dropped the message. -/
  | stuck (i : Nat) (link : Option Link) (hi : i < q.blocks mi) (hstuck : Stuck i link) : Agreed mi q i link
  | ended (l : Link) (hblocks : 0 < q.blocks mi)
      (hfreed : Freed mi q l.thread.whole l.thread.rxList) :
      Agreed mi q (q.blocks mi) (some l)

section Protocol

variable {mi : Iface} {q : Request} {pMsg : Msg} {i steps : Nat} {link : Option Link}

theorem Fresh.freed {t : Thread} (h : Fresh t) (hfew : q.blocks mi < 2) : Freed mi q t.whole t.rxList := by
  refine ⟨h.rxList, iff_of_false ?_ (by omega)⟩
  rw [h.whole]
  exact (cons_ne_nil _ _).symm

/-- What an attempt for block `i` comes to. -/
def StepOk (mi : Iface) (q : Request) (i : Nat) (r : Wait) (link : Option Link) : Prop :=
  (r = .advance → Agreed mi q (i + 1) link) ∧ (r = .resend → Agreed mi q i link)

variable {l : Link} {f : RxFrag} {h : Handled} {fuel : Nat}

theorem agreed_next (hfresh : Fresh l.thread) (hfrag : l.thread.frag = some f)
    (hold : Holding mi q i f) (hi : i < q.blocks mi) :
    Agreed mi q i (some l) := by
  rcases lt_or_ge i 256 with hbyte | hbyte
  · exact .holding i l f hfresh hfrag hold hi hbyte
  · exact .stuck i _ hi (.inl hbyte)

theorem stepOk_of_ne_advance {r : Wait} (hr : r ≠ .advance) (hagreed : Agreed mi q i link) :
    StepOk mi q i r link :=
  ⟨fun hadv => absurd hadv hr, fun _ => hagreed⟩

/-- The other side after a block for which it did `h`. -/
def Link.after (l : Link) (h : Handled) : Link := ⟨l.thread.answered h, l.losses.tail⟩

/-- **The first block**: an acknowledgement means that the receiver kept it. -/
theorem step_start (hs : Sendable mi q pMsg) (hfresh : Fresh l.thread)
    (hi : 0 < q.blocks mi)
    (hh : Handles mi q 0 l.thread.frag h) :
    StepOk mi q 0 (verdict mi (q.blocks mi) 0 (answers mi l h.sent)) (some (l.after h)) := by
  rcases hh with rfl | ⟨r, k, hr, htype, hhandle⟩
  · exact stepOk_of_ne_advance (verdict_answers_ne_advance (.inl rfl)) (.start _ (hfresh.answered rfl))
  · cases hfrag : l.thread.frag with
    | none =>
      have hne : 0 < q.payload.length := by
        have := (lt_blockCount_iff hs.pos).mp hi
        omega
      obtain ⟨f, hfirst, hf⟩ := handle_first hs hne hr htype
      rw [hfrag, hfirst, some.injEq] at hhandle
      subst hhandle
      have hkept : Fresh (l.after ⟨some f, [sendFragAck mi f], none⟩).thread := hfresh.answered rfl
      refine ⟨fun _ => ?_, fun _ => .start _ hkept⟩
      rcases lt_or_ge 1 (q.blocks mi) with hmore | hone
      · exact agreed_next hkept rfl hf hmore
      · have hlast : 0 + 1 = q.blocks mi := by omega
        rw [hlast]
        exact .ended _ hi (hkept.freed (by omega))
    | some f =>
      obtain ⟨sent, hstale, hsent⟩ := handle_stale (f := f) hs hr
      rw [hfrag, hstale, some.injEq] at hhandle
      subst hhandle
      exact stepOk_of_ne_advance (verdict_answers_ne_advance (hsent.imp_right fun ho => ⟨f, ho⟩))
        (.start _ (hfresh.answered rfl))

/-- **A block behind the first one**: acknowledged means received; without one the receiver drops the message
    at the next try. -/
theorem step_holding (hs : Sendable mi q pMsg) (hfresh : Fresh l.thread)
    (hfrag : l.thread.frag = some f) (hold : Holding mi q i f)
    (hi : i < q.blocks mi) (hbyte : i < 256)
    (hh : Handles mi q i l.thread.frag h) :
    StepOk mi q i (verdict mi (q.blocks mi) i (answers mi l h.sent)) (some (l.after h)) := by
  have hcur := hold.blockCur
  rcases hh with rfl | ⟨r, k, hr, htype, hhandle⟩
  · exact stepOk_of_ne_advance (verdict_answers_ne_advance (.inl rfl))
      (.holding i _ f (hfresh.answered rfl) hfrag hold hi hbyte)
  · obtain ⟨f', hf', hnext⟩ := handle_next hs hold hi hbyte hr
    rw [hfrag, hnext, some.injEq] at hhandle
    by_cases hlast : i + 1 = q.blocks mi
    · rw [if_pos hlast] at hhandle
      subst hhandle
      refine ⟨fun _ => ?_, fun _ => .stuck i _ hi (.inr ⟨by omega, .inl rfl⟩)⟩
      obtain ⟨hwhole, hlist⟩ := hfresh.putTogether hs.pos (hlast ▸ hf')
        [sendFragAck mi f', commonSendStatus mi f'.msg i 4 extStatusFragComplete]
      rw [hlast]
      exact .ended _ (by omega) ⟨hlist, iff_of_true hwhole (by omega)⟩
    · rw [if_neg hlast] at hhandle
      subst hhandle
      have hcur' := hf'.blockCur
      refine ⟨fun _ => agreed_next (hfresh.answered rfl) rfl hf' (by omega), fun _ => ?_⟩
      exact .stuck i _ hi (.inr ⟨by omega, .inr ⟨f', rfl, by omega⟩⟩)

/-- **A receiver that dropped the message** does not acknowledge its other blocks. -/
theorem step_stuck (hs : Sendable mi q pMsg)
    (hi : i < q.blocks mi) (hstuck : Stuck i (some l))
    (hh : Handles mi q i l.thread.frag h) :
    StepOk mi q i (verdict mi (q.blocks mi) i (answers mi l h.sent)) (some (l.after h)) := by
  rcases lt_or_ge i 256 with hbyte | hbyte
  · obtain ⟨hne, hfrag⟩ := hstuck.resolve_left (by omega)
    rcases hh with rfl | ⟨r, k, hr, -, hhandle⟩
    · exact stepOk_of_ne_advance (verdict_answers_ne_advance (.inl rfl)) (.stuck i _ hi (.inr ⟨hne, hfrag⟩))
    · rcases hfrag with hfrag | ⟨f, hfrag, hcur⟩
      · obtain ⟨f, hlate⟩ := handle_late hs hi hbyte hne hr
        rw [hfrag, hlate, some.injEq] at hhandle
        subst hhandle
        exact stepOk_of_ne_advance (verdict_answers_ne_advance (.inr ⟨f, rfl⟩))
          (.stuck i _ hi (.inr ⟨hne, .inl rfl⟩))
      · rw [hfrag, handle_again hs hbyte hr hcur, some.injEq] at hhandle
        subst hhandle
        exact stepOk_of_ne_advance (verdict_answers_ne_advance (.inl rfl))
          (.stuck i _ hi (.inr ⟨hne, .inl rfl⟩))
  · exact stepOk_of_ne_advance (verdict_of_ge hbyte (length_answers_le hh l)) (.stuck i _ hi (.inl hbyte))

/-- A receiver that did not fault is between two messages. -/
def IdleLink (mi : Iface) (link : Option Link) : Prop := ∀ l, link = some l → Idle mi l.thread

theorem agreed_through (hi : q.blocks mi ≤ i) (hagreed : Agreed mi q i link) :
    ∃ l, link = some l ∧ Freed mi q l.thread.whole l.thread.rxList := by
  cases hagreed with
  | start l hfresh => exact ⟨l, rfl, hfresh.freed (by omega)⟩
  | holding _ _ _ _ _ _ hlt _ => exact absurd hlt (not_lt.mpr hi)
  | stuck _ _ hlt _ => exact absurd hlt (not_lt.mpr hi)
  | ended l _ hfreed => exact ⟨l, rfl, hfreed⟩

variable (hs : Sendable mi q pMsg) (hblocks : BlocksFit mi q) (hsteps : 2 ≤ steps)

include hs hblocks hsteps

/-- **What a block comes to on the channel.** -/
theorem linkSend_cases (hidle : IdleLink mi link) (hi : i < q.blocks mi) :
    linkSend mi steps pMsg i link = ([[]], none) ∨
      ∃ l h, link = some l ∧ Handles mi q i l.thread.frag h ∧
        linkSend mi steps pMsg i link = ([answers mi l h.sent], some (l.after h)) := by
  cases link with
  | none => exact .inl rfl
  | some l =>
    rw [linkSend]
    rcases transmit_cases hs hblocks (hidle l rfl) hsteps hi with hfault | ⟨h, hrun, hh⟩
    · rw [hfault]
      exact .inl rfl
    · rw [hrun]
      exact .inr ⟨l, h, rfl, hh, rfl⟩

theorem idle_linkSend (hidle : IdleLink mi link) (hi : i < q.blocks mi) :
    IdleLink mi (linkSend mi steps pMsg i link).2 := by
  rcases linkSend_cases hs hblocks hsteps hidle hi with hnone | ⟨l, h, rfl, -, hsome⟩
  · rw [hnone]
    exact fun _ hl => (by cases hl)
  · rw [hsome]
    intro l' hl'
    cases hl'
    exact (hidle l rfl).answered h

/-- **One attempt**, from anywhere the two sides can be. -/
theorem attempt_agreed (hi : i < q.blocks mi) (hidle : IdleLink mi link)
    (hagreed : Agreed mi q i link) (n : Nat) :
    ∃ r link', attempt (linkSend mi steps pMsg) mi (q.blocks mi) i
        ⟨⟨[], false⟩, [], link, n⟩ = (r, ⟨⟨[], false⟩, [], link', n + 1⟩) ∧ IdleLink mi link' ∧
      StepOk mi q i r link' := by
  have hidle' := idle_linkSend hs hblocks hsteps hidle hi
  rcases linkSend_cases hs hblocks hsteps hidle hi with hsend | ⟨l, h, rfl, hh, hsend⟩
  · -- A receiver that faulted leaves the sender without an answer.
    rw [hsend] at hidle'
    refine ⟨.resend, none, ?_, hidle', stepOk_of_ne_advance Wait.noConfusion (.stuck i none hi trivial)⟩
    unfold attempt
    rw [hsend]
    rfl
  · rw [hsend] at hidle'
    refine ⟨verdict mi (q.blocks mi) i (answers mi l h.sent), some (l.after h), ?_, hidle', ?_⟩
    · unfold attempt
      dsimp only
      rw [hsend, append_nil, wait_news (length_answers_le hh l)]
    · cases hagreed with
      | start _ hfresh => exact step_start hs hfresh hi hh
      | holding _ _ f hfresh hfrag hold _ hbyte => exact step_holding hs hfresh hfrag hold hi hbyte hh
      | stuck _ _ _ hstuck => exact step_stuck hs hi hstuck hh
      | ended _ _ _ => exact absurd hi (lt_irrefl _)

/-- **All tries for a block.** -/
theorem fragTxrxOneBlock_agreed (hi : i < q.blocks mi) (hidle : IdleLink mi link)
    (hagreed : Agreed mi q i link) (tries n : Nat) :
    ∃ r link' n', fragTxrxOneBlock (linkSend mi steps pMsg) mi (q.blocks mi) i tries
        ⟨⟨[], false⟩, [], link, n⟩ = (r, ⟨⟨[], false⟩, [], link', n'⟩) ∧ IdleLink mi link' ∧
      StepOk mi q i r link' := by
  induction tries generalizing link n with
  | zero => exact ⟨.resend, link, n, rfl, hidle, stepOk_of_ne_advance Wait.noConfusion hagreed⟩
  | succ tries ih =>
    obtain ⟨r, link', hattempt, hidle', hstep⟩ := attempt_agreed hs hblocks hsteps hi hidle hagreed n
    rw [fragTxrxOneBlock, hattempt]
    cases r with
    | resend => exact ih hidle' (hstep.2 rfl) (n + 1)
    | advance => exact ⟨.advance, link', n + 1, rfl, hidle', hstep⟩
    | error => exact ⟨.error, link', n + 1, rfl, hidle', hstep⟩
    | fault => exact ⟨.fault, link', n + 1, rfl, hidle', hstep⟩

/-- **A sender that ends without an error.** -/
theorem txBlocks_agreed (hidle : IdleLink mi link) (hagreed : Agreed mi q i link) {n : Nat}
    {tx : Tx (Option Link)} (h : txBlocks (linkSend mi steps pMsg) mi (q.blocks mi) fuel i
      ⟨⟨[], false⟩, [], link, n⟩ = some (true, tx)) :
    ∃ l, tx.peer = some l ∧ Freed mi q l.thread.whole l.thread.rxList := by
  induction fuel generalizing i link n with
  | zero =>
    rcases lt_or_ge i (q.blocks mi) with hlt | hge
    · rw [txBlocks_zero hlt] at h
      cases h
    · rw [txBlocks_of_le hge] at h
      cases h
      exact agreed_through hge hagreed
  | succ fuel ih =>
    rcases lt_or_ge i (q.blocks mi) with hlt | hge
    · obtain ⟨r, link', n', hrun, hidle', hstep⟩ :=
        fragTxrxOneBlock_agreed hs hblocks hsteps hlt hidle hagreed mi.retryMax n
      rw [txBlocks_succ hlt, hrun] at h
      cases r with
      | advance => exact ih hidle' (hstep.1 rfl) h
      | resend => exact ih hidle' (hstep.2 rfl) h
      | error => cases h
      | fault => cases h
    · rw [txBlocks_of_le hge] at h
      cases h
      exact agreed_through hge hagreed

end Protocol

section Exchange

variable {mi : Iface} {q : Request} {steps fuel : Nat} {link link' : Option Link} {ok : Bool}

theorem exchange_eq_some (h : exchange mi steps fuel q link = some (ok, link')) :
    0 < mi.txFragSize ∧ ∃ tx, txBlocks (linkSend mi steps (q.outgoing mi)) mi
      (q.blocks mi) fuel 0 ⟨⟨[], false⟩, [], link, 0⟩ = some (ok, tx) ∧
      tx.peer = link' := by
  obtain ⟨⟨ok, tx⟩, hrun, heq⟩ := map_eq_some_iff.mp h
  cases heq
  unfold mtMsgTxFragment at hrun
  split at hrun
  · cases hrun
  · exact ⟨Nat.pos_of_ne_zero ‹_›, tx, hrun, rfl⟩

/-- What is put together during a message is never queued. -/
theorem exchange_dataOnly (hlink : ∀ l, link = some l → DataOnly l.thread)
    (h : exchange mi steps fuel q link = some (ok, link')) : ∀ l, link' = some l → DataOnly l.thread := by
  obtain ⟨-, tx, hrun, rfl⟩ := exchange_eq_some h
  refine txBlocks_peer (P := fun link => ∀ l, link = some l → DataOnly l.thread)
    (fun b _ link hl l hsome => ?_) hlink hrun
  cases link with
  | none => cases hsome
  | some l₀ =>
    rw [linkSend] at hsome
    cases htransmit : transmit mi steps (q.outgoing mi) b l₀.thread with
    | none =>
      rw [htransmit] at hsome
      cases hsome
    | some t =>
      rw [htransmit] at hsome
      cases hsome
      exact transmit_dataOnly (hl l₀ rfl) htransmit

theorem exchange_idle (hfit : mi.headerLen + q.payload.length ≤ iobufSize)
    (hblocks : BlocksFit mi q) (hsteps : 2 ≤ steps) (hidle : IdleLink mi link)
    (h : exchange mi steps fuel q link = some (ok, link')) : IdleLink mi link' := by
  obtain ⟨hpos, tx, hrun, rfl⟩ := exchange_eq_some h
  exact txBlocks_peer (fun b hb p hp =>
    idle_linkSend (sendable_outgoing hfit hpos) hblocks hsteps hp hb) hidle hrun

/-- **One message over the channel**, acknowledged. -/
theorem exchange_freed (hfit : mi.headerLen + q.payload.length ≤ iobufSize)
    (hblocks : BlocksFit mi q) (hsteps : 2 ≤ steps) (hidle : IdleLink mi link)
    (hfresh : ∀ l, link = some l → Fresh l.thread)
    (h : exchange mi steps fuel q link = some (true, link')) :
    Freed mi q (outcome q true link').whole (outcome q true link').rxList := by
  obtain ⟨hpos, tx, hrun, rfl⟩ := exchange_eq_some h
  rcases Nat.eq_zero_or_pos (q.blocks mi) with hzero | hcount
  · rw [txBlocks_of_le hzero.le] at hrun
    cases hrun
    cases link with
    | none => exact ⟨rfl, iff_of_false (cons_ne_nil _ _).symm (by omega)⟩
    | some l => exact (hfresh l rfl).freed (by omega)
  · have hagreed : Agreed mi q 0 link := by
      cases link with
      | none => exact .stuck 0 none hcount trivial
      | some l => exact .start l (hfresh l rfl)
    obtain ⟨l, hpeer, hfreed⟩ := txBlocks_agreed (sendable_outgoing hfit hpos) hblocks hsteps
      hidle hagreed hrun
    rw [hpeer]
    exact hfreed

end Exchange

/-- **A message whose blocks come in order and are acknowledged is never delivered**: what is put together is
    not queued. If the blocks fit the length field, nothing is queued at all, and the payload is put together
    once exactly when there are two of them. -/
theorem acked_never_delivered (mi : Iface) (steps fuel : Nat) (q : Request)
    (hfit : mi.headerLen + q.payload.length ≤ iobufSize) (hsteps : 2 ≤ steps) (link : Option Link)
    (hacked : exchange mi steps fuel q (some ⟨.start mi [], []⟩) = some (true, link)) :
    (∀ m ∈ (outcome q true link).whole, queued m = false) ∧ (BlocksFit mi q →
      Freed mi q (outcome q true link).whole (outcome q true link).rxList) := by
  have hfresh : ∀ l, some (⟨.start mi [], []⟩ : Link) = some l → DataOnly l.thread ∧ Idle mi l.thread ∧
      Fresh l.thread := by
    intro l hl
    cases hl
    exact ⟨⟨fun _ h => (by cases h), fun _ h => (by cases h)⟩, ⟨rfl, rfl⟩, rfl, rfl⟩
  refine ⟨fun m hm => ?_, fun hblocks => exchange_freed hfit hblocks hsteps (fun l hl => (hfresh l hl).2.1)
    (fun l hl => (hfresh l hl).2.2) hacked⟩
  cases link with
  | none => cases hm
  | some l =>
    exact ((exchange_dataOnly (fun l hl => (hfresh l hl).1) hacked l rfl).whole m hm).not_queued

/-- The run of a message, if it was acknowledged, and how many messages were put together and queued. -/
theorem exists_of_exchange_map {q : Request} {x : Option (Bool × Option Link)} {n k : Nat}
    (h : x.map (fun (ok, link) => (ok, (outcome q ok link).whole.length,
      (outcome q ok link).rxList.length)) = some (true, n, k)) :
    ∃ link, x = some (true, link) ∧ (outcome q true link).whole.length = n ∧
      (outcome q true link).rxList.length = k := by
  obtain ⟨⟨ok, link⟩, hx, heq⟩ := map_eq_some_iff.mp h
  rw [Prod.mk.injEq, Prod.mk.injEq] at heq
  obtain ⟨rfl, hwhole, hlist⟩ := heq
  exact ⟨link, hx, hwhole, hlist⟩

/-- One block, acknowledged at the first try, and neither put together nor queued. -/
theorem single_block_not_returned :
    ∃ link, exchange plainIface 2 1 ⟨0x41, 0x02, [7]⟩ (some ⟨.start plainIface [], []⟩) =
        some (true, link) ∧ (outcome ⟨0x41, 0x02, [7]⟩ true link).whole = [] ∧
      (outcome ⟨0x41, 0x02, [7]⟩ true link).rxList = [] := by
  obtain ⟨link, hrun, hwhole, hlist⟩ := exists_of_exchange_map (q := ⟨0x41, 0x02, [7]⟩) (n := 0) (k := 0)
    (x := exchange plainIface 2 1 ⟨0x41, 0x02, [7]⟩ (some ⟨.start plainIface [], []⟩)) (by decide +kernel)
  exact ⟨link, hrun, eq_nil_of_length_eq_zero hwhole, eq_nil_of_length_eq_zero hlist⟩

def byteIface : Iface := { plainIface with txFragSize := 1 }

def twoBytes : Request := ⟨0x41, 0x02, [7, 8]⟩

/-- Two blocks: put together, and freed. -/
theorem two_blocks_freed :
    ∃ link, exchange byteIface 2 2 twoBytes (some ⟨.start byteIface [], []⟩) =
        some (true, link) ∧ (outcome twoBytes true link).rxList = [] ∧
      (outcome twoBytes true link).whole.map (·.payload byteIface) = [[7, 8]] := by
  obtain ⟨link, hrun, -⟩ := exists_of_exchange_map (q := twoBytes) (n := 1) (k := 0)
    (x := exchange byteIface 2 2 twoBytes (some ⟨.start byteIface [], []⟩)) (by decide +kernel)
  obtain ⟨-, hfreed⟩ := acked_never_delivered byteIface 2 2 twoBytes (by decide) (by decide) link hrun
  obtain ⟨hlist, hwhole⟩ := hfreed fun _ => by decide
  exact ⟨link, hrun, hlist, hwhole.mpr (by decide)⟩

/-- **No message of a run is delivered**, whatever acknowledgements are lost: what is put together is not
    queued. If all blocks fit the length field, nothing is queued, and the payload of an acknowledged message is
    put together once exactly when it has two blocks. -/
theorem exchanges_never_deliver (mi : Iface) (steps fuel : Nat) (hsteps : 2 ≤ steps) (qs : List Request)
    (hfit : ∀ q ∈ qs, mi.headerLen + q.payload.length ≤ iobufSize) (link : Option Link)
    (hlink : ∀ l, link = some l → DataOnly l.thread) (results : List Outcome)
    (hrun : exchanges mi steps fuel qs link = some results) :
    (∀ o ∈ results, ∀ m ∈ o.whole, queued m = false) ∧
      (IdleLink mi link → (∀ q ∈ qs, BlocksFit mi q) → ∀ o ∈ results, o.acked = true →
        Freed mi o.request o.whole o.rxList) := by
  induction qs generalizing link results with
  | nil =>
    cases hrun
    exact ⟨fun _ h => absurd h not_mem_nil, fun _ _ _ h => absurd h not_mem_nil⟩
  | cons q qs ih =>
    rw [exchanges, bind_eq_some_iff] at hrun
    obtain ⟨⟨ok, link'⟩, hfirst, hrun⟩ := hrun
    obtain ⟨rest, hrest, rfl⟩ := map_eq_some_iff.mp hrun
    obtain ⟨hq, hqs⟩ := forall_mem_cons.mp hfit
    have hkept := exchange_dataOnly (fun l hl => by
      obtain ⟨l₀, rfl, rfl⟩ := map_eq_some_iff.mp hl
      exact ⟨(hlink l₀ rfl).frag, fun _ hm => absurd hm not_mem_nil⟩) hfirst
    obtain ⟨hnever, hfreed⟩ := ih hqs link' hkept rest hrest
    refine ⟨forall_mem_cons.mpr ⟨fun m hm => ?_, hnever⟩, fun hidle hblocks => ?_⟩
    · cases link' with
      | none => cases hm
      | some l => exact ((hkept l rfl).whole m hm).not_queued
    · obtain ⟨hblock, hblocks⟩ := forall_mem_cons.mp hblocks
      have hstart : IdleLink mi (link.map fun l =>
          { l with thread := { l.thread with whole := [], rxList := [] } }) := by
        intro l hl
        obtain ⟨l₀, rfl, rfl⟩ := map_eq_some_iff.mp hl
        exact ⟨(hidle l₀ rfl).phase, (hidle l₀ rfl).stream⟩
      refine forall_mem_cons.mpr ⟨fun hok => ?_,
        hfreed (exchange_idle hq hblock hsteps hstart hfirst) hblocks⟩
      obtain rfl : ok = true := hok
      refine exchange_freed hq hblock hsteps hstart (fun l hl => ?_) hfirst
      obtain ⟨l₀, rfl, rfl⟩ := map_eq_some_iff.mp hl
      exact ⟨rfl, rfl⟩

theorem exists_of_exchanges_map {x : Option (List Outcome)} (payload : List UInt8) (n k : Nat)
    (h : x.map (map fun o => (o.request.payload, o.acked, o.whole.length, o.rxList.length)) =
      some [(payload, true, n, k)]) :
    ∃ o, x = some [o] ∧ o.request.payload = payload ∧ o.acked = true ∧ o.whole.length = n ∧
      o.rxList.length = k := by
  obtain ⟨results, rfl, heq⟩ := map_eq_some_iff.mp h
  obtain ⟨o, rfl, hshape⟩ := map_eq_singleton_iff.mp heq
  rw [Prod.mk.injEq, Prod.mk.injEq, Prod.mk.injEq] at hshape
  exact ⟨o, rfl, hshape⟩

/-- Two blocks, and the first acknowledgement is lost: acknowledged in the end, and nothing is queued. -/
theorem one_loss_not_delivered :
    ∃ o, exchanges byteIface 2 2 [twoBytes] (some ⟨.start byteIface [], [true]⟩) = some [o] ∧
      o.request.payload = [7, 8] ∧ o.acked = true ∧ o.rxList = [] := by
  obtain ⟨o, hrun, hq, hacked, -, hlist⟩ := exists_of_exchanges_map [7, 8] 1 0
    (x := exchanges byteIface 2 2 [twoBytes] (some ⟨.start byteIface [], [true]⟩))
    (by decide +kernel)
  exact ⟨o, hrun, hq, hacked, eq_nil_of_length_eq_zero hlist⟩

/-- The same run: the payload was put together, and freed. -/
theorem exchanges_one_loss_freed :
    ∃ o, exchanges byteIface 2 2 [twoBytes] (some ⟨.start byteIface [], [true]⟩) = some [o] ∧
      o.whole.map (·.payload byteIface) = [[7, 8]] ∧ ∀ m ∈ o.whole, queued m = false := by
  obtain ⟨o, hrun, hq, hacked, -⟩ := exists_of_exchanges_map [7, 8] 1 0
    (x := exchanges byteIface 2 2 [twoBytes] (some ⟨.start byteIface [], [true]⟩))
    (by decide +kernel)
  obtain ⟨hnever, hfreed⟩ := exchanges_never_deliver byteIface 2 2 (by decide) [twoBytes]
    (fun p hp => by rw [mem_singleton.mp hp]; decide) (some ⟨.start byteIface [], [true]⟩)
    (fun l hl => by cases hl; exact ⟨fun _ h => (by cases h), fun _ h => (by cases h)⟩) [o] hrun
  have hwhole := (hfreed (fun l hl => by cases hl; exact ⟨rfl, rfl⟩)
    (fun p hp => by rw [mem_singleton.mp hp]; exact fun _ => by decide) o mem_cons_self hacked).whole
  rw [Request.blocks, hq] at hwhole
  exact ⟨o, hrun, hwhole.mpr (by decide), hnever o mem_cons_self⟩

end DcuDaemon.Mt
