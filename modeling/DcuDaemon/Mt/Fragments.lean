/-
  Fragments of messages (`frag_tx_one_block`, `wait_for_frag_ack`, `rx_first_frag_block`,
  `handle_data_fragment`, `mt_msg_rx_thread` in `linux-host/src/mt_interface/api/src/mt_msg.c`).

  A message that is too long goes out in blocks. Each one has a header of four bytes: the extension
  byte, the block number and the size of the whole. The receiver keeps the first block and copies the
  others behind it; only `handle_data_fragment` looks whether a block is the last one, and the first
  block does not get there. What is put together has still the type of a block, so that the thread frees
  it.

  Main results: `step_dataOnly`, `transmit_cases`.
-/
import DcuDaemon.Lib.Run
import DcuDaemon.Mt.Receive

namespace DcuDaemon.Mt

open Lib Spinel List Option Msg

/-! ## 1. The receiver -/

/-- `MT_MSG_FRAG_STATUS_*`, those that are sent or looked for. -/
inductive FragStatus where
  | success
  | resendLast
  | blockOutOfOrder
  | blockLenChanged
  | fragComplete
  deriving DecidableEq, Repr

def FragStatus.code : FragStatus → UInt8
  | .success => 0
  | .resendLast => 1
  | .blockOutOfOrder => 3
  | .blockLenChanged => 4
  | .fragComplete => 6

/-- `MT_MSG_EXT_STATUS_frag_complete`. -/
def extStatusFragComplete : UInt8 := 6

variable (mi : Iface)

def extByte (blocktype : Nat) : UInt8 := UInt8.ofNat ((blocktype <<< 3) ||| mi.stackId.val)

/-- `common_send_status`, for the message `m` of the fragment info. -/
def commonSendStatus (m : Msg) (block blocktype : Nat) (status : UInt8) : Msg :=
  (((Msg.alloc 3 (m.cmd0 ||| 0x80) m.cmd1).wrU8 mi (extByte mi blocktype)).wrU8 mi
    (UInt8.ofNat block)).wrU8 mi status

/-- `rx_frag`, while its `pMsg` is set. -/
structure RxFrag where
  msg : Msg
  blockCur : Nat
  blockCount : Int
  totalSize : Nat
  thisFragSize : Int

def sendFragAckPacket (f : RxFrag) (status : FragStatus) : Msg :=
  commonSendStatus mi f.msg f.blockCur 3 status.code

def sendFragAck (f : RxFrag) : Msg :=
  sendFragAckPacket mi f (if (f.blockCur : Int) + 1 = f.blockCount then .fragComplete else .success)

/-- What handling a message leaves: `rx_frag`, what was sent, and the message that is returned. -/
structure Handled where
  frag : Option RxFrag
  sent : List Msg
  whole : Option Msg

/-- The header of a block: its number and the size of the whole. -/
def Msg.fragHeader (m : Msg) : Nat × Nat × Msg :=
  let (_, m) := m.rdU8
  let (block, m) := m.rdU8
  let (total, m) := m.rdU16
  (block.toNat, total, m)

def rxFirstFragBlock (pRxMsg : Msg) : Option Handled :=
  let (block, total, m) := pRxMsg.fragHeader
  let fragSize := m.expectedLen - 4
  -- The division for `block_count`, before anything is checked.
  if fragSize = 0 then none
  else
    let f : RxFrag := ⟨m, block, ((total : Int) + fragSize - 1).tdiv fragSize, total, fragSize⟩
    if block ≠ 0 then some ⟨none, [sendFragAckPacket mi f .blockOutOfOrder], none⟩
    else
      (m.iobuf.copy mi.headerLen (m.iobuf.cells.drop (mi.headerLen + 4)) fragSize).map fun iobuf =>
        let f := { f with msg := { m with iobuf := iobuf, expectedLen := total, cmd0 := m.cmd0 &&& 0x7F } }
        ⟨some f, [sendFragAck mi f], none⟩

def handleDataFragment (frag : Option RxFrag) (pRxFrag : Msg) : Option Handled :=
  match frag with
  | none => rxFirstFragBlock mi pRxFrag
  | some f =>
    let (block, total, m) := pRxFrag.fragHeader
    if f.blockCur = block then some ⟨none, [], none⟩
    else if f.totalSize ≠ total then
      some ⟨none, [sendFragAckPacket mi f .blockOutOfOrder], none⟩
    else if f.blockCur + 1 ≠ block then
      some ⟨none, [sendFragAckPacket mi f .blockOutOfOrder], none⟩
    else
      let lastBlock := (block : Int) + 1 = f.blockCount
      let len := m.expectedLen - 4
      if (lastBlock ∧ len > f.thisFragSize) ∨ (¬ lastBlock ∧ len ≠ f.thisFragSize) then
        some ⟨none, [sendFragAckPacket mi f .blockLenChanged], none⟩
      else
        (f.msg.iobuf.copy (block * f.thisFragSize + mi.headerLen)
            (m.iobuf.cells.drop (4 + mi.headerLen)) len).map fun iobuf =>
          let f := { f with blockCur := block, msg := { f.msg with iobuf := iobuf } }
          if lastBlock then
            ⟨none, [sendFragAck mi f, commonSendStatus mi f.msg f.blockCur 4 extStatusFragComplete],
              some (f.msg.seek mi.headerLen)⟩
          else ⟨some f, [sendFragAck mi f], none⟩

/-- `handle_extend_packet`. An acknowledgement or a status does not touch `rx_frag`. -/
def handleExtendPacket (frag : Option RxFrag) (m : Msg) : Option Handled :=
  match m.mType with
  | .fragData _ => handleDataFragment mi frag m
  | _ => some ⟨frag, [], none⟩

/-- `mt_msg_rx_thread`: what is put into `rx_list`. Every other message is freed. -/
def queued (m : Msg) : Bool := m.mType = .plain .areq ∨ m.mType = .poll ∨ m.mType = .plain .sreq

/-! ## 2. The thread -/

/-- Before which of its two reads a call of `mt_msg_rx` is. -/
inductive Phase where
  | more (st : RxState)
  | payload (st : RxState)

/-- `mt_msg_rx_thread`: its `rx_frag`, what its reads will find, what it sent, what `handle_extend_packet`
    returned to it, and `rx_list`. -/
structure Thread where
  phase : Phase
  frag : Option RxFrag
  stream : Stream
  sent : List Msg
  whole : List Msg
  rxList : List Msg

/-- `INT_MAX`. -/
def intMax : Nat := 2147483647

namespace Thread

def start (mi : Iface) (s : Stream) : Thread := ⟨.more (.tryAgain mi), none, s, [], [], []⟩

/-- The next call of `mt_msg_rx`. -/
def next (mi : Iface) (s : Stream) (t : Thread) : Thread :=
  { t with phase := .more (.tryAgain mi), stream := s }

def after (h : Handled) (t : Thread) : Thread :=
  { t with
    frag := h.frag
    sent := t.sent ++ h.sent
    whole := t.whole ++ h.whole.toList
    rxList := t.rxList ++ h.whole.toList.filter queued }

/-- What the thread does with a message. -/
def handle (mi : Iface) (m : Msg) (t : Thread) : Option Thread :=
  if m.cmd0 &&& 0x80 ≠ 0 then (handleExtendPacket mi t.frag m).map fun h => t.after h
  else some { t with rxList := t.rxList ++ [m].filter queued }

/-- What the thread does with the end of a pass. -/
def afterPass (mi : Iface) (t : Thread) : PassResult → Option Thread
  | .null s => some (t.next mi s)
  | .again st s => some { t with phase := .more st, stream := s }
  | .done m s => (t.next mi s).handle mi m

def step (mi : Iface) (t : Thread) : Option Thread :=
  match t.phase with
  | .more st =>
    (rxBytes st.nneed st t.stream).bind fun (r, st, s) =>
      if r = 0 then some (t.next mi s)
      else
        (huntSync mi st).map fun
          | .lost => t.next mi s
          | .short st => { t with phase := .more st, stream := s }
          | .found st => { t with phase := .payload st, stream := s }
  | .payload st =>
    -- `nneed` is an `int`, and its overflow is undefined.
    if intMax < st.nneed + (parseHeader mi st).expectedLen.toNat then none
    else (readPayload mi st t.stream).bind (t.afterPass mi)

end Thread

/-! ## 3. The sender's blocks -/

def blockCount (expectedLen : Nat) : Nat := (expectedLen + mi.txFragSize - 1) / mi.txFragSize

/-- `frag_tx_one_block`, up to `MT_MSG_tx_raw`. -/
def fragTxOneBlock (pMsg : Msg) (block : Nat) : Msg :=
  let fragSize := mi.txFragSize
  let n := min (pMsg.expectedLen.toNat - block * fragSize) fragSize
  ((((Msg.alloc (-1) (pMsg.cmd0 ||| 0x80) pMsg.cmd1).wrU8 mi (extByte mi 2)).wrU8 mi
    (UInt8.ofNat block)).wrU16 mi pMsg.expectedLen.toNat).wrBuf mi
    (pMsg.iobuf.slice (mi.headerLen + block * fragSize) n)

/-- `MT_MSG_tx_raw`: what it gives to the other side. -/
def txRaw (m : Msg) : Stream :=
  if (m.format mi).iobufNvalid > 2176 then [] else [(m.format mi).bytes]

/-- A block goes to the other side, whose thread then takes `steps` reads. -/
def transmit (steps : Nat) (pMsg : Msg) (block : Nat) (t : Thread) : Option Thread :=
  iter (Thread.step mi) steps
    { t with stream := t.stream ++ txRaw mi (fragTxOneBlock mi pMsg block), sent := [] }

/-- What `wait_for_frag_ack` returns, that it sets `is_error`, or that it uses freed memory. -/
inductive Wait where
  | advance
  | resend
  | error
  | fault
  deriving DecidableEq, Repr

/-- `MT_MSG_parseComplete`. -/
def Msg.parseComplete (m : Msg) : Msg :=
  if m.iobufIdx.map Int.ofNat ≠ some (mi.headerLen + m.expectedLen) then { m with isError := true }
  else m

/-- Block, status and `is_error` of an acknowledgement. -/
def Msg.readAck (m : Msg) : Nat × UInt8 × Bool :=
  let (_, m) := m.rdU8
  let (block, m) := m.rdU8
  let (status, m) := m.rdU8
  (block.toNat, status, (m.parseComplete mi).isError)

/-- `wait_for_frag_ack`, what it makes of an acknowledgement: `none` is the jump to `try_again`. -/
def judge (count block : Nat) (pAck : Msg) : Option Wait :=
  let (ackBlock, status, bad) := pAck.readAck mi
  if bad then some .error
  else if ackBlock ≠ block then none
  else if status = FragStatus.resendLast.code then some .resend
  else if status = FragStatus.success.code then some .advance
  else if status = FragStatus.fragComplete.code ∧ ackBlock + 1 = count then some .advance
  else some .error

/-- `pTxFragAck`: the acknowledgements that came and were not taken yet, the last one first, and whether the
    list ends in freed memory. -/
structure AckList where
  acks : List Msg
  freed : Bool

inductive Look where
  /-- `goto try_again`. -/
  | again (l : AckList)
  | ended (r : Wait) (l : AckList)

/-- `wait_for_frag_ack`, what it does with the list behind the semaphore. `MT_MSG_free` of an acknowledgement
    frees all that are behind it, and `pTxFragAck` still points to them. -/
def AckList.look (count block : Nat) (l : AckList) : Look :=
  match l.acks with
  | [] => .ended (if l.freed then .fault else .resend) l
  | pAck :: rest =>
    match judge mi count block pAck with
    | none => .again ⟨rest, l.freed⟩
    | some r => .ended (if l.freed then .fault else r) ⟨[], l.freed || !rest.isEmpty⟩

/-- `wait_for_frag_ack`, when nothing more comes. -/
def waitSilent (count block : Nat) (freed : Bool) : List Msg → Wait × AckList
  | [] => (if freed then .fault else .resend, ⟨[], freed⟩)
  | pAck :: rest =>
    match AckList.look mi count block ⟨pAck :: rest, freed⟩ with
    | .again _ => waitSilent count block freed rest
    | .ended r l => (r, l)

/-- `wait_for_frag_ack`, on what comes before each of its looks; every acknowledgement is put to the front. -/
def waitForFragAck (count block : Nat) :
    AckList → List (List Msg) → Wait × AckList × List (List Msg)
  | l, [] => ((waitSilent mi count block l.freed l.acks).1, (waitSilent mi count block l.freed l.acks).2, [])
  | l, news :: rest =>
    match AckList.look mi count block ⟨news.reverse ++ l.acks, l.freed⟩ with
    | .again l => waitForFragAck count block l rest
    | .ended r l => (r, l, rest)

def isFragAck (m : Msg) : Bool :=
  match m.mType with
  | .fragAck _ => true
  | _ => false

/-- `mt_msg_rx` of the sender, on what the other side sent it. -/
def arrive (m : Msg) : Option Msg :=
  match mtMsgRx mi 1 (txRaw mi m) with
  | some (.message r _) => some r
  | _ => none

def acks (sent : List Msg) : List Msg := (sent.filterMap (arrive mi)).filter isFragAck

namespace Request

/-- A message as it is handed to the sender. -/
def outgoing (mi : Iface) (q : Request) : Msg := (Msg.alloc q.payload.length q.cmd0 q.cmd1).wrBuf mi q.payload

/-- `block_count`. -/
abbrev blocks (mi : Iface) (q : Request) : Nat := blockCount mi q.payload.length

end Request

/-! ## 4. What is sent -/

/-- A message with its payload in place, before it is formatted. -/
structure Filled (mi : Iface) (q : Request) (m : Msg) : Prop where
  ok : m.isError = false
  idx : m.wrIdx mi = mi.headerLen + q.payload.length
  len : m.expectedLen < 0 ∨ m.expectedLen = q.payload.length
  holds : m.iobuf.Holds mi.headerLen q.payload
  fits : mi.headerLen + q.payload.length ≤ iobufSize
  cmd0 : m.cmd0 = q.cmd0
  cmd1 : m.cmd1 = q.cmd1

theorem headerLen_le_five : mi.headerLen ≤ 5 := by
  unfold Iface.headerLen Iface.lengthEnd
  split <;> split <;> omega

section Sent

variable {mi : Iface} {q : Request} {m : Msg}

/-- **A message goes out as it was filled**, or it is too long. -/
theorem txRaw_filled (h : Filled mi q m) :
    txRaw mi m = if mi.frameLen + q.payload.length ≤ 2176 then [q.wire mi] else [] := by
  rcases lt_or_ge iobufSize (mi.frameLen + q.payload.length) with hroom | hroom
  · obtain ⟨iobuf, -, hbody⟩ := Msg.wrBody_eq mi h.ok h.idx h.len h.holds h.fits
    have hfull : mi.headerLen + q.payload.length = iobufSize := by
      have := h.fits
      unfold Iface.frameLen at hroom
      split at hroom <;> omega
    have hlong : (m.format mi).iobufNvalid = iobufSize := by
      rw [Msg.format, hbody, Msg.wrChksum, hfull]
      split
      · exact Msg.nvalid_wrU8_of_full mi _ (Nat.le_refl _)
      · rfl
    unfold txRaw
    rw [hlong, if_pos (by decide), if_neg (not_le.mpr (lt_trans (by decide) hroom))]
  · obtain ⟨hbytes, hnvalid, -⟩ := bytes_format mi h.ok h.idx h.len h.holds hroom
    unfold txRaw
    rw [hbytes, hnvalid, h.cmd0, h.cmd1]
    split_ifs
    · omega
    · rfl
    · rfl
    · omega

end Sent

/-! ## 5. The blocks of a message -/

/-- The data of block `i`. -/
def blockData (payload : List UInt8) (i : Nat) : List UInt8 :=
  (payload.drop (i * mi.txFragSize)).take mi.txFragSize

/-- Block `i`: its header and its data. -/
def Request.block (q : Request) (i : Nat) : Request where
  cmd0 := q.cmd0 ||| 0x80
  cmd1 := q.cmd1
  payload := [extByte mi 2, UInt8.ofNat i, UInt8.ofNat q.payload.length, UInt8.ofNat (q.payload.length / 256)] ++
    blockData mi q.payload i

section Filled

variable {mi : Iface} {q : Request} {pMsg : Msg}

theorem length_blockData (mi : Iface) (payload : List UInt8) (i : Nat) :
    (blockData mi payload i).length = min mi.txFragSize (payload.length - i * mi.txFragSize) := by
  rw [blockData, length_take, length_drop]

theorem filled_outgoing (hfit : mi.headerLen + q.payload.length ≤ iobufSize) :
    Filled mi q (q.outgoing mi) ∧ (q.outgoing mi).expectedLen = q.payload.length := by
  obtain ⟨iobuf, k, hio, hwr⟩ := wrBuf_eq mi
    (m := alloc q.payload.length q.cmd0 q.cmd1) q.payload (x := mi.headerLen) rfl rfl hfit
  rw [Request.outgoing, hwr]
  exact ⟨⟨rfl, rfl, .inr rfl, Block.holds_write hio, hfit, rfl, rfl⟩, rfl⟩

theorem filled_wrAll (mi : Iface) (cmd0 cmd1 : UInt8) (len : Int) (v : UInt8) (fields : List UInt8)
    (hlen : len < 0 ∨ len = (v :: fields).length)
    (hfit : mi.headerLen + (v :: fields).length ≤ iobufSize) :
    Filled mi ⟨cmd0, cmd1, v :: fields⟩ ((alloc len cmd0 cmd1).wrAll mi (v :: fields)) ∧
      ((alloc len cmd0 cmd1).wrAll mi (v :: fields)).expectedLen = len := by
  obtain ⟨iobuf, n, hio, hall⟩ := wrAll_cons_eq mi v fields (m := alloc len cmd0 cmd1)
    (x := mi.headerLen) rfl rfl hfit
  rw [hall]
  exact ⟨⟨rfl, rfl, hlen, Block.holds_write hio, hfit, rfl, rfl⟩, rfl⟩

variable {data : List UInt8} {block : Nat}

theorem Filled.wrBuf (h : Filled mi q pMsg) (hlen : pMsg.expectedLen < 0)
    (hfit : mi.headerLen + (q.payload ++ data).length ≤ iobufSize) :
    Filled mi { q with payload := q.payload ++ data } (pMsg.wrBuf mi data) := by
  have hroom := hfit
  rw [length_append] at hroom
  obtain ⟨iobuf, k, hio, hwr⟩ := wrBuf_eq mi data h.ok h.idx (by omega)
  rw [hwr]
  refine ⟨h.ok, ?_, .inl hlen, ?_, hfit, h.cmd0, h.cmd1⟩
  · dsimp only
    rw [length_append, ← Nat.add_assoc]
    rfl
  · exact Block.holds_append.mpr ⟨h.holds.write hio (.inl (Nat.le_refl _)), Block.holds_write hio⟩

theorem Filled.wrBuf_isError (h : Filled mi q pMsg)
    (hfull : iobufSize < mi.headerLen + (q.payload ++ data).length) : (pMsg.wrBuf mi data).isError := by
  have hfits := h.fits
  rw [length_append] at hfull
  have hne : data ≠ [] := by
    intro hnil
    rw [hnil, length_nil] at hfull
    omega
  have hnone : pMsg.iobuf.write (pMsg.wrIdx mi) data = none := by
    rw [← not_isSome_iff_eq_none, Block.write_isSome, h.idx]
    intro hfit
    have := Block.fits_of_ne_nil hfit hne
    omega
  unfold Msg.wrBuf
  rw [hnone]
  split
  · assumption
  · rfl

theorem fields_fit (mi : Iface) {n : Nat} (hn : n ≤ 4) : mi.headerLen + n ≤ iobufSize := by
  have := headerLen_le_five mi
  unfold iobufSize
  omega

/-- The header of a block and its data have a length that the length field can hold. -/
def BlocksFit (mi : Iface) (q : Request) : Prop :=
  mi.len2bytes = false → 4 + min mi.txFragSize q.payload.length ≤ 255

/-- The message that is returned for a request whose bytes come in one piece. -/
def Arrived (mi : Iface) (q : Request) (r : Msg) : Prop :=
  Returned mi (q.wire mi) q.payload.length q.cmd0 q.cmd1 r

theorem arrive_commonSendStatus (mi : Iface) (m : Msg) (block blocktype : Nat) (status : UInt8) :
    ∃ r, arrive mi (commonSendStatus mi m block blocktype status) = some r ∧
      Arrived mi ⟨m.cmd0 ||| 0x80, m.cmd1, [extByte mi blocktype, UInt8.ofNat block, status]⟩ r := by
  have hfields : commonSendStatus mi m block blocktype status =
      (alloc 3 (m.cmd0 ||| 0x80) m.cmd1).wrAll mi [extByte mi blocktype, UInt8.ofNat block, status] := by
    rw [wrAll_cons, wrAll_cons, wrAll_cons, wrAll_nil, commonSendStatus]
  obtain ⟨hfilled, _⟩ := filled_wrAll mi (m.cmd0 ||| 0x80) m.cmd1 3
    (extByte mi blocktype) [UInt8.ofNat block, status] (.inr rfl) (fields_fit mi (Nat.le_succ 3))
  have hsize : mi.frameLen + [extByte mi blocktype, UInt8.ofNat block, status].length ≤ 9 := by
    have := headerLen_le_five mi
    rw [show [extByte mi blocktype, UInt8.ofNat block, status].length = 3 from rfl, Iface.frameLen]
    split <;> omega
  have hfit : PayloadFits mi [extByte mi blocktype, UInt8.ofNat block, status] :=
    ⟨le_trans hsize (by decide), fun _ => Nat.le_add_right 3 252⟩
  obtain ⟨r, hpass, hret⟩ := pass_one_chunk (q := ⟨m.cmd0 ||| 0x80, m.cmd1, _⟩) hfit
  refine ⟨r, ?_, hret⟩
  rw [arrive, hfields, txRaw_filled hfilled, if_pos (le_trans hsize (by decide)), mtMsgRx, rxLoop, hpass]

variable (h : Filled mi q pMsg) (hlen : pMsg.expectedLen = q.payload.length)
  (hb : block * mi.txFragSize ≤ q.payload.length)

include h hlen hb

theorem slice_block :
    pMsg.iobuf.slice (mi.headerLen + block * mi.txFragSize)
        (min (pMsg.expectedLen.toNat - block * mi.txFragSize) mi.txFragSize) = blockData mi q.payload block := by
  rw [hlen, Int.toNat_natCast, h.holds.slice_drop (by omega), ← length_drop, Nat.min_comm,
    ← take_take, take_length, blockData]

/-- **A block is its header and its data.** -/
theorem fragTxOneBlock_eq : fragTxOneBlock mi pMsg block =
      ((alloc (-1) (q.cmd0 ||| 0x80) q.cmd1).wrAll mi
        [extByte mi 2, UInt8.ofNat block, UInt8.ofNat q.payload.length,
          UInt8.ofNat (q.payload.length / 256)]).wrBuf mi (blockData mi q.payload block) := by
  unfold fragTxOneBlock
  dsimp only
  rw [slice_block h hlen hb, h.cmd0, h.cmd1, hlen, Int.toNat_natCast]
  rw [wrU16, wrAll_cons, wrAll_cons, wrAll_cons, wrAll_cons, wrAll_nil]

/-- **A block goes out as it was cut out of the message, or it is not sent.** -/
theorem txRaw_block (hblocks : BlocksFit mi q) :
    (txRaw mi (fragTxOneBlock mi pMsg block) = [] ∨ txRaw mi (fragTxOneBlock mi pMsg block) = [[]]) ∨
      (txRaw mi (fragTxOneBlock mi pMsg block) = [(q.block mi block).wire mi] ∧
        PayloadFits mi (q.block mi block).payload) := by
  have hunset : (-1 : Int) < 0 := by decide
  obtain ⟨hheader, hopen⟩ := filled_wrAll mi (q.cmd0 ||| 0x80) q.cmd1 (-1) (extByte mi 2)
    [UInt8.ofNat block, UInt8.ofNat q.payload.length, UInt8.ofNat (q.payload.length / 256)]
    (.inl hunset) (fields_fit mi (Nat.le_refl 4))
  rw [fragTxOneBlock_eq h hlen hb]
  rcases lt_or_ge iobufSize (mi.headerLen + (q.block mi block).payload.length) with hfull | hroom
  · have hempty := nvalid_format_of_isError mi (hheader.wrBuf_isError hfull)
    refine .inl (.inr ?_)
    unfold txRaw Msg.bytes
    rw [hempty, if_neg (by decide)]
    rfl
  · rw [txRaw_filled (hheader.wrBuf (by rw [hopen]; exact hunset) hroom)]
    split_ifs with hshort
    · refine .inr ⟨rfl, le_trans hshort (by decide), fun hone => ?_⟩
      have hdata : (q.block mi block).payload.length = (blockData mi q.payload block).length + 4 := rfl
      have := length_blockData mi q.payload block
      have := hblocks hone
      omega
    · exact .inl (.inl rfl)

end Filled

/-! ## 6. Reading what arrived -/

namespace Arrived

variable {mi : Iface} {q : Request} {cmd0 cmd1 : UInt8} {r : Msg}
variable {i blocktype : Nat} {e b : UInt8}

theorem length (h : Arrived mi q r) : mi.headerLen + q.payload.length ≤ r.iobufNvalid := by
  rw [h.nvalid, length_wire]
  exact Nat.add_le_add_right (headerLen_le mi) _

theorem getD_payload (mi : Iface) (hi : i < q.payload.length) :
    (q.wire mi).getD (mi.headerLen + i) 0 = q.payload.getD i 0 := by
  have hidx : mi.headerLen + i = mi.lengthEnd + (i + 2) := by
    rw [headerLen_eq]
    omega
  rw [hidx, getD_wire]
  simp only [getD_cons_succ]
  rw [getD_eq_getElem?_getD, getElem?_append_left hi, ← getD_eq_getElem?_getD]

theorem reading (h : Arrived mi q r) : Reading (q.wire mi) mi.headerLen r := by
  refine ⟨h.ok, h.idx, (Nat.le_add_right _ _).trans h.length, h.nvalid.le, ?_⟩
  rw [h.nvalid, take_length]
  exact h.holds

theorem rdU8 (h : Arrived mi q r) (hi : i < q.payload.length) :
    (r.seek (mi.headerLen + i)).rdU8 = (q.payload.getD i 0, r.seek (mi.headerLen + (i + 1))) := by
  have hlen := h.length
  have hread := (h.reading.move (j := mi.headerLen + i) (by omega)).rdU8
  rw [seek_iobufNvalid, if_pos (by omega), getD_payload mi hi, min_eq_left (by omega)] at hread
  exact hread

theorem rdU16 (h : Arrived mi q r) (hi : i + 1 < q.payload.length) : (r.seek (mi.headerLen + i)).rdU16 =
      ((q.payload.getD i 0).toNat + 256 * (q.payload.getD (i + 1) 0).toNat,
        r.seek (mi.headerLen + (i + 2))) := by
  have hlen := h.length
  have hnvalid := h.nvalid
  have hread := (h.reading.move (j := mi.headerLen + i) (by omega)).rdU16
  have htake : ((q.wire mi).drop (mi.headerLen + i)).take 2 = [q.payload.getD i 0, q.payload.getD (i + 1) 0] := by
    rw [← getD_payload mi (by omega : i < q.payload.length),
      ← getD_payload mi hi, drop_eq_getElem_cons (by omega), drop_eq_getElem_cons (by omega)]
    simp only [getD_eq_getElem?_getD]
    rw [List.getElem?_eq_getElem (by omega), List.getElem?_eq_getElem (by omega)]
    rfl
  rw [seek_iobufNvalid, seek_seek, if_pos (by omega), htake, Nat.min_eq_left (by omega)] at hread
  rw [hread]
  simp only [PackReader.leValue, Nat.mul_zero, Nat.add_zero]
  rw [Nat.add_assoc]

/-- **The header of a block that arrived.** -/
theorem fragHeader {lo hi : UInt8} {data : List UInt8}
    (h : Arrived mi ⟨cmd0, cmd1, e :: b :: lo :: hi :: data⟩ r) :
    r.fragHeader = (b.toNat, lo.toNat + 256 * hi.toNat, r.seek (mi.headerLen + 4)) := by
  have hlen : (⟨cmd0, cmd1, e :: b :: lo :: hi :: data⟩ : Request).payload.length = data.length + 4 := rfl
  have hstart : r = r.seek (mi.headerLen + 0) := (Msg.seek_self h.idx).symm
  unfold Msg.fragHeader
  rw [hstart, h.rdU8 (i := 0) (by omega)]
  dsimp only
  rw [h.rdU8 (i := 1) (by omega)]
  dsimp only
  rw [h.rdU16 (i := 2) (by omega)]
  rfl

/-- **An acknowledgement that arrived.** -/
theorem readAck {status : UInt8} (h : Arrived mi ⟨cmd0, cmd1, [e, b, status]⟩ r) :
    r.readAck mi = (b.toNat, status, false) := by
  have hlen : (⟨cmd0, cmd1, [e, b, status]⟩ : Request).payload.length = 3 := rfl
  have hstart : r = r.seek (mi.headerLen + 0) := (Msg.seek_self h.idx).symm
  have hend : (r.seek (mi.headerLen + 3)).parseComplete mi = r.seek (mi.headerLen + 3) := by
    unfold Msg.parseComplete
    rw [if_neg]
    rw [not_not]
    change some (Int.ofNat (mi.headerLen + 3)) = some ((mi.headerLen : Int) + r.expectedLen)
    rw [h.expectedLen]
    rfl
  unfold Msg.readAck
  rw [hstart, h.rdU8 (i := 0) (by omega)]
  dsimp only
  rw [h.rdU8 (i := 1) (by omega)]
  dsimp only
  rw [h.rdU8 (i := 2) (by omega)]
  dsimp only
  rw [hend]
  exact Prod.ext rfl (Prod.ext rfl h.ok)

theorem extByte_div (mi : Iface) (h : blocktype < 8) : (extByte mi blocktype).toNat / 8 = blocktype := by
  have htable : ∀ (t s : Fin 8), (UInt8.ofNat ((t.val <<< 3) ||| s.val)).toNat / 8 = t.val := by
    decide
  exact htable ⟨blocktype, h⟩ mi.stackId

/-- **The type of an extended message.** -/
theorem mType_eq {rest : List UInt8} (h : Arrived mi ⟨cmd0, cmd1, extByte mi blocktype :: rest⟩ r)
    (hcmd0 : 128 ≤ cmd0.toNat) (htype : blocktype < 8) :
    r.mType = match extendedKind (cmd0.toNat / 32 % 4) with
      | none => .unknown
      | some k => extendedType blocktype k := by
  have hlen := h.length
  rw [length_cons] at hlen
  have hbyte : r.iobuf.cells.getD mi.headerLen 0 = extByte mi blocktype := by
    rw [h.reading.cell (by omega)]
    exact getD_payload mi (q := ⟨cmd0, cmd1, extByte mi blocktype :: rest⟩) (i := 0) (Nat.succ_pos _)
  have hmajor := UInt8.toNat_lt cmd0
  obtain ⟨major, hmaj⟩ : ∃ major, cmd0.toNat / 32 = major + 4 := ⟨cmd0.toNat / 32 - 4, by omega⟩
  rw [Returned.mType h, setType, h.cmd0, hmaj]
  change (if r.iobufNvalid < mi.headerLen then MsgType.unknown else
    match extendedKind ((major + 4) % 4) with
    | none => MsgType.unknown
    | some k => extendedType ((r.iobuf.cells.getD mi.headerLen 0).toNat / 8) k) = _
  rw [if_neg (by omega), hbyte, extByte_div mi htype]

end Arrived

/-! ## 7. The thread -/

section KeepFields

variable {β : Type}

variable (f : Msg → β) (hf : ∀ i m, f (Msg.seek i m) = f m)

include f hf

theorem rdUX_keeps (n : Nat) (m : Msg) : f (m.rdUX n).2 = f m := by
  induction n generalizing m with
  | zero => rfl
  | succ n ih =>
    unfold Msg.rdUX
    dsimp only
    split
    · exact (ih _).trans (hf _ _)
    · exact hf _ _

theorem rdU8_keeps (m : Msg) : f m.rdU8.2 = f m := by
  unfold Msg.rdU8
  split
  · rfl
  · exact rdUX_keeps f hf 1 m

theorem rdU16_keeps (m : Msg) : f m.rdU16.2 = f m := by
  unfold Msg.rdU16
  split
  · rfl
  · exact rdUX_keeps f hf 2 m

theorem fragHeader_keeps (m : Msg) : f m.fragHeader.2.2 = f m := by
  unfold Msg.fragHeader
  rw [rdU16_keeps f hf, rdU8_keeps f hf, rdU8_keeps f hf]

end KeepFields

/-- The type of a block of data. -/
def IsData (m : Msg) : Prop := ∃ k, m.mType = .fragData k

/-- What the thread puts together has the type of the first block. -/
structure DataOnly (t : Thread) : Prop where
  frag : ∀ f, t.frag = some f → IsData f.msg
  whole : ∀ m ∈ t.whole, IsData m

theorem IsData.not_queued {m : Msg} (h : IsData m) : queued m = false := by
  obtain ⟨k, hk⟩ := h
  unfold queued
  rw [hk]
  rfl

section Thread

variable {mi : Iface} {t t' : Thread} {m : Msg}

/-- What the receiver keeps of a block: a first one with data, or one more behind those it has. -/
def Follows (frag : Option RxFrag) (m : Msg) (f : RxFrag) : Prop :=
  match frag with
  | none => f.msg.mType = m.mType ∧ 0 < f.thisFragSize
  | some f₀ => f.msg.mType = f₀.msg.mType ∧ f.thisFragSize = f₀.thisFragSize

/-- **What a block comes to**: everything is dropped, or the block is kept, or it completes the message. -/
theorem handleDataFragment_cases {frag : Option RxFrag} {h : Handled}
    (hh : handleDataFragment mi frag m = some h) :
    (h.frag = none ∧ h.sent.length ≤ 1 ∧ h.whole = none) ∨ ∃ f, Follows frag m f ∧
      (h = ⟨some f, [sendFragAck mi f], none⟩ ∨
        h = ⟨none, [sendFragAck mi f, commonSendStatus mi f.msg f.blockCur 4 extStatusFragComplete],
          some (f.msg.seek mi.headerLen)⟩) := by
  cases frag with
  | none =>
    unfold handleDataFragment rxFirstFragBlock at hh
    dsimp only at hh
    split_ifs at hh with hzero
    · cases hh
      exact .inl ⟨rfl, Nat.le_refl 1, rfl⟩
    · obtain ⟨iobuf, hio, rfl⟩ := map_eq_some_iff.mp hh
      have hcopy := Block.copy_isSome.mp (isSome_of_mem hio)
      exact .inr ⟨_, ⟨fragHeader_keeps Msg.mType (fun _ _ => rfl) m, (hcopy.resolve_left hzero).1⟩, .inl rfl⟩
  | some f =>
    unfold handleDataFragment at hh
    dsimp only at hh
    split_ifs at hh
    · cases hh
      exact .inl ⟨rfl, Nat.zero_le 1, rfl⟩
    · cases hh
      exact .inl ⟨rfl, Nat.le_refl 1, rfl⟩
    · cases hh
      exact .inl ⟨rfl, Nat.le_refl 1, rfl⟩
    · cases hh
      exact .inl ⟨rfl, Nat.le_refl 1, rfl⟩
    · obtain ⟨iobuf, -, rfl⟩ := map_eq_some_iff.mp hh
      refine .inr ⟨_, ?_, .inr rfl⟩
      exact ⟨rfl, rfl⟩
    · obtain ⟨iobuf, -, rfl⟩ := map_eq_some_iff.mp hh
      refine .inr ⟨_, ?_, .inl rfl⟩
      exact ⟨rfl, rfl⟩

theorem Follows.isData {frag : Option RxFrag} {f : RxFrag} (h : Follows frag m f) (hm : IsData m)
    (hfrag : ∀ f, frag = some f → IsData f.msg) : IsData f.msg := by
  cases frag with
  | none =>
    obtain ⟨k, hk⟩ := hm
    exact ⟨k, h.1.trans hk⟩
  | some f₀ =>
    obtain ⟨k, hk⟩ := hfrag f₀ rfl
    exact ⟨k, h.1.trans hk⟩

theorem handle_dataOnly (h : DataOnly t) (ht : t.handle mi m = some t') : DataOnly t' := by
  unfold Thread.handle handleExtendPacket at ht
  split at ht
  · split at ht
    · obtain ⟨hd, hh, rfl⟩ := map_eq_some_iff.mp ht
      have hm : IsData m := ⟨_, by assumption⟩
      rcases handleDataFragment_cases hh with ⟨hnone, -, hwhole⟩ | ⟨f, hf, rfl | rfl⟩
      · refine ⟨fun f hf => ?_, fun w hw => h.whole w ?_⟩
        · cases hnone.symm.trans hf
        · rwa [Thread.after, hwhole, toList_none, append_nil] at hw
      · refine ⟨fun f' hf' => ?_, fun w hw => h.whole w ?_⟩
        · cases hf'
          exact hf.isData hm h.frag
        · exact (mem_append.mp hw).resolve_right not_mem_nil
      · refine ⟨fun f' hf' => (by cases hf'), fun w hw => ?_⟩
        rcases mem_append.mp hw with hold | hnew
        · exact h.whole w hold
        · rw [mem_singleton.mp hnew]
          exact hf.isData hm h.frag
    · cases ht
      exact ⟨h.frag, fun w hw => h.whole w ((mem_append.mp hw).resolve_right not_mem_nil)⟩
  · cases ht
    exact ⟨h.frag, h.whole⟩

theorem step_dataOnly (h : DataOnly t) (ht : t.step mi = some t') : DataOnly t' := by
  have hmove : ∀ phase s, DataOnly { t with phase := phase, stream := s } := fun _ _ => ⟨h.frag, h.whole⟩
  unfold Thread.step at ht
  split at ht
  · obtain ⟨⟨r, st, s⟩, -, ht⟩ := bind_eq_some_iff.mp ht
    dsimp only at ht
    split at ht
    · cases ht
      exact hmove _ _
    · obtain ⟨hunt, -, rfl⟩ := map_eq_some_iff.mp ht
      cases hunt <;> exact hmove _ _
  · split at ht
    · cases ht
    · obtain ⟨result, -, ht⟩ := bind_eq_some_iff.mp ht
      cases result with
      | null s =>
        cases ht
        exact hmove _ _
      | again st s =>
        cases ht
        exact hmove _ _
      | done m s => exact handle_dataOnly (hmove _ _) ht

theorem transmit_dataOnly {steps block : Nat} {pMsg : Msg} (h : DataOnly t)
    (ht : transmit mi steps pMsg block t = some t') : DataOnly t' := by
  have hstart : DataOnly
      { t with stream := t.stream ++ txRaw mi (fragTxOneBlock mi pMsg block), sent := [] } :=
    ⟨h.frag, h.whole⟩
  exact iter_invariant (fun _ _ hinv hstep => step_dataOnly hinv hstep) hstart ht

/-- Between two messages, with nothing to read. -/
structure Idle (mi : Iface) (t : Thread) : Prop where
  phase : t.phase = .more (.tryAgain mi)
  stream : t.stream = []

theorem Idle.next (h : Idle mi t) : t.next mi [] = t := by
  obtain ⟨hphase, hstream⟩ := h
  rw [Thread.next, ← hphase, ← hstream]

theorem handle_reader (ht : t.handle mi m = some t') : t'.phase = t.phase ∧ t'.stream = t.stream := by
  unfold Thread.handle at ht
  split at ht
  · obtain ⟨hd, -, rfl⟩ := map_eq_some_iff.mp ht
    exact ⟨rfl, rfl⟩
  · cases ht
    exact ⟨rfl, rfl⟩

theorem handle_idle (h : Idle mi t) (ht : t.handle mi m = some t') : Idle mi t' := by
  obtain ⟨hphase, hstream⟩ := handle_reader ht
  exact ⟨hphase.trans h.phase, hstream.trans h.stream⟩

/-- **A read that finds nothing** starts again. -/
theorem step_silent (hphase : t.phase = .more (.tryAgain mi)) {s : Stream}
    (hstream : (t.stream = [] ∧ s = []) ∨ t.stream = [] :: s) : t.step mi = some (t.next mi s) := by
  have hneed : 0 < mi.frameLen := lt_of_lt_of_le (Nat.succ_pos _) (headerLen_le mi)
  have hread : rdBytes (mi.frameLen - 0) t.stream = ([], s) := by
    rcases hstream with ⟨hnil, rfl⟩ | hcons
    · rw [hnil]
      rfl
    · rw [hcons, rdBytes, length_nil, if_pos (Nat.zero_le _)]
  have hbytes : rxBytes mi.frameLen (.tryAgain mi) t.stream = some (0, .tryAgain mi, s) := by
    unfold rxBytes
    rw [if_neg (show ¬ (RxState.tryAgain mi).nvalid ≥ mi.frameLen from not_le.mpr hneed),
      show (RxState.tryAgain mi).nvalid = 0 from rfl, hread, Block.write_nil]
    rfl
  unfold Thread.step
  rw [hphase]
  dsimp only
  rw [show (RxState.tryAgain mi).nneed = mi.frameLen from rfl, hbytes, bind_some]
  exact if_pos rfl

theorem iter_idle (h : Idle mi t) (n : Nat) : iter (Thread.step mi) n t = some t := by
  induction n with
  | zero => rfl
  | succ n ih => rw [Lib.iter, ih, bind_some, step_silent h.phase (.inl ⟨h.stream, rfl⟩), h.next]

/-- **A message that was not sent** leaves the thread as it was. -/
theorem iter_silent (h : Idle mi t) {s : Stream} (hs : s = [] ∨ s = [[]]) {n : Nat} (hn : 2 ≤ n) :
    iter (Thread.step mi) n { t with stream := s } = some t := by
  obtain ⟨k, rfl⟩ : ∃ k, n = 1 + k := ⟨n - 1, by omega⟩
  have hone : Thread.step mi { t with stream := s } = some t := by
    refine (step_silent (t := { t with stream := s }) h.phase (hs.imp_left fun hnil => ⟨hnil, rfl⟩)).trans ?_
    exact congrArg some h.next
  rw [iter_add, Lib.iter, Lib.iter, bind_some, hone, bind_some, iter_idle h]

variable {st st' : RxState} {s s' : Stream} {r n : Nat}

theorem rxBytes_nneed (h : rxBytes n st s = some (r, st', s')) : st'.nneed = st.nneed := by
  unfold rxBytes at h
  split at h
  · cases h
    rfl
  · obtain ⟨iobuf, -, heq⟩ := map_eq_some_iff.mp h
    cases heq
    rfl

theorem huntSync_nneed (h : huntSync mi st = some (.found st')) : st'.nneed = st.nneed := by
  unfold huntSync at h
  split at h
  · split at h
    · cases h
    · cases h
      rfl
    · obtain ⟨moved, -, h⟩ := bind_eq_some_iff.mp h
      obtain ⟨iobuf, -, heq⟩ := map_eq_some_iff.mp h
      split at heq
      · cases heq
      · cases heq
        rfl
  · cases h
    rfl

theorem expectedLen_rdSkip (n : Nat) (m : Msg) : (m.rdSkip n).expectedLen = m.expectedLen := by
  unfold Msg.rdSkip
  dsimp only
  split_ifs <;> rfl

theorem expectedLen_readPayload (h : readPayload mi st s = some (.done m s')) :
    m.expectedLen = (parseHeader mi st).expectedLen := by
  obtain ⟨⟨r, st', s''⟩, -, heq⟩ := map_eq_some_iff.mp h
  dsimp only at heq
  split at heq
  · split at heq <;> cases heq
  · unfold complete at heq
    dsimp only at heq
    split at heq
    · cases heq
    · cases heq
      exact expectedLen_rdSkip _ _

/-- **A pass that ends with a message is two steps.** -/
theorem iter_two_of_pass (hphase : t.phase = .more st) (hpass : pass mi st t.stream = some (.done m s))
    (hneed : st.nneed + m.expectedLen.toNat ≤ intMax) :
    iter (Thread.step mi) 2 t = (t.next mi s).handle mi m := by
  obtain ⟨⟨r, st₁, s₁⟩, hread, hpass⟩ := bind_eq_some_iff.mp hpass
  dsimp only at hpass
  split at hpass
  · cases hpass
  · obtain ⟨hunt, hhunt, hpass⟩ := bind_eq_some_iff.mp hpass
    cases hunt with
    | lost => cases hpass
    | short _ => cases hpass
    | found st₂ =>
      change readPayload mi st₂ s₁ = some (.done m s) at hpass
      have hfirst : t.step mi = some { t with phase := .payload st₂, stream := s₁ } := by
        unfold Thread.step
        rw [hphase]
        dsimp only
        rw [hread, bind_some]
        dsimp only
        rw [if_neg ‹_›, hhunt, map_some]
      have hsmall : ¬ intMax < st₂.nneed + (parseHeader mi st₂).expectedLen.toNat := by
        rw [huntSync_nneed hhunt, rxBytes_nneed hread, ← expectedLen_readPayload hpass]
        omega
      rw [Lib.iter, Lib.iter, Lib.iter, bind_some, hfirst, bind_some, Thread.step]
      dsimp only
      rw [if_neg hsmall, hpass]
      rfl

/-- **A message that comes in one chunk is handled.** -/
theorem iter_message {q : Request} (h : Idle mi t) (hfit : PayloadFits mi q.payload) (hn : 2 ≤ n) :
    ∃ r, Arrived mi q r ∧ iter (Thread.step mi) n { t with stream := [q.wire mi] } = t.handle mi r := by
  obtain ⟨r, hpass, hret⟩ := pass_one_chunk hfit
  have hsize := hfit.1
  have htwo := iter_two_of_pass (t := { t with stream := [q.wire mi] }) h.phase hpass (by
    rw [hret.expectedLen, Int.toNat_natCast]
    exact le_trans hsize (by decide))
  rw [show Thread.next mi [] { t with stream := [q.wire mi] } = t from h.next] at htwo
  obtain ⟨k, rfl⟩ : ∃ k, n = 2 + k := ⟨n - 2, by omega⟩
  refine ⟨r, hret, ?_⟩
  rw [iter_add, htwo]
  cases hhandle : t.handle mi r with
  | none => rfl
  | some t' => exact iter_idle (handle_idle h hhandle) k

end Thread

/-! ## 8. The receiver over the blocks of a message -/

/-- A message that is sent in blocks. -/
structure Sendable (mi : Iface) (q : Request) (pMsg : Msg) : Prop where
  filled : Filled mi q pMsg
  len : pMsg.expectedLen = q.payload.length
  pos : 0 < mi.txFragSize

variable {mi : Iface} {q : Request}

theorem Sendable.small {pMsg : Msg} (h : Sendable mi q pMsg) : q.payload.length < 65536 := by
  have hfits := h.filled.fits
  unfold iobufSize at hfits
  omega

/-- The receiver has the first `i` blocks. -/
structure Holding (mi : Iface) (q : Request) (i : Nat) (f : RxFrag) : Prop where
  blockCur : f.blockCur + 1 = i
  count : f.blockCount = q.blocks mi
  totalSize : f.totalSize = q.payload.length
  thisFragSize : f.thisFragSize = (min mi.txFragSize q.payload.length : Nat)
  holds : f.msg.iobuf.Holds mi.headerLen (q.payload.take (i * mi.txFragSize))
  expectedLen : f.msg.expectedLen = q.payload.length
  cmd0 : f.msg.cmd0 ||| 0x80 = q.cmd0 ||| 0x80
  cmd1 : f.msg.cmd1 = q.cmd1
  mType : ∃ k, f.msg.mType = .fragData k

section Counts

variable {n b : Nat}

theorem lt_blockCount_iff (hpos : 0 < mi.txFragSize) : b < blockCount mi n ↔ b * mi.txFragSize < n := by
  unfold blockCount
  rw [Nat.lt_iff_add_one_le, Nat.le_div_iff_mul_le hpos, Nat.add_mul]
  omega

theorem le_blockCount_mul (hpos : 0 < mi.txFragSize) : n ≤ blockCount mi n * mi.txFragSize :=
  Nat.le_of_not_lt fun h => lt_irrefl _ ((lt_blockCount_iff hpos).mpr h)

theorem tdiv_round_up (n : Nat) {d : Nat} (hd : 0 < d) :
    ((n : Int) + d - 1).tdiv d = ((n + d - 1) / d : Nat) := by
  have hcast : (n : Int) + d - 1 = ((n + d - 1 : Nat) : Int) := by omega
  rw [hcast, Int.ofNat_tdiv]

theorem div_first_block (hn : 0 < n) :
    (n + min mi.txFragSize n - 1) / min mi.txFragSize n = blockCount mi n := by
  unfold blockCount
  rcases lt_or_ge n mi.txFragSize with hlt | hge
  · rw [Nat.div_eq_of_lt_le (k := 1) (by omega) (by omega),
      Nat.div_eq_of_lt_le (k := 1) (by omega) (by omega)]
  · rw [min_eq_left hge]

end Counts

section Handle

variable {pMsg r : Msg} {i : Nat} {f : RxFrag}

theorem take_succ_block (mi : Iface) (payload : List UInt8) (i : Nat) :
    payload.take ((i + 1) * mi.txFragSize) =
      payload.take (i * mi.txFragSize) ++ blockData mi payload i := by
  rw [Nat.add_mul, Nat.one_mul, take_add, blockData]

abbrev BlockArrived (mi : Iface) (q : Request) (i : Nat) (r : Msg) : Prop := Arrived mi (q.block mi i) r

namespace BlockArrived

variable (h : BlockArrived mi q i r)

include h

theorem fragHeader (hi : i < 256) (hsmall : q.payload.length < 65536) :
    r.fragHeader = (i, q.payload.length, r.seek (mi.headerLen + 4)) := by
  rw [Arrived.fragHeader h]
  have hlo : (UInt8.ofNat q.payload.length).toNat = q.payload.length % 256 := UInt8.toNat_ofNat'
  have hhi : (UInt8.ofNat (q.payload.length / 256)).toNat = q.payload.length / 256 % 256 :=
    UInt8.toNat_ofNat'
  rw [UInt8.toNat_ofNat_of_lt' hi, hlo]
  refine Prod.ext rfl (Prod.ext ?_ rfl)
  dsimp only
  omega

theorem expectedLen : r.expectedLen - 4 = (blockData mi q.payload i).length := by
  have hlen := Returned.expectedLen h
  have hcons : (q.block mi i).payload.length = (blockData mi q.payload i).length + 4 := rfl
  omega

theorem data : blockData mi q.payload i <+: r.iobuf.cells.drop (mi.headerLen + 4) :=
  (Block.holds_append.mp (holds_payload (Returned.holds h))).2.prefix_drop

end BlockArrived

theorem or_bit7 (c : UInt8) : (c ||| 0x80) &&& 0x80 ≠ 0 ∧ 128 ≤ (c ||| 0x80).toNat ∧
    ((c ||| 0x80) &&& 0x7F) ||| 0x80 = c ||| 0x80 ∧ (c ||| 0x80) ||| 0x80 = c ||| 0x80 := by
  cases c with
  | ofBitVec c =>
    cases c with
    | ofFin c =>
      revert c
      decide +kernel

/-- **The first block is kept.** -/
theorem handle_first (hs : Sendable mi q pMsg) (hne : 0 < q.payload.length)
    (h : BlockArrived mi q 0 r) {k : Kind} (htype : r.mType = .fragData k) :
    ∃ f, handleDataFragment mi none r = some ⟨some f, [sendFragAck mi f], none⟩ ∧ Holding mi q 1 f := by
  have hfits := hs.filled.fits
  have hpos := hs.pos
  have hlen := length_blockData mi q.payload 0
  rw [Nat.zero_mul, Nat.sub_zero] at hlen
  have hcount : ((q.payload.length : Int) + (blockData mi q.payload 0).length - 1).tdiv
      (blockData mi q.payload 0).length = q.blocks mi := by
    rw [tdiv_round_up _ (by omega), hlen, div_first_block hne]
  have hsome : (r.iobuf.write mi.headerLen (blockData mi q.payload 0)).isSome :=
    Block.write_isSome.mpr (.inr (by omega))
  obtain ⟨iobuf, hio⟩ := isSome_iff_exists.mp hsome
  unfold handleDataFragment rxFirstFragBlock
  dsimp only
  rw [h.fragHeader (by decide) hs.small]
  dsimp only
  rw [show (r.seek (mi.headerLen + 4)).expectedLen = r.expectedLen from rfl, h.expectedLen,
    if_neg (by omega), hcount,
    show (r.seek (mi.headerLen + 4)).iobuf = r.iobuf from rfl,
    Block.copy_eq_write _ _ h.data (by omega), hio, map_some]
  refine ⟨_, rfl, rfl, rfl, rfl, ?_, ?_, rfl, ?_, ?_, k, htype⟩
  · dsimp only
    rw [hlen]
  · rw [take_succ_block, Nat.zero_mul]
    exact Block.holds_write hio
  · change (r.cmd0 &&& 0x7F) ||| 0x80 = _
    rw [Returned.cmd0 h]
    exact (or_bit7 q.cmd0).2.2.1
  · change r.cmd1 = _
    exact Returned.cmd1 h

theorem Holding.fragSize (hf : Holding mi q i f) (hpos : 0 < mi.txFragSize) (hi : i < q.blocks mi) :
    f.thisFragSize = mi.txFragSize := by
  have hcur := hf.blockCur
  have hstart := (lt_blockCount_iff hpos).mp hi
  rw [hf.thisFragSize, Nat.min_eq_left]
  exact Nat.le_trans (Nat.le_mul_of_pos_left _ (by omega)) hstart.le

theorem Holding.last_iff (hf : Holding mi q i f) : (i : Int) + 1 = f.blockCount ↔ i + 1 = q.blocks mi := by
  rw [hf.count]
  omega

theorem Holding.len_ok (hf : Holding mi q i f) (hpos : 0 < mi.txFragSize) (hi : i < q.blocks mi) :
    ¬ (((i : Int) + 1 = f.blockCount ∧ ((blockData mi q.payload i).length : Int) > f.thisFragSize) ∨
      (¬ (i : Int) + 1 = f.blockCount ∧ ((blockData mi q.payload i).length : Int) ≠ f.thisFragSize)) := by
  have hlen := length_blockData mi q.payload i
  have hmore : i + 1 ≠ q.blocks mi → (i + 1) * mi.txFragSize < q.payload.length :=
    fun hne => (lt_blockCount_iff hpos).mp (lt_of_le_of_ne hi hne)
  rw [Nat.add_mul, Nat.one_mul] at hmore
  rw [hf.last_iff, hf.fragSize hpos hi]
  omega

theorem Holding.write (hf : Holding mi q i f) {iobuf : Block UInt8 iobufSize}
    (hle : i * mi.txFragSize ≤ q.payload.length)
    (hio : f.msg.iobuf.write (mi.headerLen + i * mi.txFragSize) (blockData mi q.payload i) = some iobuf) :
    Holding mi q (i + 1) { f with blockCur := i, msg := { f.msg with iobuf := iobuf } } := by
  refine ⟨rfl, hf.count, hf.totalSize, hf.thisFragSize, ?_, hf.expectedLen, hf.cmd0, hf.cmd1, hf.mType⟩
  have htake : (q.payload.take (i * mi.txFragSize)).length = i * mi.txFragSize := by
    rw [length_take]
    omega
  rw [take_succ_block]
  refine Block.holds_append.mpr ⟨hf.holds.write hio (.inl (by omega)), ?_⟩
  rw [htake]
  exact Block.holds_write hio

/-- **The next block is put behind the others**, and the last one completes the message. -/
theorem handle_next (hs : Sendable mi q pMsg) (hf : Holding mi q i f) (hi : i < q.blocks mi) (hbyte : i < 256)
    (h : BlockArrived mi q i r) : ∃ f', Holding mi q (i + 1) f' ∧
      handleDataFragment mi (some f) r = some
        (if i + 1 = q.blocks mi then
          ⟨none, [sendFragAck mi f', commonSendStatus mi f'.msg i 4 extStatusFragComplete],
            some (f'.msg.seek mi.headerLen)⟩
        else ⟨some f', [sendFragAck mi f'], none⟩) := by
  have hfits := hs.filled.fits
  have hstart := (lt_blockCount_iff hs.pos).mp hi
  have hcur := hf.blockCur
  have hlen := length_blockData mi q.payload i
  have hsome : (f.msg.iobuf.write (mi.headerLen + i * mi.txFragSize) (blockData mi q.payload i)).isSome :=
    Block.write_isSome.mpr (.inr (by omega))
  obtain ⟨iobuf, hio⟩ := isSome_iff_exists.mp hsome
  have hoffset : (i : Int) * f.thisFragSize + mi.headerLen = (mi.headerLen + i * mi.txFragSize : Nat) := by
    rw [hf.fragSize hs.pos hi]
    push_cast
    omega
  refine ⟨_, hf.write hstart.le hio, ?_⟩
  unfold handleDataFragment
  dsimp only
  rw [h.fragHeader hbyte hs.small]
  dsimp only
  rw [show (r.seek (mi.headerLen + 4)).expectedLen = r.expectedLen from rfl, h.expectedLen,
    show (r.seek (mi.headerLen + 4)).iobuf = r.iobuf from rfl, if_neg (by omega),
    if_neg (not_not.mpr hf.totalSize), if_neg (by omega), if_neg (hf.len_ok hs.pos hi), hoffset,
    Nat.add_comm 4, Block.copy_eq_write _ _ h.data (by omega), hio, map_some]
  congr 1
  simp only [hf.last_iff]

/-- The thread after a block for which it did `h`. -/
def Thread.answered (h : Handled) (t : Thread) : Thread := ({ t with sent := [] } : Thread).after h

theorem Idle.answered {t : Thread} (h : Idle mi t) (hd : Handled) : Idle mi (t.answered hd) :=
  ⟨h.phase, h.stream⟩

/-- What the thread does with block `i` of a message: nothing, or what the receiver does with a block. -/
def Handles (mi : Iface) (q : Request) (i : Nat) (frag : Option RxFrag) (h : Handled) : Prop :=
  h = ⟨frag, [], none⟩ ∨ ∃ r k, BlockArrived mi q i r ∧ r.mType = .fragData k ∧
    handleDataFragment mi frag r = some h

/-- **What a block comes to**, if the thread does not fault. -/
theorem transmit_cases (hs : Sendable mi q pMsg) (hblocks : BlocksFit mi q)
    {t : Thread} (hidle : Idle mi t) {steps : Nat} (hsteps : 2 ≤ steps) (hi : i < q.blocks mi) :
    transmit mi steps pMsg i t = none ∨
      ∃ h, transmit mi steps pMsg i t = some (t.answered h) ∧ Handles mi q i t.frag h := by
  have hstart := (lt_blockCount_iff hs.pos).mp hi
  have hidle' : Idle mi { t with sent := [] } := ⟨hidle.phase, hidle.stream⟩
  have hignored : some { t with sent := [] } = some (t.answered ⟨t.frag, [], none⟩) := by
    simp [Thread.answered, Thread.after]
  unfold transmit
  rw [hidle.stream, nil_append]
  rcases txRaw_block hs.filled hs.len hstart.le hblocks with hlost | ⟨hwire, hfit⟩
  · exact .inr ⟨_, (iter_silent hidle' hlost hsteps).trans hignored, .inl rfl⟩
  · obtain ⟨r, hr, hrun⟩ := iter_message hidle' hfit hsteps
    have hbit : (q.block mi i).cmd0 &&& 0x80 ≠ 0 := (or_bit7 q.cmd0).1
    have htype := hr.mType_eq (or_bit7 q.cmd0).2.1 (by decide)
    rw [hwire, hrun, Thread.handle, hr.cmd0, if_pos hbit, handleExtendPacket]
    cases hkind : extendedKind ((q.cmd0 ||| 0x80).toNat / 32 % 4) with
    | none =>
      rw [hkind] at htype
      rw [htype]
      exact .inr ⟨_, rfl, .inl rfl⟩
    | some k =>
      rw [hkind] at htype
      change r.mType = .fragData k at htype
      rw [htype]
      dsimp only
      cases hhandle : handleDataFragment mi t.frag r with
      | none => exact .inl rfl
      | some h => exact .inr ⟨h, rfl, .inr ⟨r, k, hr, htype, hhandle⟩⟩

/-- Nothing was put together and nothing was queued. -/
structure Fresh (t : Thread) : Prop where
  whole : t.whole = []
  rxList : t.rxList = []

theorem Fresh.answered {t : Thread} (h : Fresh t) {hd : Handled} (hnone : hd.whole = none) :
    Fresh (t.answered hd) := by
  constructor
  · rw [Thread.answered, Thread.after, hnone, h.whole]
    rfl
  · rw [Thread.answered, Thread.after, hnone, h.rxList]
    rfl

theorem Holding.payload_eq (hf : Holding mi q (q.blocks mi) f) (hpos : 0 < mi.txFragSize) :
    (f.msg.seek mi.headerLen).payload mi = q.payload := by
  have hall := hf.holds
  rw [take_of_length_le (le_blockCount_mul hpos)] at hall
  unfold Msg.payload
  rw [show (f.msg.seek mi.headerLen).expectedLen = f.msg.expectedLen from rfl, hf.expectedLen,
    Int.toNat_natCast, Msg.seek_iobuf, hall.slice_eq]

/-- **The last block**: the message is put together, and freed. -/
theorem Fresh.putTogether {t : Thread} (h : Fresh t) (hpos : 0 < mi.txFragSize)
    (hf : Holding mi q (q.blocks mi) f) (sent : List Msg) :
    (t.answered ⟨none, sent, some (f.msg.seek mi.headerLen)⟩).whole.map (·.payload mi) = [q.payload] ∧
      (t.answered ⟨none, sent, some (f.msg.seek mi.headerLen)⟩).rxList = [] := by
  constructor
  · rw [Thread.answered, Thread.after, h.whole]
    exact congrArg (fun p => [p]) (hf.payload_eq hpos)
  · have hfreed : queued (f.msg.seek mi.headerLen) = false := IsData.not_queued hf.mType
    rw [Thread.answered, Thread.after, h.rxList]
    exact filter_cons_of_neg (ne_true_of_eq_false hfreed)

end Handle

theorem sendable_outgoing (hfit : mi.headerLen + q.payload.length ≤ iobufSize) (hpos : 0 < mi.txFragSize) :
    Sendable mi q (q.outgoing mi) :=
  ⟨(filled_outgoing hfit).1, (filled_outgoing hfit).2, hpos⟩

end DcuDaemon.Mt
