/-
  Receiving Spinel frames over a transport (`crates/dcu-serial/src/framing.rs`,
  `FramedTransport::recv_frame`).

  `recv_frame` feeds its read buffer to the HDLC decoder up to the first completed frame, puts bytes
  back and returns; when the buffer is used up it reads at most 256 bytes more. What it puts back is
  `pending[1..]`: the whole buffer but its FIRST byte, not the bytes behind the frame it returns. So the
  bytes of the frame are scanned again by the next call.

  Main result: `recvCalls_session`, over `drain` and `session`.
-/
import DcuDaemon.Spinel.Hdlc

namespace DcuDaemon.Serial

open Lib Spinel List

def maxFrameSize : Nat := 4096

/-- The size of `chunk` in `recv_frame`. -/
def readSize : Nat := 256

/-- The bytes one `read` returns: at most the buffer it is given. -/
abbrev Chunk := { bytes : List UInt8 // bytes.length ≤ readSize }

/-- What one `read` on the transport gives; no byte at all is the end of the stream. -/
inductive ReadResult where
  | bytes (chunk : Chunk)
  | ioError

/-- `SerialError`, the cases `recv_frame` returns. -/
inductive SerialError where
  | io
  | spinel (e : SpinelError)
  | framing (msg : String)
  deriving DecidableEq, Repr

/-- `FramedTransport`, its receiving side: the reads still to come, the decoder, the read buffer. -/
structure FramedTransport where
  inner : List ReadResult
  decoder : HdlcDecoder
  readBuf : List UInt8

def FramedTransport.new (inner : List ReadResult) : FramedTransport := ⟨inner, .new, []⟩

def connectionClosed : SerialError := .framing "connection closed"

/-- The loop of `recv_frame`, over the reads still to come. -/
def recvLoop (decoder : HdlcDecoder) (pending : List UInt8) (inner : List ReadResult) :
    Except SerialError SpinelFrame × FramedTransport :=
  match feedUntil HdlcDecoder.feedByte decoder pending with
  | (decoder, some (.error e)) => (.error (.spinel e), ⟨inner, decoder, []⟩)
  | (decoder, some (.ok frameData)) =>
    -- `for i in 1..pending.len()`: everything but the first byte of the buffer is put back
    ((SpinelFrame.decode frameData).mapError .spinel, ⟨inner, decoder, pending.drop 1⟩)
  | (decoder, none) =>
    -- the buffer was taken out of `self` and is used up
    let readBuf : List UInt8 := []
    match inner with
    | [] => (.error connectionClosed, ⟨[], decoder, readBuf⟩)
    | .ioError :: inner => (.error .io, ⟨inner, decoder, readBuf⟩)
    | .bytes chunk :: inner =>
      if chunk.val.length = 0 then (.error connectionClosed, ⟨inner, decoder, readBuf⟩)
      else if readBuf.length + chunk.val.length > maxFrameSize then recvLoop .new chunk.val inner
      else recvLoop decoder (readBuf ++ chunk.val) inner

def FramedTransport.recvFrame (t : FramedTransport) : Except SerialError SpinelFrame × FramedTransport :=
  recvLoop t.decoder t.readBuf t.inner

/-- The results of the first `k` of successive `recv_frame` calls. -/
def FramedTransport.recvCalls : Nat → FramedTransport → List (Except SerialError SpinelFrame)
  | 0, _ => []
  | k + 1, t => t.recvFrame.1 :: recvCalls k t.recvFrame.2

/-! ## 2. Successive calls as a session -/

/-- What is left in the read buffer after a result: all but the first byte, or nothing after an
    error. -/
def leftover (pending : List UInt8) : Except SpinelError (List UInt8) → List UInt8
  | .error _ => []
  | .ok _ => pending.tail

/-- What successive calls take out of one buffer: scan, put back, scan again. -/
def drain : HdlcDecoder → List UInt8 → HdlcDecoder × List (Except SpinelError (List UInt8))
  | decoder, [] => (decoder, [])
  | decoder, b :: pending =>
    match feedUntil HdlcDecoder.feedByte decoder (b :: pending) with
    | (decoder, none) => (decoder, [])
    | (decoder, some (.error e)) => (decoder, [.error e])
    | (decoder, some (.ok frameData)) =>
      ((drain decoder pending).1, .ok frameData :: (drain decoder pending).2)

/-- What successive calls take out of the buffer and all reads. -/
def session (decoder : HdlcDecoder) (pending : List UInt8) :
    List Chunk → List (Except SpinelError (List UInt8))
  | [] => (drain decoder pending).2
  | chunk :: reads => (drain decoder pending).2 ++ session (drain decoder pending).1 chunk.val reads

/-- What `recv_frame` returns for one result of the decoder. -/
def toResult : Except SpinelError (List UInt8) → Except SerialError SpinelFrame
  | .error e => .error (.spinel e)
  | .ok frameData => (SpinelFrame.decode frameData).mapError .spinel

section Session

variable {decoder decoder' : HdlcDecoder} {pending : List UInt8}

theorem drain_quiet (h : Quiet HdlcDecoder.feedByte decoder pending decoder') :
    drain decoder pending = (decoder', []) := by
  cases pending with
  | nil =>
    cases h
    rfl
  | cons b pending => rw [drain, feedUntil_quiet h]

variable {r : Except SpinelError (List UInt8)}

theorem drain_yield (h : feedUntil HdlcDecoder.feedByte decoder pending = (decoder', some r)) :
    drain decoder pending =
      ((drain decoder' (leftover pending r)).1, r :: (drain decoder' (leftover pending r)).2) := by
  cases pending with
  | nil => cases h
  | cons b pending =>
    rw [drain, h]
    cases r with
    | error e => rfl
    | ok frameData => rfl

theorem session_yield (reads : List Chunk)
    (h : feedUntil HdlcDecoder.feedByte decoder pending = (decoder', some r)) :
    session decoder pending reads = r :: session decoder' (leftover pending r) reads := by
  cases reads with
  | nil =>
    rw [session, drain_yield h]
    rfl
  | cons c reads =>
    rw [session, drain_yield h]
    rfl

theorem recvLoop_yield (inner : List ReadResult)
    (h : feedUntil HdlcDecoder.feedByte decoder pending = (decoder', some r)) :
    recvLoop decoder pending inner = (toResult r, ⟨inner, decoder', leftover pending r⟩) := by
  unfold recvLoop
  rw [h]
  cases r with
  | error e => rfl
  | ok frameData =>
    show (_, FramedTransport.mk inner decoder' (pending.drop 1)) = _
    rw [drop_one]
    rfl

/-- The guard against runaway growth never fires: a read is far below the bound. -/
theorem recvLoop_read (h : Quiet HdlcDecoder.feedByte decoder pending decoder') (c : Chunk)
    (hc : c.val ≠ []) (inner : List ReadResult) :
    recvLoop decoder pending (.bytes c :: inner) = recvLoop decoder' c.val inner := by
  have hlen : ¬ c.val.length = 0 := fun e => hc (length_eq_zero_iff.mp e)
  have hmax : ¬ ([] : List UInt8).length + c.val.length > maxFrameSize := by
    have h256 : c.val.length ≤ 256 := c.property
    show ¬ 0 + c.val.length > 4096
    omega
  rw [recvLoop, feedUntil_quiet h]
  simp only [if_neg hlen, if_neg hmax, nil_append]

end Session

/-- **One call returns the head of the session**; at its end it reports the closed connection. -/
theorem recvLoop_session (reads : List Chunk) (hne : ∀ c ∈ reads, c.val ≠ [])
    (decoder : HdlcDecoder) (pending : List UInt8) : (∀ r rs, session decoder pending reads = r :: rs →
      ∃ decoder' pending' reads', recvLoop decoder pending (reads.map .bytes) =
          (toResult r, ⟨reads'.map .bytes, decoder', pending'⟩) ∧
        (∀ c ∈ reads', c.val ≠ []) ∧ session decoder' pending' reads' = rs) ∧
    (session decoder pending reads = [] → ∃ decoder', recvLoop decoder pending (reads.map .bytes) =
          (.error connectionClosed, ⟨[], decoder', []⟩)) := by
  induction reads generalizing decoder pending with
  | nil =>
    rcases hf : feedUntil HdlcDecoder.feedByte decoder pending with ⟨decoder', _ | r⟩
    · refine ⟨fun r rs h => ?_, fun _ => ⟨decoder', ?_⟩⟩
      · rw [session, drain_quiet (quiet_of_feedUntil hf)] at h
        cases h
      · rw [map_nil, recvLoop, hf]
    · refine ⟨fun r' rs h => ?_, fun h => ?_⟩ <;> rw [session_yield [] hf] at h <;> cases h
      exact ⟨decoder', _, [], recvLoop_yield _ hf, hne, rfl⟩
  | cons c reads ih =>
    rcases hf : feedUntil HdlcDecoder.feedByte decoder pending with ⟨decoder', _ | r⟩
    · have hq := quiet_of_feedUntil hf
      rw [map_cons, recvLoop_read hq c (hne c mem_cons_self), session, drain_quiet hq]
      exact ih (fun x hx => hne x (mem_cons_of_mem _ hx)) decoder' c.val
    · refine ⟨fun r' rs h => ?_, fun h => ?_⟩ <;> rw [session_yield _ hf] at h <;> cases h
      exact ⟨decoder', _, c :: reads, recvLoop_yield _ hf, hne, rfl⟩

/-- The results of `k` calls when the frames `rs` come first and then the end of the stream. -/
def thenClosed (rs : List (Except SerialError SpinelFrame)) (k : Nat) :
    List (Except SerialError SpinelFrame) :=
  (rs ++ List.replicate k (Except.error connectionClosed)).take k

theorem thenClosed_cons (r : Except SerialError SpinelFrame)
    (rs : List (Except SerialError SpinelFrame)) (k : Nat) :
    thenClosed (r :: rs) (k + 1) = r :: thenClosed rs k := by
  unfold thenClosed
  rw [cons_append, take_succ_cons, replicate_succ', ← append_assoc, take_append_of_le_length]
  rw [length_append, length_replicate]
  exact Nat.le_add_left k _

theorem thenClosed_nil (k : Nat) : thenClosed [] (k + 1) = .error connectionClosed :: thenClosed [] k := by
  unfold thenClosed
  rw [nil_append, nil_append, replicate_succ, take_succ_cons]

/-- **Successive calls return the session**, then "connection closed" for ever. -/
theorem recvCalls_session (k : Nat) (reads : List Chunk) (hne : ∀ c ∈ reads, c.val ≠ [])
    (decoder : HdlcDecoder) (pending : List UInt8) :
    FramedTransport.recvCalls k ⟨reads.map .bytes, decoder, pending⟩ =
      thenClosed ((session decoder pending reads).map toResult) k := by
  induction k generalizing reads decoder pending with
  | zero => rfl
  | succ k ih =>
    obtain ⟨hcons, hnil⟩ := recvLoop_session reads hne decoder pending
    rw [FramedTransport.recvCalls, FramedTransport.recvFrame]
    cases hs : session decoder pending reads with
    | nil =>
      obtain ⟨decoder', e⟩ := hnil hs
      rw [e, map_nil, thenClosed_nil]
      exact congrArg _ (ih [] (fun _ h => absurd h not_mem_nil) decoder' [])
    | cons r rs =>
      obtain ⟨decoder', pending', reads', e, hne', hs'⟩ := hcons r rs hs
      rw [e, map_cons, thenClosed_cons, ← hs']
      exact congrArg _ (ih reads' hne' decoder' pending')

end DcuDaemon.Serial
