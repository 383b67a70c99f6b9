import TowerGrpc.Codec.Buf
import TowerGrpc.Status
import TowerGrpc.Lib.Run

/-!
# `Streaming`: decoding a framed body

The decoder half of `generic/codec.rs`. A gRPC body is a sequence of frames, each a flag
byte, a four-byte big-endian length `L` and `L` bytes of message. `Streaming::decode` reads a
header once five bytes are buffered, remembers the length in `State::ReadBody`, and hands
the decoder a `DecodeBuf` once `L` bytes are buffered. `Streaming::poll` loops: decode,
else pull the body's next chunk into the queue; at the end of the body it fails if bytes
are left over, and for a response it settles the call from the trailers.

The body and the decoder are generic in the source. The body is given by its answers
(`Body`): those of successive `poll_data` calls, then of `poll_trailers`; once they run out
it is pending. The decoder is a function of the `DecodeBuf` it is handed, the queue's
layout included; whatever it reads, the queue ends up advanced by the frame's length
(`DecodeBuf.drop_advanceAll`).
-/

namespace TowerGrpc

open Rust Http

inductive State where
  | readHeader
  | readBody (compression : Bool) (len : Nat)
  | done
  deriving DecidableEq, Repr

inductive Direction where
  | request
  | response (statusCode : Nat)
  | emptyResponse
  deriving DecidableEq, Repr

/-- One answer of the body's `poll_data`; an error is already the `Status` that
`Status::from_error` makes of it. -/
inductive DataEvent where
  | data (chunk : List UInt8)
  | eof
  | notReady
  | error (e : Status)

structure Body where
  data : List DataEvent
  trailers : List (Poll (Option HeaderMap) Status)

abbrev Decoder (α : Type) := DecodeBuf → Except Status α

structure Streaming where
  bufs : BufList
  state : State
  direction : Direction
  deriving DecidableEq

namespace Streaming

variable {α : Type} (dec : Decoder α)

def new (direction : Direction) : Streaming := ⟨⟨[]⟩, .readHeader, direction⟩

def compressedStatus : Status :=
  .new .unimplemented "Message compressed, compression not supported yet."

def flagStatus (f : UInt8) : Status := .new .internal s!"Unexpected compression flag: {f}"

def eofStatus : Status := .new .internal "Unexpected EOF decoding stream."

/-- The `ReadBody` half of `decode`: wait for `len` bytes, then hand them to the decoder. -/
def decodeBody (s : Streaming) (len : Nat) : M (Except Status (Option α) × Streaming) :=
  if s.bufs.remaining < len then .ok (.ok none, s)
  else do
    let bufs ← s.bufs.advance len
    match dec ⟨s.bufs, len⟩ with
    | .ok msg => pure (.ok (some msg), { s with bufs, state := .readHeader })
    | .error e => pure (.error e, { s with bufs })

/-- `Streaming::decode`. -/
def decode (s : Streaming) : M (Except Status (Option α) × Streaming) :=
  match s.state with
  | .readHeader =>
    if s.bufs.remaining < 5 then .ok (.ok none, s)
    else do
      let (flag, bufs) ← Buf.getU8 BufList.ops s.bufs
      if flag = 0 then do
        let (len, bufs) ← Buf.getU32Be BufList.ops bufs
        decodeBody dec { s with bufs, state := .readBody false len } len
      else if flag = 1 then pure (.error compressedStatus, { s with bufs })
      else pure (.error (flagStatus flag), { s with bufs })
  | .readBody _ len => decodeBody dec s len
  | .done => .ok (.ok none, s)

/-- How the `loop` of `poll` ends: by returning an answer, or by `break`. -/
inductive Exit (α : Type) where
  | ret (p : Poll (Option α) Status)
  | brk

/-- The `loop` of `Streaming::poll`, over the body's remaining `poll_data` answers. -/
def pollLoop (s : Streaming) (evs : List DataEvent) :
    M (Exit α × Streaming × List DataEvent) :=
  if s.state = .done then .ok (.brk, s, evs)
  else do
    let (r, s) ← decode dec s
    match r with
    | .error e => pure (.ret (.error e), s, evs)
    | .ok (some v) => pure (.ret (.ok (.ready (some v))), s, evs)
    | .ok none =>
      match evs with
      | [] => pure (.ret (.ok .notReady), s, [])
      | .notReady :: evs => pure (.ret (.ok .notReady), s, evs)
      | .error e :: evs => pure (.ret (.error e), s, evs)
      | .data d :: evs => pollLoop { s with bufs := s.bufs.pushBack d } evs
      | .eof :: evs =>
        if s.bufs.hasRemaining then pure (.ret (.error eofStatus), s, evs)
        else pure (.brk, { s with state := .done }, evs)

/-! ### One turn of the loop, by what `decode` returns -/

section Loop

variable {dec} (s : Streaming) {s' : Streaming}

theorem decode_of_lt (hst : s.state = .readHeader) (h5 : s.bufs.remaining < 5) :
    decode dec s = .ok (.ok none, s) := by
  simp [decode, hst, h5]

/-- A stream that is done breaks out of the loop at once. -/
theorem pollLoop_of_done (evs : List DataEvent) (hs : s.state = .done) :
    pollLoop dec s evs = .ok (.brk, s, evs) := by
  rw [pollLoop, if_pos hs]

/-- One turn of the loop on a live stream, by what `decode` returns: the only lemma that
unfolds the loop, so the others read the turn from it. -/
theorem pollLoop_of_ne_done (evs : List DataEvent) (hs : s.state ≠ .done) :
    pollLoop dec s evs =
      match decode dec s, evs with
      | .error f, _ => .error f
      | .ok (.error e, s'), evs => .ok (.ret (.error e), s', evs)
      | .ok (.ok (some v), s'), evs => .ok (.ret (.ok (.ready (some v))), s', evs)
      | .ok (.ok none, s'), [] => .ok (.ret (.ok .notReady), s', [])
      | .ok (.ok none, s'), .notReady :: evs => .ok (.ret (.ok .notReady), s', evs)
      | .ok (.ok none, s'), .error e :: evs => .ok (.ret (.error e), s', evs)
      | .ok (.ok none, s'), .data d :: evs => pollLoop dec { s' with bufs := s'.bufs.pushBack d } evs
      | .ok (.ok none, s'), .eof :: evs =>
        if s'.bufs.hasRemaining then .ok (.ret (.error eofStatus), s', evs)
        else .ok (.brk, { s' with state := .done }, evs) := by
  rw [pollLoop, if_neg hs]
  rcases decode dec s with f | ⟨r, s'⟩
  · rfl
  · rcases r with e | (_ | v)
    · rfl
    · rcases evs with _ | ⟨_ | _ | _ | _, evs⟩ <;> rfl
    · rfl

theorem pollLoop_of_some (evs : List DataEvent) {v : α} (hs : s.state ≠ .done)
    (h : decode dec s = .ok (.ok (some v), s')) :
    pollLoop dec s evs = .ok (.ret (.ok (.ready (some v))), s', evs) := by
  rw [pollLoop_of_ne_done s evs hs, h]

theorem pollLoop_of_fault (evs : List DataEvent) {f : Fault} (hs : s.state ≠ .done)
    (h : decode dec s = .error f) : pollLoop (α := α) dec s evs = .error f := by
  rw [pollLoop_of_ne_done s evs hs, h]

theorem pollLoop_data (d : List UInt8) (evs : List DataEvent) (hs : s.state ≠ .done)
    (h : decode dec s = .ok (.ok none, s')) :
    pollLoop dec s (.data d :: evs) = pollLoop dec { s' with bufs := s'.bufs.pushBack d } evs := by
  rw [pollLoop_of_ne_done s _ hs, h]

theorem pollLoop_eof (evs : List DataEvent) (hs : s.state ≠ .done)
    (h : decode dec s = .ok (.ok none, s')) :
    pollLoop dec s (.eof :: evs) =
      if s'.bufs.hasRemaining then .ok (.ret (.error eofStatus), s', evs)
      else .ok (.brk, { s' with state := .done }, evs) := by
  rw [pollLoop_of_ne_done s _ hs, h]

end Loop

/-- What `poll` answers after the loop: for a response, the status the trailers settle. -/
def pollEnd (s : Streaming) (trailers : List (Poll (Option HeaderMap) Status)) :
    Poll (Option α) Status × List (Poll (Option HeaderMap) Status) :=
  match s.direction with
  | .response statusCode =>
    match trailers with
    | [] => (.ok .notReady, [])
    | .error e :: ts => (.error e, ts)
    | .ok .notReady :: ts => (.ok .notReady, ts)
    | .ok (.ready t) :: ts =>
      match inferGrpcStatus t statusCode with
      | .ok () => (.ok (.ready none), ts)
      | .error e => (.error e, ts)
  | _ => (.ok (.ready none), trailers)

/-- `Streaming::poll`. -/
def poll (s : Streaming) (b : Body) : M (Poll (Option α) Status × Streaming × Body) := do
  let (exit, s, data) ← pollLoop dec s b.data
  match exit with
  | .ret p => pure (p, s, { b with data })
  | .brk =>
    let (p, trailers) := pollEnd s b.trailers
    pure (p, s, ⟨data, trailers⟩)

/-! ### What a poll keeps -/

section Keeps

variable {dec}

theorem decodeBody_direction {s s' : Streaming} {len : Nat} {r : Except Status (Option α)}
    (h : decodeBody dec s len = .ok (r, s')) : s'.direction = s.direction := by
  unfold decodeBody at h
  split at h
  · cases h
    rfl
  · obtain ⟨bufs, -, h⟩ := bind_eq_ok.mp h
    split at h <;> cases h <;> rfl

theorem decode_direction {s s' : Streaming} {r : Except Status (Option α)}
    (h : decode dec s = .ok (r, s')) : s'.direction = s.direction := by
  unfold decode at h
  split at h
  · split at h
    · cases h
      rfl
    · obtain ⟨⟨flag, bufs⟩, -, h⟩ := bind_eq_ok.mp h
      dsimp only at h
      split at h
      · obtain ⟨⟨len, bufs'⟩, -, h⟩ := bind_eq_ok.mp h
        exact decodeBody_direction (s := { s with bufs := bufs', state := .readBody false len }) h
      · split at h <;> cases h <;> rfl
  · exact decodeBody_direction h
  · cases h
    rfl

/-- The loop keeps the direction, and it returns `Ready(None)` only by breaking out. -/
theorem pollLoop_spec {s s' : Streaming} {evs evs' : List DataEvent} {x : Exit α}
    (h : pollLoop dec s evs = .ok (x, s', evs')) :
    s'.direction = s.direction ∧ ∀ p, x = .ret p → p ≠ .ok (.ready none) := by
  -- the loop recurs only on a data chunk, on the rest of the answers
  induction evs generalizing s with
  | nil =>
    by_cases hs : s.state = .done
    · rw [pollLoop_of_done s _ hs] at h
      cases h
      exact ⟨rfl, nofun⟩
    rw [pollLoop_of_ne_done s _ hs] at h
    rcases hd : decode dec s with f | ⟨r, s₁⟩ <;> rw [hd] at h
    · cases h
    · have hdir := decode_direction hd
      rcases r with e | (_ | v) <;> cases h <;> exact ⟨hdir, by simp⟩
  | cons ev evs ih =>
    by_cases hs : s.state = .done
    · rw [pollLoop_of_done s _ hs] at h
      cases h
      exact ⟨rfl, nofun⟩
    rw [pollLoop_of_ne_done s _ hs] at h
    rcases hd : decode dec s with f | ⟨r, s₁⟩ <;> rw [hd] at h
    · cases h
    · have hdir := decode_direction hd
      rcases r with e | (_ | v)
      · cases h
        exact ⟨hdir, by simp⟩
      · -- nothing decoded: the turn goes by the body's next answer
        cases ev with
        | data d =>
          obtain ⟨hdir', hret⟩ := ih h
          exact ⟨hdir'.trans hdir, hret⟩
        | eof =>
          dsimp only at h
          split at h <;> cases h <;> exact ⟨hdir, by simp⟩
        | notReady =>
          cases h
          exact ⟨hdir, by simp⟩
        | error e =>
          cases h
          exact ⟨hdir, by simp⟩
      · cases h
        exact ⟨hdir, by simp⟩

/-- Some answer of the body's `poll_trailers` holds trailers whose status is `Ok`. -/
def TrailersOk (ts : List (Poll (Option HeaderMap) Status)) : Prop :=
  ∃ t st, .ok (.ready (some t)) ∈ ts ∧ Status.fromHeaderMap t = some st ∧ st.code = .ok

theorem TrailersOk.of_suffix {ts ts' : List (Poll (Option HeaderMap) Status)}
    (hsuf : ts' <:+ ts) (h : TrailersOk ts') : TrailersOk ts := by
  obtain ⟨t, st, ht, hst, hc⟩ := h
  exact ⟨t, st, hsuf.subset ht, hst, hc⟩

theorem pollEnd_suffix (s : Streaming) (ts : List (Poll (Option HeaderMap) Status)) :
    (pollEnd (α := α) s ts).2 <:+ ts := by
  unfold pollEnd
  split
  · split <;> first | exact List.suffix_refl _ | exact List.suffix_cons _ _ | skip
    split <;> exact List.suffix_cons _ _
  · exact List.suffix_refl _

/-- In a response, the end of the stream is the trailers' `Ok`. -/
theorem pollEnd_ready_none {s : Streaming} {statusCode : Nat}
    (hdir : s.direction = .response statusCode) {ts : List (Poll (Option HeaderMap) Status)}
    (h : (pollEnd (α := α) s ts).1 = .ok (.ready none)) : TrailersOk ts := by
  unfold pollEnd at h
  rw [hdir] at h
  dsimp only at h
  split at h
  · cases h
  · cases h
  · cases h
  · split at h
    · rename_i hinfer
      obtain ⟨t, st, rfl, hst, hc⟩ := inferGrpcStatus_eq_ok.mp hinfer
      exact ⟨t, st, by simp, hst, hc⟩
    · cases h

/-- What a poll keeps: the direction, and what is left of the trailers' answers; and in a
response it ends the stream only on the trailers' `Ok`. -/
theorem poll_spec {s s' : Streaming} {b b' : Body} {p : Poll (Option α) Status}
    (h : poll dec s b = .ok (p, s', b')) :
    s'.direction = s.direction ∧ b'.trailers <:+ b.trailers ∧
      ∀ statusCode, s.direction = .response statusCode → p = .ok (.ready none) →
        TrailersOk b.trailers := by
  obtain ⟨⟨x, s₁, evs⟩, hloop, h⟩ := bind_eq_ok.mp h
  obtain ⟨hdir, hret⟩ := pollLoop_spec hloop
  dsimp only at h
  split at h
  · cases h
    exact ⟨hdir, List.suffix_refl _, fun _ _ hp => absurd hp (hret _ rfl)⟩
  · cases h
    exact ⟨hdir, pollEnd_suffix _ _, fun _ hc hp => pollEnd_ready_none (hdir.trans hc) hp⟩

end Keeps

/-- `poll`, on the stream and its body as one state. -/
def pollStep (sb : Streaming × Body) : M (Poll (Option α) Status × Streaming × Body) :=
  poll dec sb.1 sb.2

/-- Whether a consumer stops reading after this answer: after the end of the stream or an
error. -/
def isEnd : Poll (Option α) Status → Bool
  | .ok (.ready (some _)) | .ok .notReady => false
  | _ => true

/-- The answers of up to `k` polls, the way a consumer reads a stream: on after an item or
`NotReady`, stopping after `Ready(None)` or an error. -/
def pollN (k : Nat) (s : Streaming) (b : Body) : M (List (Poll (Option α) Status)) :=
  Prod.fst <$> Run.run (pollStep dec) isEnd k (s, b)

/-- A response stream ends only on the trailers' `Ok`: in every run of polls, an answer
`Ready(None)` means that one of the body's `poll_trailers` answers held the `Ok` status. -/
theorem run_ready_none {s : Streaming} {statusCode : Nat}
    (hdir : s.direction = .response statusCode) {b : Body} {k : Nat}
    {answers : List (Poll (Option α) Status)} {sb : Streaming × Body}
    (hrun : Run.run (pollStep dec) isEnd k (s, b) = .ok (answers, sb))
    (hend : .ok (.ready none) ∈ answers) : TrailersOk b.trailers := by
  -- the invariant: the direction, and the trailers' answers left are a suffix of the body's
  have hanswers := Run.run_answers
    (fun sb' : Streaming × Body => sb'.1.direction = .response statusCode ∧
      sb'.2.trailers <:+ b.trailers)
    (fun p => p = .ok (.ready none) → TrailersOk b.trailers)
    (fun ⟨s₁, b₁⟩ p ⟨s₂, b₂⟩ ⟨hd, hsuf⟩ hstep => by
      obtain ⟨hdir', hsuf', hend'⟩ := poll_spec hstep
      exact ⟨fun hp => (hend' _ hd hp).of_suffix hsuf, hdir'.trans hd, hsuf'.trans hsuf⟩)
    ⟨hdir, List.suffix_refl _⟩ hrun
  exact hanswers _ hend rfl

end Streaming

end TowerGrpc
