import TowerGrpc.Codec.RoundTrip
import TowerGrpc.Server

/-!
# The client's response futures

`client::streaming::ResponseFuture` waits for the HTTP response and reads its headers: a
`grpc-status` there other than `Ok` fails the call; otherwise the body becomes a response
`Streaming`, in `Direction::Response` when the headers held no status (the trailers will
settle the call) and in `Direction::EmptyResponse` when they held `Ok`.
`server_streaming::ResponseFuture` is that future. `client_streaming::ResponseFuture` polls it
and then the stream, and resolves with the first message; `unary::ResponseFuture` is that
future.

The stream reads the trailers only after the body's end, and the `client_streaming` future
resolves after the first message without polling the stream again: a unary call resolves
with the message even when the trailers report a failure (`poll_ignores_trailers`). A response
stream, read to its end, does settle the call: it ends with `Ready(None)` only when the
headers or the trailers carry `Ok` (`run_end_ok`).
-/

namespace TowerGrpc

open Rust Http Utf8

namespace Client

/-! ## `client::streaming::ResponseFuture` -/

namespace Streaming

/-- The HTTP service's future, as its answers to successive polls; an error is already the
`Status` that `Status::from_error` makes of it. -/
structure ResponseFuture where
  inner : List (Poll (Http.Response Body) Status)

namespace ResponseFuture

/-- The response's body as a response stream in `direction`. -/
def stream (response : Http.Response Body) (direction : Direction) :
    Response (TowerGrpc.Streaming × Body) :=
  Response.fromHttp { response with body := (TowerGrpc.Streaming.new direction, response.body) }

/-- `ResponseFuture::poll`. -/
def poll (fut : ResponseFuture) :
    Poll (Response (TowerGrpc.Streaming × Body)) Status × ResponseFuture :=
  match fut.inner with
  | [] => (.ok .notReady, fut)
  | .error e :: inner => (.error e, ⟨inner⟩)
  | .ok .notReady :: inner => (.ok .notReady, ⟨inner⟩)
  | .ok (.ready response) :: inner =>
    -- a `grpc-status` in the headers makes the response trailers-only
    match Status.fromHeaderMap response.headers with
    | some status =>
      if status.code ≠ .ok then (.error status, ⟨inner⟩)
      else (.ok (.ready (stream response .emptyResponse)), ⟨inner⟩)
    | none => (.ok (.ready (stream response (.response response.status))), ⟨inner⟩)

end ResponseFuture

end Streaming

/-! ## `client::client_streaming::ResponseFuture` and `client::unary::ResponseFuture` -/

namespace ClientStreaming

inductive State where
  | waitResponse (inner : Streaming.ResponseFuture)
  | waitMessage (head : Option (Http.Response Unit)) (stream : TowerGrpc.Streaming) (body : Body)

structure ResponseFuture where
  state : State

namespace ResponseFuture

variable {α : Type} (dec : Decoder α)

def new (inner : Streaming.ResponseFuture) : ResponseFuture := ⟨.waitResponse inner⟩

def missingMessage : Status := .new .internal "Missing response message."

/-- The `WaitMessage` arm of `poll`: the stream's first message, with the head of the
response it came in. -/
def pollMessage (head : Option (Http.Response Unit)) (stream : TowerGrpc.Streaming)
    (body : Body) : M (Poll (Response α) Status × ResponseFuture) := do
  let (p, stream, body) ← TowerGrpc.Streaming.poll dec stream body
  match p with
  | .error e => pure (.error e, ⟨.waitMessage head stream body⟩)
  | .ok .notReady => pure (.ok .notReady, ⟨.waitMessage head stream body⟩)
  | .ok (.ready none) => pure (.error missingMessage, ⟨.waitMessage head stream body⟩)
  | .ok (.ready (some message)) =>
    match head with
    -- `head.take().unwrap()`
    | none => .error .panic
    | some head =>
      pure (.ok (.ready (Response.fromHttp { head with body := message })),
        ⟨.waitMessage none stream body⟩)

/-- `ResponseFuture::poll`: the loop goes round once, from `WaitResponse` to `WaitMessage`. -/
def poll (fut : ResponseFuture) : M (Poll (Response α) Status × ResponseFuture) :=
  match fut.state with
  | .waitResponse inner =>
    match inner.poll with
    | (.error e, inner) => pure (.error e, ⟨.waitResponse inner⟩)
    | (.ok .notReady, inner) => pure (.ok .notReady, ⟨.waitResponse inner⟩)
    | (.ok (.ready response), _) =>
      -- `response.into_http().into_parts()`
      let response := response.intoHttp
      pollMessage dec (some { response with body := () }) response.body.1 response.body.2
  | .waitMessage head stream body => pollMessage dec head stream body

section Steps

/-- The HTTP response arrives: the loop goes on to the stream with the response's head. -/
theorem poll_waitResponse_ready {inner inner' : Streaming.ResponseFuture}
    {response : Response (TowerGrpc.Streaming × Body)}
    (h : inner.poll = (.ok (.ready response), inner')) :
    poll dec ⟨.waitResponse inner⟩ =
      pollMessage dec (some ⟨200, response.metadata, ()⟩) response.message.1 response.message.2 := by
  simp only [poll, h]
  rfl

/-- The stream's first message resolves the call, with the head's headers as metadata. -/
theorem pollMessage_some (head : Http.Response Unit) {stream stream' : TowerGrpc.Streaming}
    {body body' : Body} {message : α}
    (h : TowerGrpc.Streaming.poll dec stream body = .ok (.ok (.ready (some message)), stream', body')) :
    pollMessage dec (some head) stream body =
      .ok (.ok (.ready ⟨head.headers, message⟩), ⟨.waitMessage none stream' body'⟩) := by
  simp only [pollMessage, h]
  rfl

end Steps

end ResponseFuture

end ClientStreaming

namespace ServerStreaming

structure ResponseFuture where
  inner : Streaming.ResponseFuture

/-- `ResponseFuture::poll`: the `streaming` future's. -/
def ResponseFuture.poll (fut : ResponseFuture) :
    Poll (Response (TowerGrpc.Streaming × Body)) Status × ResponseFuture :=
  let (p, inner) := fut.inner.poll
  (p, ⟨inner⟩)

end ServerStreaming

namespace Unary

structure ResponseFuture where
  inner : ClientStreaming.ResponseFuture

namespace ResponseFuture

variable {α : Type} (dec : Decoder α)

def new (inner : ClientStreaming.ResponseFuture) : ResponseFuture := ⟨inner⟩

/-- `ResponseFuture::poll`: the `client_streaming` future's. -/
def poll (fut : ResponseFuture) : M (Poll (Response α) Status × ResponseFuture) := do
  let (p, inner) ← fut.inner.poll dec
  pure (p, ⟨inner⟩)

end ResponseFuture

end Unary

/-! ## A unary call and its trailers -/

section Unary

variable {α : Type} {enc : Encoder α} {dec : Decoder α}

/-- A response whose headers hold no status becomes a stream in `Direction::Response`. -/
theorem Streaming.ResponseFuture.poll_of_none (response : Http.Response Body)
    (hnone : Status.fromHeaderMap response.headers = none)
    (rest : List (Poll (Http.Response Body) Status)) :
    Streaming.ResponseFuture.poll ⟨.ok (.ready response) :: rest⟩ =
      (.ok (.ready ⟨response.headers,
        (TowerGrpc.Streaming.new (.response response.status), response.body)⟩), ⟨rest⟩) := by
  simp [Streaming.ResponseFuture.poll, hnone, Streaming.ResponseFuture.stream, Response.fromHttp]

/-- A unary call whose response has no status in its headers resolves with the first
message of the body, whatever the trailers that follow it say. -/
theorem poll_ignores_trailers (hdec : Reads enc dec) {x : α}
    (hx : (enc x).1.length < 2 ^ 32) (statusCode : Nat) {headers : HeaderMap}
    (hnone : Status.fromHeaderMap headers = none)
    (trailers : List (Poll (Option HeaderMap) Status))
    (rest : List (Poll (Http.Response Body) Status)) :
    ∃ fut', (Unary.ResponseFuture.new (ClientStreaming.ResponseFuture.new
        ⟨.ok (.ready ⟨statusCode, headers, ⟨[.data (frame (enc x).1), .eof], trailers⟩⟩) ::
          rest⟩)).poll dec =
      .ok (.ok (.ready ⟨headers, x⟩), fut') := by
  have hinv : TowerGrpc.Streaming.Inv enc [x] (TowerGrpc.Streaming.new (.response statusCode))
      [frame (enc x).1].flatten :=
    TowerGrpc.Streaming.inv_new (by simpa using hx) (by simp [frames]) _
  have hcs : ∀ c ∈ [frame (enc x).1], c ≠ [] := by simp [frame]
  obtain ⟨s', cs', hpoll, -⟩ := TowerGrpc.Streaming.poll_item hdec hcs hinv trailers
  simp only [List.map_cons, List.map_nil, List.cons_append, List.nil_append] at hpoll
  have hfut := Streaming.ResponseFuture.poll_of_none
    ⟨statusCode, headers, ⟨[.data (frame (enc x).1), .eof], trailers⟩⟩ hnone rest
  have hcall := ClientStreaming.ResponseFuture.poll_waitResponse_ready dec hfut
  have hmsg := ClientStreaming.ResponseFuture.pollMessage_some dec ⟨200, headers, ()⟩ hpoll
  refine ⟨⟨⟨.waitMessage none s' ⟨cs'.map .data ++ [.eof], trailers⟩⟩⟩, ?_⟩
  simp only [Unary.ResponseFuture.poll, Unary.ResponseFuture.new,
    ClientStreaming.ResponseFuture.new, hcall]
  simp only [hmsg]
  rfl

set_option maxRecDepth 4000 in
/-- The server reports `Internal` in the trailers, after the message: the unary call resolves
with the message. -/
theorem poll_ignores_trailers_internal :
    let trailers : HeaderMap :=
      ⟨[(⟨asBytes "grpc-status", by decide +kernel⟩, ⟨asBytes "13", false⟩)]⟩
    (Status.fromHeaderMap trailers).map Status.code = some .internal ∧
    ∃ fut', (Unary.ResponseFuture.new (ClientStreaming.ResponseFuture.new
        ⟨[.ok (.ready ⟨200, Multimap.empty,
          ⟨[.data (frame (byteEnc 7).1), .eof], [.ok (.ready (some trailers))]⟩⟩)]⟩)).poll byteDec =
      .ok (.ok (.ready ⟨Multimap.empty, 7⟩), fut') := by
  intro trailers
  exact ⟨by decide,
    poll_ignores_trailers (x := 7) byteDec_reads (by decide) 200 Status.fromHeaderMap_empty _ []⟩

end Unary

/-! ## A response stream and its trailers -/

/-- The response stream of a `streaming` or `server_streaming` call ends with `Ready(None)`
only when the call succeeded: the response's headers hold the `Ok` status, or one of the
trailers' answers does. -/
theorem run_end_ok {α : Type} (dec : Decoder α) (response : Http.Response Body)
    (rest : List (Poll (Http.Response Body) Status))
    {stream : Response (TowerGrpc.Streaming × Body)} {fut' : Streaming.ResponseFuture}
    (hfut : Streaming.ResponseFuture.poll ⟨.ok (.ready response) :: rest⟩ = (.ok (.ready stream), fut'))
    {k : Nat} {answers : List (Poll (Option α) Status)} {sb : TowerGrpc.Streaming × Body}
    (hrun : Run.run (TowerGrpc.Streaming.pollStep dec) TowerGrpc.Streaming.isEnd k stream.message =
      .ok (answers, sb))
    (hend : .ok (.ready none) ∈ answers) :
    (∃ st, Status.fromHeaderMap response.headers = some st ∧ st.code = .ok) ∨
      TowerGrpc.Streaming.TrailersOk response.body.trailers := by
  cases hst : Status.fromHeaderMap response.headers with
  | some st =>
    -- a status in the headers: the future fails unless it is `Ok`
    by_cases hc : st.code = .ok
    · exact .inl ⟨st, rfl, hc⟩
    · simp [Streaming.ResponseFuture.poll, hst, hc] at hfut
  | none =>
    -- no status in the headers: the stream is a response stream over the body
    rw [Streaming.ResponseFuture.poll_of_none response hst rest] at hfut
    cases hfut
    exact .inr (TowerGrpc.Streaming.run_ready_none dec rfl hrun hend)

set_option maxRecDepth 4000 in
/-- A trailers-only end: no message, and trailers with the `Ok` status. -/
theorem run_end_ok_trailers :
    let trailers : HeaderMap :=
      ⟨[(⟨asBytes "grpc-status", by decide +kernel⟩, ⟨asBytes "0", false⟩)]⟩
    let response : Http.Response Body := ⟨200, Multimap.empty, ⟨[.eof], [.ok (.ready (some trailers))]⟩⟩
    (∃ st, Status.fromHeaderMap response.headers = some st ∧ st.code = .ok) ∨
      TowerGrpc.Streaming.TrailersOk response.body.trailers := by
  intro trailers response
  have hinfer : inferGrpcStatus (some trailers) 200 = .ok () := by
    obtain ⟨⟨⟩, h⟩ := Rust.exists_eq_ok_of_toBool (x := inferGrpcStatus (some trailers) 200)
      (by decide)
    exact h
  have hstep : TowerGrpc.Streaming.pollStep byteDec
      (TowerGrpc.Streaming.new (.response 200), response.body) =
      .ok (.ok (.ready none), ⟨⟨[]⟩, .done, .response 200⟩, ⟨[], []⟩) := by
    simp [response, TowerGrpc.Streaming.pollStep, TowerGrpc.Streaming.poll,
      TowerGrpc.Streaming.pollLoop, TowerGrpc.Streaming.decode, TowerGrpc.Streaming.new,
      TowerGrpc.Streaming.pollEnd, hinfer, BufList.remaining, BufList.hasRemaining]
  exact run_end_ok byteDec response []
    (Streaming.ResponseFuture.poll_of_none response Status.fromHeaderMap_empty [])
    (Run.run_succ_of_stop (k := 0) hstep rfl) (by simp)

end Client

end TowerGrpc
