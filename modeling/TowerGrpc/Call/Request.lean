import TowerGrpc.Call.Response
import TowerGrpc.Server.ServerStreaming

/-!
# A call's request, from the client to the service

`Grpc::streaming` makes the HTTP request of a call: the request's metadata become the headers,
`te: trailers` and the content type are added, and the body is `Encode::request` over the
request's message stream; `Grpc::unary` and `Grpc::server_streaming` do the same over a stream
of the one message. On the server, `Grpc::map_request` turns the HTTP request back into a
`crate::Request` whose metadata are all of its headers and whose message is the body as a
request `Streaming`.

`streaming_request` says that this carries the client's stream across: the service sees the
client's metadata, and its request stream reads the items in order and then ends, however
the bytes are delivered. `unary_request` says what a unary or server-streaming service then
gets from `server_streaming::Inner`: one call, with the message and the request's headers.
`request_served` is the same for a service whose future settles after some pauses, and is the
server's first phase of a whole call (`Call/Unary.lean`, `Call/ServerStreaming.lean`).
`server_streaming::Inner` is modelled over a stream given by its answers to successive polls;
here those are the answers of the request `Streaming` (`StreamEvent.ofPoll`).
-/

namespace TowerGrpc

open Rust Http Utf8 Status

variable {α : Type}

/-- `Request::into_http`: the message as the body and the metadata as the headers, at the
URI's path; the version and method it sets are not modelled. -/
def Request.intoHttp (r : Request α) (path : String) : Http.Request α :=
  ⟨path, r.metadata, r.message⟩

/-- `Request::from_http`: the headers become the metadata. -/
def Request.fromHttp (r : Http.Request α) : Request α := ⟨r.headers, r.body⟩

/-- A stream's answer as an event of a stream given by its answers: `pollStream` answers it
back. -/
def StreamEvent.ofPoll : Poll (Option α) Status → StreamEvent α
  | .ok .notReady => .notReady
  | .ok (.ready (some x)) => .item x
  | .ok (.ready none) => .done
  | .error e => .error e

/-! ## The client's request -/

namespace Client

/-- `header::TE`. -/
def teHeader : String := "te"

/-- The content type `Grpc::streaming` sets. -/
def grpcContentType : String := "application/grpc+proto"

theorem teName_ok : (HeaderName.fromStatic (asBytes teHeader)).toBool = true := by
  decide

namespace Grpc

/-- `Grpc::streaming`, up to the call of the HTTP service: the request it makes. The body is
`Encode::request` over the request's message stream; `Uri::from_parts` of a path alone does
not fail. -/
def streaming (request : Request (List (StreamEvent α))) (path : String) :
    M (Http.Request (Encode α)) := do
  let request := (request.map Encode.request).intoHttp path
  let headers ← request.headers.insertStatic teHeader (← HeaderValue.fromStatic "trailers")
  let headers ← insertContentType headers grpcContentType
  pure { request with headers }

/-- `stream::once(Ok(v))`: the message, then the end. -/
def once (x : α) : List (StreamEvent α) := [.item x, .done]

/-- `Grpc::unary`, up to the call: `client_streaming`, that is `streaming`, over the stream of
the one message. -/
def unary (request : Request α) (path : String) : M (Http.Request (Encode α)) :=
  streaming (request.map once) path

/-- `Grpc::server_streaming`, up to the call: `streaming` over the stream of the one message. -/
def serverStreaming (request : Request α) (path : String) : M (Http.Request (Encode α)) :=
  streaming (request.map once) path

/-- The request `streaming` makes: at the path, with `te` and the content type, every other
header the request's metadata, and the body over the request's stream. -/
theorem streaming_ok (request : Request (List (StreamEvent α))) (path : String) :
    ∃ headers, streaming request path = .ok ⟨path, headers, Encode.request request.message⟩ ∧
      headers.getStr (asBytes teHeader) = some ⟨asBytes "trailers", false⟩ ∧
      headers.getStr (asBytes contentTypeHeader) = some ⟨asBytes grpcContentType, false⟩ ∧
      ∀ other, NameNe other teHeader → NameNe other contentTypeHeader →
        headers.getStr (asBytes other) = request.metadata.getStr (asBytes other) := by
  obtain ⟨m₁, hm₁⟩ := HeaderMap.insertStatic_ok (m := request.metadata)
    (v := ⟨asBytes "trailers", false⟩) teName_ok
  have hct : (asBytes grpcContentType).all HeaderValue.isVisibleAscii = true := by decide
  obtain ⟨m₂, hm₂, hct₂, hother₂⟩ := insertContentType_ok hct m₁
  have hte : HeaderValue.fromStatic "trailers" = .ok ⟨asBytes "trailers", false⟩ :=
    HeaderValue.fromStatic_eq_ok (by decide)
  refine ⟨m₂, ?_, ?_, hct₂, fun other hte' hct' => ?_⟩
  · simp [streaming, Request.map, Request.intoHttp, hte, hm₁, hm₂]
  · rw [hother₂ teHeader (nameNe_of_map_ne (by decide)), HeaderMap.getStr_insertStatic_self hm₁]
  · rw [hother₂ _ hct', HeaderMap.getStr_insertStatic_of_ne hm₁ hte']

end Grpc

end Client

/-! ## The server's request -/

namespace Server.Grpc

/-- `Grpc::map_request`: the body as a request stream, the headers as the metadata. -/
def mapRequest (request : Http.Request Body) : Request (Streaming × Body) :=
  Request.fromHttp { request with body := (Streaming.new .request, request.body) }

end Server.Grpc

/-! ## The request, end to end -/

namespace Call

section Request

variable {enc : Encoder α} {dec : Decoder α}

/-- A request stream over any delivery of the frames of `xs` reads the items, pausing where
the delivery does, and then ends, whatever the trailers. -/
theorem request_reads (hdec : Reads enc dec) {xs : List α}
    (hfit : ∀ x ∈ xs, (enc x).1.length < 2 ^ 32) {data : List DataEvent}
    (hdel : Delivery data (frames enc xs)) (trailers : List (Poll (Option HeaderMap) Status))
    {k : Nat} (hk : pauseCount data + xs.length + 1 ≤ k) :
    ∃ answers,
      Streaming.pollN dec k (Streaming.new .request) ⟨data ++ [.eof], trailers⟩ = .ok answers ∧
      Run.Pauses (.ok .notReady) answers
        (xs.map (fun x => .ok (.ready (some x))) ++ [.ok (.ready none)]) :=
  -- a request ends with its data: the trailers are not read
  have hend : Streaming.EndsWith (α := α) .request trailers 0 (.ok (.ready none)) := ⟨rfl, rfl⟩
  Streaming.pollN_delivery hdec hfit hdel hend (by omega)

/-- A client's streaming request, from the client to the service: the service gets the
request's metadata with `te` and the content type, and a stream that reads the items in order
over any delivery of the body, then ends. -/
theorem streaming_request (hdec : Reads enc dec) (metadata : HeaderMap) (path : String)
    (xs : List α) (hxs : ∀ x ∈ xs, (enc x).2 = none ∧ (enc x).1.length < 2 ^ 32)
    (evs : List (StreamEvent α)) (hevs : Run.Pauses .notReady evs (xs.map .item))
    (more : List (StreamEvent α)) :
    ∃ headers sent body,
      Client.Grpc.streaming ⟨metadata, evs ++ .done :: more⟩ path =
        .ok ⟨path, headers, Encode.request (evs ++ .done :: more)⟩ ∧
      headers.getStr (asBytes Client.teHeader) = some ⟨asBytes "trailers", false⟩ ∧
      headers.getStr (asBytes contentTypeHeader) =
        some ⟨asBytes Client.grpcContentType, false⟩ ∧
      (∀ other, NameNe other Client.teHeader → NameNe other contentTypeHeader →
        headers.getStr (asBytes other) = metadata.getStr (asBytes other)) ∧
      Encode.runData enc (evs.length + 1) (Encode.request (evs ++ .done :: more)) =
        .ok (sent, body) ∧
      Run.Pauses (.ok .notReady) sent
        (xs.map (fun x => .ok (.ready (some ((frame (enc x).1).map some)))) ++
          [.ok (.ready none)]) ∧
      Encode.pollTrailers body = .ok (.ok (.ready none)) ∧
      ∀ (data : List DataEvent) (trailers : List (Poll (Option HeaderMap) Status)) (k : Nat),
        Delivery data (frames enc xs) → pauseCount data + xs.length + 1 ≤ k →
        Server.Grpc.mapRequest ⟨path, headers, ⟨data ++ [.eof], trailers⟩⟩ =
          ⟨headers, (Streaming.new .request, ⟨data ++ [.eof], trailers⟩)⟩ ∧
        ∃ answers,
          Streaming.pollN dec k (Streaming.new .request) ⟨data ++ [.eof], trailers⟩ =
            .ok answers ∧
          Run.Pauses (.ok .notReady) answers
            (xs.map (fun x => .ok (.ready (some x))) ++ [.ok (.ready none)]) := by
  obtain ⟨headers, hreq, hte, hct, hother⟩ :=
    Client.Grpc.streaming_ok ⟨metadata, evs ++ .done :: more⟩ path
  -- the end of the client's stream ends the data, and a client's trailers are none
  have hdone : Encode.specStep enc .client (.ok (.done :: more)) =
      .ok (.ok (.ready none), .ok more) := rfl
  obtain ⟨sent, ⟨inner', buf, role⟩, hrun, hsent, -, hrole⟩ :=
    Encode.runData_pauses enc .client hxs hevs hdone
  dsimp only at hrole
  subst hrole
  refine ⟨headers, sent, _, hreq, hte, hct, hother, hrun, hsent, rfl, ?_⟩
  intro data trailers k hdel hk
  exact ⟨rfl, request_reads hdec (fun x hx => (hxs x hx).2) hdel trailers hk⟩

theorem streaming_request_byte :
    ∃ headers sent body,
      Client.Grpc.streaming ⟨Multimap.empty, [.notReady, .item (7 : UInt8), .done]⟩
          "/echo.Echo/Say" =
        .ok ⟨"/echo.Echo/Say", headers, Encode.request [.notReady, .item 7, .done]⟩ ∧
      headers.getStr (asBytes Client.teHeader) = some ⟨asBytes "trailers", false⟩ ∧
      headers.getStr (asBytes contentTypeHeader) =
        some ⟨asBytes Client.grpcContentType, false⟩ ∧
      (∀ other, NameNe other Client.teHeader → NameNe other contentTypeHeader →
        headers.getStr (asBytes other) = HeaderMap.getStr Multimap.empty (asBytes other)) ∧
      Encode.runData byteEnc 3 (Encode.request [.notReady, .item 7, .done]) =
        .ok (sent, body) ∧
      Run.Pauses (.ok .notReady) sent
        [.ok (.ready (some ((frame [7]).map some))), .ok (.ready none)] ∧
      Encode.pollTrailers body = .ok (.ok (.ready none)) ∧
      ∀ (data : List DataEvent) (trailers : List (Poll (Option HeaderMap) Status)) (k : Nat),
        Delivery data (frames byteEnc [7]) → pauseCount data + 1 + 1 ≤ k →
        Server.Grpc.mapRequest ⟨"/echo.Echo/Say", headers, ⟨data ++ [.eof], trailers⟩⟩ =
          ⟨headers, (Streaming.new .request, ⟨data ++ [.eof], trailers⟩)⟩ ∧
        ∃ answers,
          Streaming.pollN byteDec k (Streaming.new .request) ⟨data ++ [.eof], trailers⟩ =
            .ok answers ∧
          Run.Pauses (.ok .notReady) answers [.ok (.ready (some 7)), .ok (.ready none)] :=
  streaming_request byteDec_reads Multimap.empty "/echo.Echo/Say" [7] (by simp [byteEnc])
    [.notReady, .item 7] (.pause (.keep .nil)) []

/-- The request stream of a unary call, over any delivery of the message's frame: its
answers, as the events the service's stream sees, are pauses and then the message. -/
theorem request_script (hdec : Reads enc dec) {x : α} (hfit : (enc x).1.length < 2 ^ 32)
    {data : List DataEvent} (hdel : Delivery data (frames enc [x]))
    (trailers : List (Poll (Option HeaderMap) Status)) {k : Nat} (hk : pauseCount data + 2 ≤ k) :
    ∃ answers n rest,
      Streaming.pollN dec k (Streaming.new .request) ⟨data ++ [.eof], trailers⟩ = .ok answers ∧
      answers.map StreamEvent.ofPoll = List.replicate n .notReady ++ .item x :: rest := by
  have hfits : ∀ y ∈ [x], (enc y).1.length < 2 ^ 32 := by simpa using hfit
  have hk' : pauseCount data + [x].length + 1 ≤ k := by
    rw [List.length_singleton]
    omega
  obtain ⟨answers, hrun, hp⟩ := request_reads hdec hfits hdel trailers hk'
  -- the stream's answers, as events: pauses, then the message
  have hevents : Run.Pauses (.notReady : StreamEvent α) (answers.map StreamEvent.ofPoll)
      [.item x, .done] := hp.map StreamEvent.ofPoll
  obtain ⟨n, rest, hscript, -⟩ := Run.Pauses.exists_replicate (by intro h; cases h) hevents
  exact ⟨answers, n, rest, hrun, hscript⟩

variable {T F β : Type}

/-- The server's end of a call's request. Over any delivery of the message's frame, and for a
service whose future settles after `m` pauses, `server_streaming::Inner` over the request
stream's answers answers `NotReady` for each pause of the delivery and of the service, then the
service's last answer, having called the service once, with the message and the metadata. -/
theorem request_served (hdec : Reads enc dec) {x : α} (hfit : (enc x).1.length < 2 ^ 32)
    {data : List DataEvent} (hdel : Delivery data (frames enc [x]))
    (trailers : List (Poll (Option HeaderMap) Status)) {k : Nat} (hk : pauseCount data + 2 ≤ k)
    (call : T → Request α → T × F) (pollFut : F → Poll β Status × F) (inner : T)
    (metadata : HeaderMap) {m : Nat} {last : Poll β Status} {fut' : F}
    (hsvc : runFuture pollFut (m + 1) (call inner ⟨metadata, x⟩).2 =
      .ok (List.replicate m (.ok .notReady) ++ [last], fut')) :
    ∃ answers n,
      Streaming.pollN dec k (Streaming.new .request) ⟨data ++ [.eof], trailers⟩ = .ok answers ∧
      ServerStreaming.run call pollFut (n + (m + 1))
          (ServerStreaming.new inner ⟨metadata, answers.map StreamEvent.ofPoll⟩) =
        .ok (List.replicate (n + m) (.ok .notReady) ++ [last],
          ⟨(call inner ⟨metadata, x⟩).1, some (.responding fut'), [⟨metadata, x⟩]⟩) := by
  obtain ⟨answers, n, rest, hrun, hscript⟩ := request_script hdec hfit hdel trailers hk
  refine ⟨answers, n, hrun, ?_⟩
  rw [hscript]
  exact ServerStreaming.run_new_reply call pollFut inner metadata n x rest hsvc

/-- A unary call's request, from the client to the service. The request `Grpc::unary` makes
carries the message's frame; a server that receives it in any non-empty chunks with any
pauses, and drives a unary or server-streaming service through `server_streaming::Inner`
over the request stream's answers, answers `NotReady` for each pause before the frame is
complete, then calls the service exactly once, with the message and the request's headers,
and from then on answers as the service's future does. -/
theorem unary_request (hdec : Reads enc dec) (request : Request α)
    (hx : (enc request.message).2 = none ∧ (enc request.message).1.length < 2 ^ 32)
    (path : String) (call : T → Request α → T × F) (pollFut : F → Poll β Status × F)
    (inner : T) :
    ∃ headers,
      Client.Grpc.unary request path =
        .ok ⟨path, headers, Encode.request (Client.Grpc.once request.message)⟩ ∧
      (∀ other, NameNe other Client.teHeader → NameNe other contentTypeHeader →
        headers.getStr (asBytes other) = request.metadata.getStr (asBytes other)) ∧
      ∀ (data : List DataEvent) (trailers : List (Poll (Option HeaderMap) Status)) (k : Nat),
        Delivery data (frames enc [request.message]) → pauseCount data + 2 ≤ k →
        ∃ answers n rest,
          Streaming.pollN dec k (Streaming.new .request) ⟨data ++ [.eof], trailers⟩ =
            .ok answers ∧
          answers.map StreamEvent.ofPoll =
            List.replicate n .notReady ++ .item request.message :: rest ∧
          ∀ j, ServerStreaming.run call pollFut (n + (j + 1))
              (ServerStreaming.new inner ⟨headers, answers.map StreamEvent.ofPoll⟩) =
            (fun r => (List.replicate n (.ok .notReady) ++ r.1,
              ⟨(call inner ⟨headers, request.message⟩).1, some (.responding r.2),
                [⟨headers, request.message⟩]⟩)) <$>
              runFuture pollFut (j + 1) (call inner ⟨headers, request.message⟩).2 := by
  obtain ⟨headers, hreq, -, -, hother⟩ :=
    Client.Grpc.streaming_ok (request.map Client.Grpc.once) path
  refine ⟨headers, hreq, hother, fun data trailers k hdel hk => ?_⟩
  obtain ⟨answers, n, rest, hrun, hscript⟩ := request_script hdec hx.2 hdel trailers hk
  refine ⟨answers, n, rest, hrun, hscript, fun j => ?_⟩
  rw [hscript, ServerStreaming.new, ServerStreaming.run_requesting_notReady,
    ServerStreaming.run_requesting_item, Functor.map_map]
  rfl

theorem unary_request_echo :
    ∃ headers,
      Client.Grpc.unary ⟨Multimap.empty, (7 : UInt8)⟩ "/echo.Echo/Say" =
        .ok ⟨"/echo.Echo/Say", headers, Encode.request (Client.Grpc.once 7)⟩ ∧
      (∀ other, NameNe other Client.teHeader → NameNe other contentTypeHeader →
        headers.getStr (asBytes other) = HeaderMap.getStr Multimap.empty (asBytes other)) ∧
      ∀ (data : List DataEvent) (trailers : List (Poll (Option HeaderMap) Status)) (k : Nat),
        Delivery data (frames byteEnc [7]) → pauseCount data + 2 ≤ k →
        ∃ answers n rest,
          Streaming.pollN byteDec k (Streaming.new .request) ⟨data ++ [.eof], trailers⟩ =
            .ok answers ∧
          answers.map StreamEvent.ofPoll = List.replicate n .notReady ++ .item 7 :: rest ∧
          ∀ j, ServerStreaming.run (fun (t : Unit) (r : Request UInt8) => (t, r.message))
              (fun f => ((.ok (.ready f) : Poll UInt8 Status), f)) (n + (j + 1))
              (ServerStreaming.new () ⟨headers, answers.map StreamEvent.ofPoll⟩) =
            (fun r => (List.replicate n (.ok .notReady) ++ r.1,
              ⟨(), some (.responding r.2), [⟨headers, 7⟩]⟩)) <$>
              runFuture (fun f => ((.ok (.ready f) : Poll UInt8 Status), f)) (j + 1) 7 :=
  unary_request byteDec_reads ⟨Multimap.empty, 7⟩ (by decide) "/echo.Echo/Say"
    (fun (t : Unit) (r : Request UInt8) => (t, r.message))
    (fun f => ((.ok (.ready f) : Poll UInt8 Status), f)) ()

end Request

end Call

end TowerGrpc
