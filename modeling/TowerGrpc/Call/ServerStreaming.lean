import TowerGrpc.Call.Unary

/-!
# A server-streaming call, end to end

A server-streaming call sends one message and receives a stream. The client's
`Grpc::server_streaming` makes the same request as a unary call. The server's
`Grpc::server_streaming` drives the service through `server_streaming::Inner` directly: the
response the service's future yields carries the message stream itself, which
`streaming::ResponseFuture` encodes. The client's `server_streaming::ResponseFuture` hands the
body over as a response stream, which reads the frames and ends as the trailers' status says.

A service's reply is a `StreamReply`. The structure holds what the call needs of a reply: its
metadata hold no status, its stream yields items the encoder takes with pauses between them and
then closes, and the status it closes with fits in the trailers. `server_streaming_call` composes
the phases of `unary_call` with those of `streaming_response`: the client reads the service's
items in order and then ends as the service's stream closed it, however the HTTP layer chunks
and delays the bytes either way.
-/

namespace TowerGrpc

open Rust Http Utf8 Status

namespace Call

variable {α β T F : Type}

/-- A service's streaming reply that a call carries across: metadata that hold no status, and a
stream that yields the `items` with the `pauses` between them, each within the frame length,
and then closes with `status`, which the trailers can carry. -/
structure StreamReply (enc : Encoder β) where
  metadata : HeaderMap
  items : List β
  pauses : List (StreamEvent β)
  last : StreamEvent β
  status : Status
  more : List (StreamEvent β)
  metadata_none : fromHeaderMap metadata = none
  items_fit : ∀ y ∈ items, (enc y).2 = none ∧ (enc y).1.length < 2 ^ 32
  pauses_items : Run.Pauses .notReady pauses (items.map .item)
  closes : Closes enc last status
  code_ne : status.code ≠ .nonExhaustive
  details_valid : ∀ b ∈ status.details, HeaderValue.isValid b
  message_no_percent : 37 ∉ asBytes status.message

/-- The service's response: the metadata, over the stream. -/
def StreamReply.response {enc : Encoder β} (r : StreamReply enc) :
    Response (List (StreamEvent β)) :=
  ⟨r.metadata, r.pauses ++ r.last :: r.more⟩

section ServerStreaming

variable {enc : Encoder α} {dec : Decoder α} {encR : Encoder β} {decR : Decoder β}
  (call : T → Request α → T × F) (pollFut : F → Poll (Response (List (StreamEvent β))) Status × F)

/-- A server-streaming call, end to end: over any delivery of the bytes and the trailers, the
client's stream reads the reply's items in order and then ends as the reply's status says. -/
theorem server_streaming_call (hdec : Reads enc dec) (hdecR : Reads encR decR)
    (request : Request α)
    (hx : (enc request.message).2 = none ∧ (enc request.message).1.length < 2 ^ 32)
    (path : String) {contentType : String}
    (hct : (asBytes contentType).all HeaderValue.isVisibleAscii = true) (inner : T)
    (wait : Request α → Nat) (respond : Request α → StreamReply encR)
    (hsvc : ∀ req, ∃ fut', runFuture pollFut (wait req + 1) (call inner req).2 =
      .ok (List.replicate (wait req) (.ok .notReady) ++ [.ok (.ready (respond req).response)],
        fut')) :
    ∃ headers,
      Client.Grpc.serverStreaming request path =
        .ok ⟨path, headers, Encode.request (Client.Grpc.once request.message)⟩ ∧
      ∀ (data : List DataEvent) (trailers : List (Poll (Option HeaderMap) Status)) (k : Nat),
        Delivery data (frames enc [request.message]) → pauseCount data + 2 ≤ k →
        ∃ answers n outs s' respHeaders sent body respTrailers,
          Streaming.pollN dec k (Streaming.new .request) ⟨data ++ [.eof], trailers⟩ =
            .ok answers ∧
          ServerStreaming.run call pollFut (n + (wait ⟨headers, request.message⟩ + 1))
              (ServerStreaming.new inner ⟨headers, answers.map StreamEvent.ofPoll⟩) =
            .ok (outs, s') ∧
          s'.calls = [⟨headers, request.message⟩] ∧
          Server.ResponseFuture.run contentType (n + wait ⟨headers, request.message⟩ + 1)
              (Server.ResponseFuture.new outs encR) =
            .ok (List.replicate (n + wait ⟨headers, request.message⟩) .notReady ++
              [.ready ⟨200, respHeaders,
                Encode.response (respond ⟨headers, request.message⟩).response.message⟩],
              ⟨[], none⟩) ∧
          Encode.runData encR ((respond ⟨headers, request.message⟩).pauses.length + 1)
              (Encode.response (respond ⟨headers, request.message⟩).response.message) =
            .ok (sent, body) ∧
          Run.Pauses (.ok .notReady) sent
            ((respond ⟨headers, request.message⟩).items.map
                (fun y => .ok (.ready (some ((frame (encR y).1).map some)))) ++
              [.ok (.ready none)]) ∧
          Encode.pollTrailers body = .ok (.ok (.ready (some respTrailers))) ∧
          ∀ (data' : List DataEvent) (m : Nat) (rest : List (Poll (Option HeaderMap) Status))
            (k' : Nat),
            Delivery data' (frames encR (respond ⟨headers, request.message⟩).items) →
            pauseCount data' + m + (respond ⟨headers, request.message⟩).items.length + 1 ≤ k' →
            ∃ answers',
              Client.ServerStreaming.ResponseFuture.poll
                  ⟨⟨[.ok (.ready ⟨200, respHeaders, received data' m respTrailers rest⟩)]⟩⟩ =
                (.ok (.ready ⟨respHeaders,
                  (Streaming.new (.response 200), received data' m respTrailers rest)⟩),
                  ⟨⟨[]⟩⟩) ∧
              Streaming.pollN decR k' (Streaming.new (.response 200))
                  (received data' m respTrailers rest) = .ok answers' ∧
              Run.Pauses (.ok .notReady) answers'
                ((respond ⟨headers, request.message⟩).items.map (fun y => .ok (.ready (some y))) ++
                  [outcome (respond ⟨headers, request.message⟩).status]) := by
  obtain ⟨headers, hreq, -, -, -⟩ :=
    Client.Grpc.streaming_ok (request.map Client.Grpc.once) path
  refine ⟨headers, hreq, fun data trailers k hdel hk => ?_⟩
  -- the request the service sees, and its reply
  let req : Request α := ⟨headers, request.message⟩
  let r := respond req
  -- the server reads the message and calls the service once, which answers after its pauses
  obtain ⟨fut', hfut⟩ := hsvc req
  obtain ⟨answers, n, hrun, hinner⟩ :=
    request_served hdec hx.2 hdel trailers hk call pollFut inner headers hfut
  -- the response future answers the reply, its stream as the body
  obtain ⟨respHeaders, hresp, -, hother⟩ :=
    Server.ResponseFuture.run_ready hct (n + wait req) r.response [] encR
  -- the body sends the items' frames with the stream's pauses; the trailers carry its status
  obtain ⟨sent, body, hbody, hsent, htr⟩ :=
    runData_closes r.items_fit r.pauses_items r.closes r.more
  obtain ⟨respTrailers, hmap, hread⟩ :=
    toHeaderMap_read r.code_ne r.details_valid r.message_no_percent
  have hnone : fromHeaderMap respHeaders = none :=
    fromHeaderMap_none_of_agree hother r.metadata_none
  refine ⟨answers, n, _, _, respHeaders, sent, body, respTrailers, hrun, hinner, rfl, hresp,
    hbody, hsent, by rw [htr, hmap]; rfl,
    fun data' m rest' k' hdel' hk' => ?_⟩
  -- the client reads the items, then ends as the trailers say
  obtain ⟨answers', hfut', hrun', hp⟩ :=
    client_reads hdecR (fun y hy => (r.items_fit y hy).2) hnone hread hdel' m rest' hk'
  refine ⟨answers', ?_, hrun', hp⟩
  simp only [Client.ServerStreaming.ResponseFuture.poll, hfut']

/-- The reply of a service that answers a request with a stream of its one message. -/
def echoReply (req : Request UInt8) : StreamReply byteEnc where
  metadata := Multimap.empty
  items := [req.message]
  pauses := [.item req.message]
  last := .done
  status := Status.new .ok ""
  more := []
  metadata_none := fromHeaderMap_empty
  items_fit := by simp [byteEnc]
  pauses_items := .refl _
  closes := .done
  code_ne := by decide
  details_valid := by simp [Status.new]
  message_no_percent := by decide

theorem server_streaming_call_echo :
    ∃ headers,
      Client.Grpc.serverStreaming ⟨Multimap.empty, (7 : UInt8)⟩ "/echo.Echo/Say" =
        .ok ⟨"/echo.Echo/Say", headers, Encode.request (Client.Grpc.once 7)⟩ ∧
      ∀ (data : List DataEvent) (trailers : List (Poll (Option HeaderMap) Status)) (k : Nat),
        Delivery data (frames byteEnc [7]) → pauseCount data + 2 ≤ k →
        ∃ answers n outs s' respHeaders sent body respTrailers,
          Streaming.pollN byteDec k (Streaming.new .request) ⟨data ++ [.eof], trailers⟩ =
            .ok answers ∧
          ServerStreaming.run
              (fun (t : Unit) (r : Request UInt8) => (t, (echoReply r).response))
              (fun (f : Response (List (StreamEvent UInt8))) =>
                ((.ok (.ready f) : Poll (Response (List (StreamEvent UInt8))) Status), f))
              (n + (0 + 1)) (ServerStreaming.new () ⟨headers, answers.map StreamEvent.ofPoll⟩) =
            .ok (outs, s') ∧
          s'.calls = [⟨headers, 7⟩] ∧
          Server.ResponseFuture.run "application/grpc+proto" (n + 0 + 1)
              (Server.ResponseFuture.new outs byteEnc) =
            .ok (List.replicate (n + 0) .notReady ++
              [.ready ⟨200, respHeaders, Encode.response [.item 7, .done]⟩], ⟨[], none⟩) ∧
          Encode.runData byteEnc (1 + 1) (Encode.response [.item 7, .done]) =
            .ok (sent, body) ∧
          Run.Pauses (.ok .notReady) sent
            [.ok (.ready (some ((frame [7]).map some))), .ok (.ready none)] ∧
          Encode.pollTrailers body = .ok (.ok (.ready (some respTrailers))) ∧
          ∀ (data' : List DataEvent) (m : Nat) (rest : List (Poll (Option HeaderMap) Status))
            (k' : Nat),
            Delivery data' (frames byteEnc [7]) → pauseCount data' + m + 1 + 1 ≤ k' →
            ∃ answers',
              Client.ServerStreaming.ResponseFuture.poll
                  ⟨⟨[.ok (.ready ⟨200, respHeaders, received data' m respTrailers rest⟩)]⟩⟩ =
                (.ok (.ready ⟨respHeaders,
                  (Streaming.new (.response 200), received data' m respTrailers rest)⟩),
                  ⟨⟨[]⟩⟩) ∧
              Streaming.pollN byteDec k' (Streaming.new (.response 200))
                  (received data' m respTrailers rest) = .ok answers' ∧
              Run.Pauses (.ok .notReady) answers'
                [.ok (.ready (some 7)), outcome (Status.new .ok "")] :=
  server_streaming_call (fun (t : Unit) (r : Request UInt8) => (t, (echoReply r).response))
    (fun (f : Response (List (StreamEvent UInt8))) =>
      ((.ok (.ready f) : Poll (Response (List (StreamEvent UInt8))) Status), f))
    byteDec_reads byteDec_reads ⟨Multimap.empty, 7⟩ (by decide) "/echo.Echo/Say" (by decide) ()
    (fun _ => 0) echoReply (fun _ => ⟨_, rfl⟩)

end ServerStreaming

end Call

end TowerGrpc
