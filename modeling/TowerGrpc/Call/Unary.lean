import TowerGrpc.Call.Request

/-!
# A unary call, end to end

A unary call crosses the code of both ends. The client's `Grpc::unary` builds the HTTP request
and its `Encode` body. The server's `Grpc::map_request` reads the body as a request stream. The
`server_streaming::Inner` that `unary::ResponseFuture` drives waits for the stream's message and
calls the unary service, whose response `unary::InnerFuture` puts over a `Once` stream.
`streaming::ResponseFuture` answers it with headers and an `Encode` body. Last, the client's
`unary::ResponseFuture` reads the headers and the body's message.

Each of them is polled by an executor, and each one's answers are what the next one is given,
so the model composes their runs: the answers of one run are the script of the next. The
phases are lemmas of their own: the request read and the service called once and awaited
(`request_served`, through the wrapper `runFuture_wrap_settles`), the response future's answer
(`run_ready`), and the client's read of the reply (`unary_reads`).

`unary_call` puts the phases together. Take a service that answers every request after some
pauses, with metadata that hold no status and a reply its encoder takes. Then the client's
call resolves with the service's reply to the client's message, under the service's metadata,
however the HTTP layer chunks and delays the bytes either way, and the service is called once.
`unary_call_fails` is the same call with a service that fails: the client's call fails with
the service's status, which the server sends in the headers of an empty response.
-/

namespace TowerGrpc

open Rust Http Utf8 Status

namespace Unary

variable {U : Type}

/-- A `Once` stream as the events its polls answer: its item, if it has one, then its end,
after which `Encode` polls it no more. -/
def Once.events (o : Once U) : List (StreamEvent U) :=
  match o.inner with
  | some y => [.item y, .done]
  | none => [.done]

/-- The events are the answers of `Once::poll`: the first, and after an item the second. -/
theorem Once.events_eq_poll (o : Once U) :
    o.events = StreamEvent.ofPoll o.poll.1 ::
      (if o.inner.isSome then [StreamEvent.ofPoll o.poll.2.poll.1] else []) := by
  obtain ⟨_ | y⟩ := o <;> rfl

end Unary

namespace Call

section Unary

variable {α β T F : Type} {enc : Encoder α} {dec : Decoder α} {encR : Encoder β}
  {decR : Decoder β} (callUnary : T → Request α → T × F)
  (pollUnary : F → Poll (Response β) Status × F)

/-- The wrapper's future answers as the unary service's does, each response over a `Once`. -/
theorem runFuture_wrap {k : Nat} {fut fut' : F} {answers : List (Poll (Response β) Status)}
    (hsvc : runFuture pollUnary k fut = .ok (answers, fut')) :
    runFuture (Unary.InnerFuture.poll pollUnary) k ⟨fut⟩ =
      .ok (answers.map (Except.map (Async.map Unary.Once.map)), ⟨fut'⟩) := by
  have hwrap := Unary.runFuture_innerFuture pollUnary k fut
  rw [hsvc] at hwrap
  cases h : runFuture (Unary.InnerFuture.poll pollUnary) k ⟨fut⟩ with
  | error e => simp [h] at hwrap
  | ok r =>
    obtain ⟨outs, ⟨g⟩⟩ := r
    -- the run's answers and final future are the mapped ones, field by field
    simp only [h, map_ok, Except.ok.injEq, Prod.mk.injEq] at hwrap
    obtain ⟨rfl, rfl⟩ := hwrap
    rfl

/-- A unary service whose future settles after `m` pauses: the wrapper's future settles after
as many, with the service's last answer over a `Once` stream. -/
theorem runFuture_wrap_settles {m : Nat} {fut fut' : F} {last : Poll (Response β) Status}
    (hsvc : runFuture pollUnary (m + 1) fut =
      .ok (List.replicate m (.ok .notReady) ++ [last], fut')) :
    runFuture (Unary.InnerFuture.poll pollUnary) (m + 1) ⟨fut⟩ =
      .ok (List.replicate m (.ok .notReady) ++ [Except.map (Async.map Unary.Once.map) last],
        ⟨fut'⟩) := by
  rw [runFuture_wrap pollUnary hsvc, List.map_append, List.map_replicate]
  rfl

/-- A unary call, end to end: over any delivery of the bytes each way, the client's unary
future resolves with the service's reply and its metadata. -/
theorem unary_call (hdec : Reads enc dec) (hdecR : Reads encR decR) (request : Request α)
    (hx : (enc request.message).2 = none ∧ (enc request.message).1.length < 2 ^ 32)
    (path : String) {contentType : String}
    (hct : (asBytes contentType).all HeaderValue.isVisibleAscii = true) (inner : T)
    (wait : Request α → Nat) (respond : Request α → Response β)
    (hsvc : ∀ req, ∃ fut', runFuture pollUnary (wait req + 1) (callUnary inner req).2 =
      .ok (List.replicate (wait req) (.ok .notReady) ++ [.ok (.ready (respond req))], fut'))
    (hreply : ∀ req, (encR (respond req).message).2 = none ∧
      (encR (respond req).message).1.length < 2 ^ 32)
    (hmeta : ∀ req, fromHeaderMap (respond req).metadata = none) :
    ∃ headers,
      Client.Grpc.unary request path =
        .ok ⟨path, headers, Encode.request (Client.Grpc.once request.message)⟩ ∧
      ∀ (data : List DataEvent) (trailers : List (Poll (Option HeaderMap) Status)) (k : Nat),
        Delivery data (frames enc [request.message]) → pauseCount data + 2 ≤ k →
        ∃ answers n outs s' respHeaders body,
          Streaming.pollN dec k (Streaming.new .request) ⟨data ++ [.eof], trailers⟩ =
            .ok answers ∧
          ServerStreaming.run (Unary.Inner.call callUnary) (Unary.InnerFuture.poll pollUnary)
              (n + (wait ⟨headers, request.message⟩ + 1))
              (Unary.new inner ⟨headers, answers.map StreamEvent.ofPoll⟩) = .ok (outs, s') ∧
          s'.calls = [⟨headers, request.message⟩] ∧
          Server.ResponseFuture.run contentType (n + wait ⟨headers, request.message⟩ + 1)
              (Server.ResponseFuture.new
                (outs.map (Except.map (Async.map (Response.map Unary.Once.events)))) encR) =
            .ok (List.replicate (n + wait ⟨headers, request.message⟩) .notReady ++
              [.ready ⟨200, respHeaders,
                Encode.response [.item (respond ⟨headers, request.message⟩).message, .done]⟩],
              ⟨[], none⟩) ∧
          (∀ other, NameNe other contentTypeHeader →
            respHeaders.getStr (asBytes other) =
              (respond ⟨headers, request.message⟩).metadata.getStr (asBytes other)) ∧
          Encode.runData encR 2
              (Encode.response [.item (respond ⟨headers, request.message⟩).message, .done]) =
            .ok ([.ok (.ready (some
              ((frame (encR (respond ⟨headers, request.message⟩).message).1).map some))),
              .ok (.ready none)], body) ∧
          ∀ (data' : List DataEvent) (trailers' : List (Poll (Option HeaderMap) Status))
            (k' : Nat),
            Delivery data' (frames encR [(respond ⟨headers, request.message⟩).message]) →
            pauseCount data' + 1 ≤ k' →
            ∃ answers' fut',
              Run.run (Client.Unary.ResponseFuture.poll decR) settled k'
                  (Client.Unary.ResponseFuture.new (Client.ClientStreaming.ResponseFuture.new
                    ⟨[.ok (.ready ⟨200, respHeaders, ⟨data' ++ [.eof], trailers'⟩⟩)]⟩)) =
                .ok (answers', fut') ∧
              Run.Pauses (.ok .notReady) answers'
                [.ok (.ready ⟨respHeaders, (respond ⟨headers, request.message⟩).message⟩)] := by
  obtain ⟨headers, hreq, -, -, -⟩ :=
    Client.Grpc.streaming_ok (request.map Client.Grpc.once) path
  refine ⟨headers, hreq, fun data trailers k hdel hk => ?_⟩
  -- the request the service sees, and its reply
  let req : Request α := ⟨headers, request.message⟩
  -- the server reads the message and calls the service once, which answers after its pauses
  obtain ⟨fut', hfut⟩ := hsvc req
  obtain ⟨answers, n, hrun, hinner⟩ := request_served hdec hx.2 hdel trailers hk
    (Unary.Inner.call callUnary) (Unary.InnerFuture.poll pollUnary) ⟨inner⟩ headers
    (runFuture_wrap_settles pollUnary hfut)
  -- the response future answers what `Inner` answered, the reply over its `Once` stream
  obtain ⟨respHeaders, hresp, -, hother⟩ := Server.ResponseFuture.run_ready hct (n + wait req)
    (Response.map Unary.Once.events (Unary.Once.map (respond req))) [] encR
  -- its body sends the reply's frame, then ends
  have hys : ∀ y ∈ [(respond req).message], (encR y).2 = none ∧ (encR y).1.length < 2 ^ 32 := by
    simpa using hreply req
  obtain ⟨body, hbody⟩ := runData_items encR hys .server
  -- the client reads the reply, its headers holding no status
  have hnone : fromHeaderMap respHeaders = none := fromHeaderMap_none_of_agree hother (hmeta req)
  refine ⟨answers, n, _, _, respHeaders, body, hrun, hinner, rfl, ?_, hother, hbody,
    fun data' trailers' k' hdel' hk' =>
      unary_reads hdecR hnone 200 (hreply req).2 hdel' trailers' hk'⟩
  rw [List.map_append, List.map_replicate]
  exact hresp

theorem unary_call_echo :
    ∃ headers,
      Client.Grpc.unary ⟨Multimap.empty, (7 : UInt8)⟩ "/echo.Echo/Say" =
        .ok ⟨"/echo.Echo/Say", headers, Encode.request (Client.Grpc.once 7)⟩ ∧
      ∀ (data : List DataEvent) (trailers : List (Poll (Option HeaderMap) Status)) (k : Nat),
        Delivery data (frames byteEnc [7]) → pauseCount data + 2 ≤ k →
        ∃ answers n outs s' respHeaders body,
          Streaming.pollN byteDec k (Streaming.new .request) ⟨data ++ [.eof], trailers⟩ =
            .ok answers ∧
          ServerStreaming.run
              (Unary.Inner.call fun (t : Unit) (r : Request UInt8) =>
                (t, (⟨Multimap.empty, r.message⟩ : Response UInt8)))
              (Unary.InnerFuture.poll fun (f : Response UInt8) =>
                ((.ok (.ready f) : Poll (Response UInt8) Status), f))
              (n + (0 + 1)) (Unary.new () ⟨headers, answers.map StreamEvent.ofPoll⟩) =
            .ok (outs, s') ∧
          s'.calls = [⟨headers, 7⟩] ∧
          Server.ResponseFuture.run "application/grpc+proto" (n + 0 + 1)
              (Server.ResponseFuture.new
                (outs.map (Except.map (Async.map (Response.map Unary.Once.events)))) byteEnc) =
            .ok (List.replicate (n + 0) .notReady ++
              [.ready ⟨200, respHeaders, Encode.response [.item 7, .done]⟩], ⟨[], none⟩) ∧
          (∀ other, NameNe other contentTypeHeader →
            respHeaders.getStr (asBytes other) = HeaderMap.getStr Multimap.empty (asBytes other)) ∧
          Encode.runData byteEnc 2 (Encode.response [.item 7, .done]) =
            .ok ([.ok (.ready (some ((frame [7]).map some))), .ok (.ready none)], body) ∧
          ∀ (data' : List DataEvent) (trailers' : List (Poll (Option HeaderMap) Status))
            (k' : Nat),
            Delivery data' (frames byteEnc [7]) → pauseCount data' + 1 ≤ k' →
            ∃ answers' fut',
              Run.run (Client.Unary.ResponseFuture.poll byteDec) settled k'
                  (Client.Unary.ResponseFuture.new (Client.ClientStreaming.ResponseFuture.new
                    ⟨[.ok (.ready ⟨200, respHeaders, ⟨data' ++ [.eof], trailers'⟩⟩)]⟩)) =
                .ok (answers', fut') ∧
              Run.Pauses (.ok .notReady) answers' [.ok (.ready ⟨respHeaders, 7⟩)] :=
  unary_call
    (fun (t : Unit) (r : Request UInt8) => (t, (⟨Multimap.empty, r.message⟩ : Response UInt8)))
    (fun (f : Response UInt8) => ((.ok (.ready f) : Poll (Response UInt8) Status), f))
    byteDec_reads byteDec_reads ⟨Multimap.empty, 7⟩ (by decide) "/echo.Echo/Say" (by decide) ()
    (fun _ => 0) (fun r => ⟨Multimap.empty, r.message⟩) (fun _ => ⟨_, rfl⟩)
    (fun r => ⟨rfl, by simp [byteEnc]⟩) (fun _ => fromHeaderMap_empty)

/-- A unary call whose service fails, end to end: the server answers with the failure as the
headers of an empty response, and the client's unary future fails with that status. -/
theorem unary_call_fails (hdec : Reads enc dec) (request : Request α)
    (hx : (enc request.message).2 = none ∧ (enc request.message).1.length < 2 ^ 32)
    (path : String) {contentType : String}
    (hct : (asBytes contentType).all HeaderValue.isVisibleAscii = true) (inner : T)
    (wait : Request α → Nat) (fail : Request α → Status)
    (hsvc : ∀ req, ∃ fut', runFuture pollUnary (wait req + 1) (callUnary inner req).2 =
      .ok (List.replicate (wait req) (.ok .notReady) ++ [.error (fail req)], fut'))
    (hcode : ∀ req, (fail req).code ≠ .nonExhaustive) (hok : ∀ req, (fail req).code ≠ .ok)
    (hdet : ∀ req, ∀ b ∈ (fail req).details, HeaderValue.isValid b)
    (hpct : ∀ req, 37 ∉ asBytes (fail req).message) (encR : Encoder β) (decR : Decoder β) :
    ∃ headers,
      Client.Grpc.unary request path =
        .ok ⟨path, headers, Encode.request (Client.Grpc.once request.message)⟩ ∧
      ∀ (data : List DataEvent) (trailers : List (Poll (Option HeaderMap) Status)) (k : Nat),
        Delivery data (frames enc [request.message]) → pauseCount data + 2 ≤ k →
        ∃ answers n outs s' respHeaders,
          Streaming.pollN dec k (Streaming.new .request) ⟨data ++ [.eof], trailers⟩ =
            .ok answers ∧
          ServerStreaming.run (Unary.Inner.call callUnary) (Unary.InnerFuture.poll pollUnary)
              (n + (wait ⟨headers, request.message⟩ + 1))
              (Unary.new inner ⟨headers, answers.map StreamEvent.ofPoll⟩) = .ok (outs, s') ∧
          s'.calls = [⟨headers, request.message⟩] ∧
          Server.ResponseFuture.run contentType (n + wait ⟨headers, request.message⟩ + 1)
              (Server.ResponseFuture.new
                (outs.map (Except.map (Async.map (Response.map Unary.Once.events)))) encR) =
            .ok (List.replicate (n + wait ⟨headers, request.message⟩) .notReady ++
              [.ready ⟨200, respHeaders, Encode.empty⟩], ⟨[], some encR⟩) ∧
          ∀ (body : Body) (k' : Nat),
            Run.run (Client.Unary.ResponseFuture.poll decR) settled (k' + 1)
                (Client.Unary.ResponseFuture.new (Client.ClientStreaming.ResponseFuture.new
                  ⟨[.ok (.ready ⟨200, respHeaders, body⟩)]⟩)) =
              .ok ([.error (fail ⟨headers, request.message⟩)], ⟨⟨.waitResponse ⟨[]⟩⟩⟩) := by
  obtain ⟨headers, hreq, -, -, -⟩ :=
    Client.Grpc.streaming_ok (request.map Client.Grpc.once) path
  refine ⟨headers, hreq, fun data trailers k hdel hk => ?_⟩
  let req : Request α := ⟨headers, request.message⟩
  -- the server reads the message and calls the service once, which fails after its pauses
  obtain ⟨fut', hfut⟩ := hsvc req
  obtain ⟨answers, n, hrun, hinner⟩ := request_served hdec hx.2 hdel trailers hk
    (Unary.Inner.call callUnary) (Unary.InnerFuture.poll pollUnary) ⟨inner⟩ headers
    (runFuture_wrap_settles pollUnary hfut)
  -- the response future answers the failure with the status as headers
  obtain ⟨respHeaders, hresp, hread⟩ :=
    Server.ResponseFuture.run_error hct (hcode req) (hdet req) (hpct req) (n + wait req) [] encR
  refine ⟨answers, n, _, _, respHeaders, hrun, hinner, rfl, ?_,
    fun body k' => unary_fails hread (hok req) 200 body k'⟩
  rw [List.map_append, List.map_replicate]
  exact hresp

theorem unary_call_fails_unavailable :
    ∃ headers,
      Client.Grpc.unary ⟨Multimap.empty, (7 : UInt8)⟩ "/echo.Echo/Say" =
        .ok ⟨"/echo.Echo/Say", headers, Encode.request (Client.Grpc.once 7)⟩ ∧
      ∀ (data : List DataEvent) (trailers : List (Poll (Option HeaderMap) Status)) (k : Nat),
        Delivery data (frames byteEnc [7]) → pauseCount data + 2 ≤ k →
        ∃ answers n outs s' respHeaders,
          Streaming.pollN byteDec k (Streaming.new .request) ⟨data ++ [.eof], trailers⟩ =
            .ok answers ∧
          ServerStreaming.run (Unary.Inner.call fun (t : Unit) (_ : Request UInt8) => (t, ()))
              (Unary.InnerFuture.poll fun (f : Unit) =>
                ((.error ⟨.unavailable, "busy", []⟩ : Poll (Response UInt8) Status), f))
              (n + (0 + 1)) (Unary.new () ⟨headers, answers.map StreamEvent.ofPoll⟩) =
            .ok (outs, s') ∧
          s'.calls = [⟨headers, 7⟩] ∧
          Server.ResponseFuture.run "application/grpc+proto" (n + 0 + 1)
              (Server.ResponseFuture.new
                (outs.map (Except.map (Async.map (Response.map Unary.Once.events)))) byteEnc) =
            .ok (List.replicate (n + 0) .notReady ++
              [.ready ⟨200, respHeaders, Encode.empty⟩], ⟨[], some byteEnc⟩) ∧
          ∀ (body : Body) (k' : Nat),
            Run.run (Client.Unary.ResponseFuture.poll byteDec) settled (k' + 1)
                (Client.Unary.ResponseFuture.new (Client.ClientStreaming.ResponseFuture.new
                  ⟨[.ok (.ready ⟨200, respHeaders, body⟩)]⟩)) =
              .ok ([.error ⟨.unavailable, "busy", []⟩], ⟨⟨.waitResponse ⟨[]⟩⟩⟩) :=
  unary_call_fails (fun (t : Unit) (_ : Request UInt8) => (t, ()))
    (fun (f : Unit) => ((.error ⟨.unavailable, "busy", []⟩ : Poll (Response UInt8) Status), f))
    byteDec_reads ⟨Multimap.empty, 7⟩ (by decide) "/echo.Echo/Say" (by decide) ()
    (fun _ => 0) (fun _ => ⟨.unavailable, "busy", []⟩) (fun _ => ⟨_, rfl⟩) (fun _ => by decide)
    (fun _ => by decide) (fun _ => by simp) (fun _ => by decide) byteEnc byteDec

end Unary

end Call

end TowerGrpc
