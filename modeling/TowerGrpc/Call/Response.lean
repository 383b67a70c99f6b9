import TowerGrpc.Client
import TowerGrpc.Codec.Delivery
import TowerGrpc.Server.ServerStreaming

/-!
# A call's response, from the service to the client

The server's and the client's ends of one response, put together. The server's response
future answers the service's response with its metadata and the content type as headers and an
`Encode` body. The HTTP layer calls the body's `poll_data` until the end of the data, then its
`poll_trailers`, and hands the bytes and the trailers over to the client, in chunks and with
pauses of its own. The client's response future reads the headers, and its stream the body.

`streaming_response` says that this carries the service's stream across: the client reads the
items the service yielded, in order, and then ends the stream as the status that closed it
says, whatever the chunking and the pauses on the way. `error_response` says the same of a
service that fails outright: the client's response future fails with the service's status.
`unary_response` is the unary case: the client's unary future waits through the delivery's
pauses (`WaitsFor`, an invariant of its runs) and resolves with the message; `unary_reads` and
`unary_fails` are the client's last phase of a whole unary call.
-/

namespace TowerGrpc

open Rust Http Utf8 Status

namespace Call

variable {α : Type}

/-- How a response stream closes, with the status the server's trailers then report: its end,
with `Ok`; an error of the stream; an item the encoder fails on. -/
inductive Closes (enc : Encoder α) : StreamEvent α → Status → Prop
  | done : Closes enc .done (Status.new .ok "")
  | error (e : Status) : Closes enc (.error e) e
  | encodeError {x : α} {e : Status} : (enc x).2 = some e → Closes enc (.item x) e

/-- How a client ends a response stream whose trailers report `st`. -/
def outcome (st : Status) : Poll (Option α) Status :=
  if st.code = .ok then .ok (.ready none) else .error st

/-- The body a client receives: the data's answers, the end of the data, and the trailers
after `m` pauses. -/
def received (data : List DataEvent) (m : Nat) (trailers : HeaderMap)
    (rest : List (Poll (Option HeaderMap) Status)) : Body :=
  ⟨data ++ [.eof], List.replicate m (.ok .notReady) ++ .ok (.ready (some trailers)) :: rest⟩

/-! ## The server's body -/

section Server

variable {enc : Encoder α}

/-- The event that closes the stream ends the body's data, and the body keeps for its
trailers the status the stream closed with. -/
theorem Closes.specStep {last : StreamEvent α} {st : Status} (h : Closes enc last st)
    (more : List (StreamEvent α)) :
    ∃ inner', Encode.specStep enc .server (.ok (last :: more)) =
        .ok (.ok (.ready none), inner') ∧
      ∀ buf, Encode.pollTrailers ⟨inner', buf, .server⟩ =
        Encode.trailersOf <$> st.toHeaderMap := by
  cases h with
  | done => exact ⟨.ok more, rfl, fun _ => rfl⟩
  | error => exact ⟨.err _, rfl, fun _ => rfl⟩
  | encodeError hx =>
    exact ⟨.err _, by simp [Encode.specStep, hx, Encode.failWith], fun _ => rfl⟩

/-- The server's body over a stream that yields the items `xs` with pauses between them and
then closes: its `poll_data` calls send the frames of the items with a pause for each of the
stream's, then the end of the data; its trailers report the status the stream closed with. -/
theorem runData_closes {xs : List α}
    (hxs : ∀ x ∈ xs, (enc x).2 = none ∧ (enc x).1.length < 2 ^ 32)
    {evs : List (StreamEvent α)} (hevs : Run.Pauses .notReady evs (xs.map .item))
    {last : StreamEvent α} {st : Status} (hlast : Closes enc last st)
    (more : List (StreamEvent α)) :
    ∃ sent body, Encode.runData enc (evs.length + 1) (Encode.response (evs ++ last :: more)) =
        .ok (sent, body) ∧
      Run.Pauses (.ok .notReady) sent
        (xs.map (fun x => .ok (.ready (some ((frame (enc x).1).map some)))) ++
          [.ok (.ready none)]) ∧
      Encode.pollTrailers body = Encode.trailersOf <$> st.toHeaderMap := by
  obtain ⟨inner', hstep, htr⟩ := hlast.specStep more
  obtain ⟨sent, ⟨inner'', buf, role⟩, hrun, hsent, hinner, hrole⟩ :=
    Encode.runData_pauses enc .server hxs hevs hstep
  dsimp only at hinner hrole
  subst hinner hrole
  exact ⟨sent, _, hrun, hsent, htr buf⟩

/-- The server adds only the content type to the metadata: headers that agree on every other
name with metadata that hold no status hold none either. -/
theorem fromHeaderMap_none_of_agree {headers metadata : HeaderMap}
    (hother : ∀ other, NameNe other contentTypeHeader →
      headers.getStr (asBytes other) = metadata.getStr (asBytes other))
    (hmeta : fromHeaderMap metadata = none) : fromHeaderMap headers = none := by
  rw [fromHeaderMap_eq_none, hother grpcStatusHeaderCode (nameNe_of_map_ne (by decide))]
  exact fromHeaderMap_eq_none.mp hmeta

end Server

/-! ## The client's read -/

section Client

variable {enc : Encoder α} {dec : Decoder α}

/-- A client that receives a response whose headers hold no status reads its body as a
response stream. Over any delivery of the frames of `xs`, with trailers that hold the status
`st` after any pauses, it reads the items, pausing where the delivery does, and then ends as
`st` says. -/
theorem client_reads (hdec : Reads enc dec) {xs : List α}
    (hfit : ∀ x ∈ xs, (enc x).1.length < 2 ^ 32) {headers : HeaderMap}
    (hnone : fromHeaderMap headers = none) {trailers : HeaderMap} {st : Status}
    (hst : fromHeaderMap trailers = some st) {data : List DataEvent}
    (hdel : Delivery data (frames enc xs)) (m : Nat) (rest : List (Poll (Option HeaderMap) Status))
    {k : Nat} (hk : pauseCount data + m + xs.length + 1 ≤ k) :
    ∃ answers,
      Client.Streaming.ResponseFuture.poll
          ⟨[.ok (.ready ⟨200, headers, received data m trailers rest⟩)]⟩ =
        (.ok (.ready ⟨headers, (Streaming.new (.response 200),
          received data m trailers rest)⟩), ⟨[]⟩) ∧
      Streaming.pollN dec k (Streaming.new (.response 200)) (received data m trailers rest) =
        .ok answers ∧
      Run.Pauses (.ok .notReady) answers
        (xs.map (fun x => .ok (.ready (some x))) ++ [outcome st]) := by
  -- the trailers settle the call by the status they hold
  have hend : Streaming.EndsWith (.response 200) (received data m trailers rest).trailers m
      (outcome (α := α) st) := by
    refine ⟨some trailers, rest, rfl, ?_⟩
    rw [inferGrpcStatus_of_fromHeaderMap hst]
    by_cases hok : st.code = .ok <;> simp [outcome, hok]
  obtain ⟨answers, hrun, hp⟩ := Streaming.pollN_delivery hdec hfit hdel hend hk
  have hfut := Client.Streaming.ResponseFuture.poll_of_none
    ⟨200, headers, received data m trailers rest⟩ hnone []
  exact ⟨answers, hfut, hrun, hp⟩

end Client

/-! ## The response, end to end -/

section Call

variable {enc : Encoder α} {dec : Decoder α}

/-- A service's streaming response, from the server to the client. The server answers it with
headers that hold no status; the body's `poll_data` calls send the frames of the stream's items,
pausing where the stream does, and its trailers carry the status the stream closed with. A
client that receives those bytes in any non-empty chunks with any pauses, and then those
trailers after any pauses, reads the items in order, pausing where the delivery does, and then
ends as that status says: `Ready(None)` for `Ok`, the status itself as the error otherwise. -/
theorem streaming_response (hdec : Reads enc dec) {contentType : String}
    (hct : (asBytes contentType).all HeaderValue.isVisibleAscii = true)
    {metadata : HeaderMap} (hmeta : fromHeaderMap metadata = none)
    (xs : List α) (hxs : ∀ x ∈ xs, (enc x).2 = none ∧ (enc x).1.length < 2 ^ 32)
    (evs : List (StreamEvent α)) (hevs : Run.Pauses .notReady evs (xs.map .item))
    {last : StreamEvent α} {st : Status} (hlast : Closes enc last st)
    (hcode : st.code ≠ .nonExhaustive) (hdet : ∀ b ∈ st.details, HeaderValue.isValid b)
    (hpct : 37 ∉ asBytes st.message) (more : List (StreamEvent α))
    (inner : List (Poll (Response (List (StreamEvent α))) Status)) :
    ∃ headers sent body trailers,
      Server.ResponseFuture.poll contentType
          ⟨.ok (.ready ⟨metadata, evs ++ last :: more⟩) :: inner, some enc⟩ =
        .ok (.ready ⟨200, headers, Encode.response (evs ++ last :: more)⟩,
          ⟨inner, none⟩) ∧
      Encode.runData enc (evs.length + 1) (Encode.response (evs ++ last :: more)) =
        .ok (sent, body) ∧
      Run.Pauses (.ok .notReady) sent
        (xs.map (fun x => .ok (.ready (some ((frame (enc x).1).map some)))) ++
          [.ok (.ready none)]) ∧
      Encode.pollTrailers body = .ok (.ok (.ready (some trailers))) ∧
      ∀ (data : List DataEvent) (m : Nat) (rest : List (Poll (Option HeaderMap) Status))
        (k : Nat),
        Delivery data (frames enc xs) → pauseCount data + m + xs.length + 1 ≤ k →
        ∃ answers,
          Client.Streaming.ResponseFuture.poll
              ⟨[.ok (.ready ⟨200, headers, received data m trailers rest⟩)]⟩ =
            (.ok (.ready ⟨headers, (Streaming.new (.response 200),
              received data m trailers rest)⟩), ⟨[]⟩) ∧
          Streaming.pollN dec k (Streaming.new (.response 200)) (received data m trailers rest) =
            .ok answers ∧
          Run.Pauses (.ok .notReady) answers
            (xs.map (fun x => .ok (.ready (some x))) ++ [outcome st]) := by
  obtain ⟨headers, hpoll, -, hother⟩ := Server.ResponseFuture.poll_ready inner hct
    ⟨metadata, evs ++ last :: more⟩ enc
  obtain ⟨sent, body, hrun, hsent, htr⟩ := runData_closes hxs hevs hlast more
  obtain ⟨trailers, hmap, hread⟩ := toHeaderMap_read hcode hdet hpct
  refine ⟨headers, sent, body, trailers, hpoll, hrun, hsent, by rw [htr, hmap]; rfl, ?_⟩
  intro data m rest k hdel hk
  exact client_reads hdec (fun x hx => (hxs x hx).2) (fromHeaderMap_none_of_agree hother hmeta)
    hread hdel m rest hk

theorem streaming_response_byte :
    ∃ headers sent body trailers,
      Server.ResponseFuture.poll "application/grpc+proto"
          ⟨[.ok (.ready ⟨Multimap.empty, [.notReady, .item 7, .done]⟩)], some byteEnc⟩ =
        .ok (.ready ⟨200, headers, Encode.response [.notReady, .item 7, .done]⟩,
          ⟨[], none⟩) ∧
      Encode.runData byteEnc 3 (Encode.response [.notReady, .item 7, .done]) =
        .ok (sent, body) ∧
      Run.Pauses (.ok .notReady) sent
        [.ok (.ready (some ((frame [7]).map some))), .ok (.ready none)] ∧
      Encode.pollTrailers body = .ok (.ok (.ready (some trailers))) ∧
      ∀ (data : List DataEvent) (m : Nat) (rest : List (Poll (Option HeaderMap) Status))
        (k : Nat),
        Delivery data (frames byteEnc [7]) → pauseCount data + m + 1 + 1 ≤ k →
        ∃ answers,
          Client.Streaming.ResponseFuture.poll
              ⟨[.ok (.ready ⟨200, headers, received data m trailers rest⟩)]⟩ =
            (.ok (.ready ⟨headers, (Streaming.new (.response 200),
              received data m trailers rest)⟩), ⟨[]⟩) ∧
          Streaming.pollN byteDec k (Streaming.new (.response 200))
              (received data m trailers rest) = .ok answers ∧
          Run.Pauses (.ok .notReady) answers [.ok (.ready (some 7)), .ok (.ready none)] :=
  streaming_response byteDec_reads (by decide) fromHeaderMap_empty [7] (by simp [byteEnc])
    [.notReady, .item 7] (.pause (.keep .nil)) .done (by decide) (by simp [Status.new])
    (by decide) [] []

/-- A service that fails outright with a status whose code is not `Ok`: the server answers
with headers that carry the status, over an empty body, and the client's response future fails
with the same status, whatever body it receives. -/
theorem error_response {contentType : String}
    (hct : (asBytes contentType).all HeaderValue.isVisibleAscii = true) {e : Status}
    (hcode : e.code ≠ .nonExhaustive) (hok : e.code ≠ .ok)
    (hdet : ∀ b ∈ e.details, HeaderValue.isValid b) (hpct : 37 ∉ asBytes e.message)
    (inner : List (Poll (Response (List (StreamEvent α))) Status))
    (encoder : Option (Encoder α)) :
    ∃ headers, Server.ResponseFuture.poll contentType ⟨.error e :: inner, encoder⟩ =
        .ok (.ready ⟨200, headers, Encode.empty⟩, ⟨inner, encoder⟩) ∧
      ∀ body : Body,
        Client.Streaming.ResponseFuture.poll ⟨[.ok (.ready ⟨200, headers, body⟩)]⟩ =
          (.error e, ⟨[]⟩) := by
  obtain ⟨headers, hres, hread⟩ := statusResponse_read hct hcode hdet hpct (Encode.empty : Encode α)
  refine ⟨headers, by simp [Server.ResponseFuture.poll, hres], fun body => ?_⟩
  simp [Client.Streaming.ResponseFuture.poll, hread, hok]

theorem error_response_unavailable :
    ∃ headers, Server.ResponseFuture.poll "application/grpc+proto"
        ⟨[.error ⟨.unavailable, "busy", []⟩], (none : Option (Encoder Unit))⟩ =
        .ok (.ready ⟨200, headers, Encode.empty⟩, ⟨[], none⟩) ∧
      ∀ body : Body,
        Client.Streaming.ResponseFuture.poll ⟨[.ok (.ready ⟨200, headers, body⟩)]⟩ =
          (.error ⟨.unavailable, "busy", []⟩, ⟨[]⟩) :=
  error_response (by decide) (by decide) (by decide) (by simp) (by decide) [] none

end Call

/-! ## A unary call's response -/

section Unary

variable {enc : Encoder α} {dec : Decoder α}

theorem pollMessage_notReady (head : Option (Http.Response Unit)) {s s' : Streaming}
    {b b' : Body} (h : Streaming.poll dec s b = .ok (.ok .notReady, s', b')) :
    Client.ClientStreaming.ResponseFuture.pollMessage dec head s b =
      .ok (.ok .notReady, ⟨.waitMessage head s' b'⟩) := by
  simp only [Client.ClientStreaming.ResponseFuture.pollMessage, h]
  rfl

/-- Where a unary future is while it waits for the message `x`: it keeps the response's head,
and its stream has the frames of `x` and more items still to read from a delivery whose pauses
`n` counts. The trailers are never read. -/
def WaitsFor (enc : Encoder α) (head : Http.Response Unit) (x : α)
    (out : List (Poll (Response α) Status)) (n : Nat) (fut : Client.Unary.ResponseFuture) :
    Prop :=
  out = [.ok (.ready ⟨head.headers, x⟩)] ∧
    ∃ s evs ts xs w, fut = ⟨⟨.waitMessage (some head) s ⟨evs ++ [.eof], ts⟩⟩⟩ ∧
      Delivery evs w ∧ Streaming.Inv enc (x :: xs) s w ∧ n = pauseCount evs

/-- One poll of a waiting unary future: a pause of the delivery, or the message, with the
head's headers, which settles it. -/
theorem poll_waitsFor (hdec : Reads enc dec) {head : Http.Response Unit} {x : α}
    {out : List (Poll (Response α) Status)} {n : Nat} {fut : Client.Unary.ResponseFuture}
    (h : WaitsFor enc head x out n fut) :
    ∃ p fut', fut.poll dec = .ok (p, fut') ∧
      ((p = .ok .notReady ∧ ∃ n', n' < n ∧ WaitsFor enc head x out n' fut') ∨
        (∃ out', out = p :: out' ∧ (settled p = true ↔ out' = []) ∧
          (out' ≠ [] → ∃ n', n' ≤ n ∧ WaitsFor enc head x out' n' fut'))) := by
  obtain ⟨rfl, s, evs, ts, xs, w, rfl, hdel, hinv, rfl⟩ := h
  rcases Streaming.pollLoop_delivery hdec hdel hinv with
      ⟨x', xs', s', evs', w', hxs, hloop, -, -, -, -⟩ |
      ⟨s', evs', w', hloop, -, hdel', hinv', hp⟩ | ⟨hxs, -⟩
  · -- the message: the future resolves with it
    obtain ⟨rfl, -⟩ := List.cons.inj hxs
    have hmsg := Client.ClientStreaming.ResponseFuture.pollMessage_some dec head
      (Streaming.poll_of_ret (b := ⟨evs ++ [.eof], ts⟩) hloop)
    refine ⟨.ok (.ready ⟨head.headers, x⟩), ⟨⟨.waitMessage none s' ⟨evs' ++ [.eof], ts⟩⟩⟩, ?_,
      .inr ⟨[], rfl, by simp [settled], fun h => absurd rfl h⟩⟩
    simp only [Client.Unary.ResponseFuture.poll, Client.ClientStreaming.ResponseFuture.poll, hmsg]
    rfl
  · -- a pause of the delivery: the future waits on
    have hwait := pollMessage_notReady (some head)
      (Streaming.poll_of_ret (b := ⟨evs ++ [.eof], ts⟩) hloop)
    refine ⟨.ok .notReady, ⟨⟨.waitMessage (some head) s' ⟨evs' ++ [.eof], ts⟩⟩⟩, ?_,
      .inl ⟨rfl, pauseCount evs', by omega, rfl, s', evs', ts, xs, w', rfl, hdel', hinv', rfl⟩⟩
    simp only [Client.Unary.ResponseFuture.poll, Client.ClientStreaming.ResponseFuture.poll,
      hwait]
    rfl
  · exact absurd hxs (List.cons_ne_nil _ _)

/-- A waiting unary future, polled until it settles: a `NotReady` for each pause of the
delivery, then the message. -/
theorem run_waitsFor (hdec : Reads enc dec) {head : Http.Response Unit} {x : α} {n : Nat}
    {fut : Client.Unary.ResponseFuture}
    (h : WaitsFor enc head x [.ok (.ready ⟨head.headers, x⟩)] n fut) {k : Nat}
    (hk : n + 1 ≤ k) :
    ∃ answers fut', Run.run (Client.Unary.ResponseFuture.poll dec) settled k fut =
        .ok (answers, fut') ∧
      Run.Pauses (.ok .notReady) answers [.ok (.ready ⟨head.headers, x⟩)] :=
  Run.run_pauses (.ok .notReady) (WaitsFor enc head x) rfl
    (fun _ _ _ hs _ => poll_waitsFor hdec hs) h (List.cons_ne_nil _ _) hk

/-- A unary future over a response whose headers hold no status, and whose body delivers the
frame of `y` in any non-empty chunks with any pauses, answers `NotReady` for each pause and
then the message, with the headers as its metadata, whatever the trailers. -/
theorem unary_reads (hdec : Reads enc dec) {headers : HeaderMap}
    (hnone : fromHeaderMap headers = none) (status : Nat) {y : α}
    (hfit : (enc y).1.length < 2 ^ 32) {data : List DataEvent}
    (hdel : Delivery data (frames enc [y])) (trailers : List (Poll (Option HeaderMap) Status))
    {k : Nat} (hk : pauseCount data + 1 ≤ k) :
    ∃ answers fut',
      Run.run (Client.Unary.ResponseFuture.poll dec) settled k
          (Client.Unary.ResponseFuture.new (Client.ClientStreaming.ResponseFuture.new
            ⟨[.ok (.ready ⟨status, headers, ⟨data ++ [.eof], trailers⟩⟩)]⟩)) =
        .ok (answers, fut') ∧
      Run.Pauses (.ok .notReady) answers [.ok (.ready ⟨headers, y⟩)] := by
  obtain ⟨k, rfl⟩ : ∃ k', k = k' + 1 := ⟨k - 1, by omega⟩
  -- the first poll takes the response and reads the stream as every later poll does
  have hfut := Client.Streaming.ResponseFuture.poll_of_none
    ⟨status, headers, ⟨data ++ [.eof], trailers⟩⟩ hnone []
  have hfirst := Client.ClientStreaming.ResponseFuture.poll_waitResponse_ready dec hfut
  have hinv : Streaming.Inv enc [y] (Streaming.new (.response status)) (frames enc [y]) :=
    Streaming.inv_frames (by simpa using hfit) (.response status)
  have hwait : WaitsFor enc ⟨200, headers, ()⟩ y [.ok (.ready ⟨headers, y⟩)] (pauseCount data)
      ⟨⟨.waitMessage (some ⟨200, headers, ()⟩) (Streaming.new (.response status))
        ⟨data ++ [.eof], trailers⟩⟩⟩ :=
    ⟨rfl, _, data, trailers, [], _, rfl, hdel, hinv, rfl⟩
  have hsame : Client.Unary.ResponseFuture.poll dec (Client.Unary.ResponseFuture.new
      (Client.ClientStreaming.ResponseFuture.new
        ⟨[.ok (.ready ⟨status, headers, ⟨data ++ [.eof], trailers⟩⟩)]⟩)) =
      Client.Unary.ResponseFuture.poll dec ⟨⟨.waitMessage (some ⟨200, headers, ()⟩)
        (Streaming.new (.response status)) ⟨data ++ [.eof], trailers⟩⟩⟩ := by
    simp only [Client.Unary.ResponseFuture.poll, Client.Unary.ResponseFuture.new,
      Client.ClientStreaming.ResponseFuture.new, hfirst]
    rfl
  rw [Run.run_succ_congr hsame]
  exact run_waitsFor hdec hwait hk

/-- A unary future over a response whose headers hold a status other than `Ok` fails with it at
the first poll, without reading the body. -/
theorem unary_fails {headers : HeaderMap} {e : Status} (hread : fromHeaderMap headers = some e)
    (hok : e.code ≠ .ok) (status : Nat) (body : Body) (k : Nat) :
    Run.run (Client.Unary.ResponseFuture.poll dec) settled (k + 1)
        (Client.Unary.ResponseFuture.new (Client.ClientStreaming.ResponseFuture.new
          ⟨[.ok (.ready ⟨status, headers, body⟩)]⟩)) =
      .ok ([.error e], ⟨⟨.waitResponse ⟨[]⟩⟩⟩) := by
  have hfut : Client.Streaming.ResponseFuture.poll ⟨[.ok (.ready ⟨status, headers, body⟩)]⟩ =
      (.error e, ⟨[]⟩) := by
    simp [Client.Streaming.ResponseFuture.poll, hread, hok]
  refine Run.run_succ_of_stop ?_ rfl
  simp only [Client.Unary.ResponseFuture.poll, Client.Unary.ResponseFuture.new,
    Client.ClientStreaming.ResponseFuture.new, Client.ClientStreaming.ResponseFuture.poll, hfut]
  rfl

/-- A unary service's response, from the server to the client's unary future. The server
answers it with headers that hold no status and a body whose data is the frame of the
message. A unary future whose response has those headers and a body that delivers that frame
in any non-empty chunks with any pauses resolves with the message and the headers as its
metadata, after a `NotReady` for each pause, whatever the trailers. -/
theorem unary_response (hdec : Reads enc dec) {contentType : String}
    (hct : (asBytes contentType).all HeaderValue.isVisibleAscii = true)
    {metadata : HeaderMap} (hmeta : fromHeaderMap metadata = none) (y : α)
    (hy : (enc y).2 = none ∧ (enc y).1.length < 2 ^ 32)
    (inner : List (Poll (Response (List (StreamEvent α))) Status)) :
    ∃ headers body,
      Server.ResponseFuture.poll contentType
          ⟨.ok (.ready ⟨metadata, [.item y, .done]⟩) :: inner, some enc⟩ =
        .ok (.ready ⟨200, headers, Encode.response [.item y, .done]⟩, ⟨inner, none⟩) ∧
      Encode.runData enc 2 (Encode.response [.item y, .done]) =
        .ok ([.ok (.ready (some ((frame (enc y).1).map some))), .ok (.ready none)], body) ∧
      ∀ (data : List DataEvent) (trailers : List (Poll (Option HeaderMap) Status)) (k : Nat),
        Delivery data (frames enc [y]) → pauseCount data + 1 ≤ k →
        ∃ answers fut',
          Run.run (Client.Unary.ResponseFuture.poll dec) settled k
              (Client.Unary.ResponseFuture.new (Client.ClientStreaming.ResponseFuture.new
                ⟨[.ok (.ready ⟨200, headers, ⟨data ++ [.eof], trailers⟩⟩)]⟩)) =
            .ok (answers, fut') ∧
          Run.Pauses (.ok .notReady) answers [.ok (.ready ⟨headers, y⟩)] := by
  obtain ⟨headers, hpoll, -, hother⟩ := Server.ResponseFuture.poll_ready inner hct
    ⟨metadata, [.item y, .done]⟩ enc
  have hys : ∀ x ∈ [y], (enc x).2 = none ∧ (enc x).1.length < 2 ^ 32 := by simpa using hy
  obtain ⟨body, hrun⟩ := runData_items enc hys .server
  have hnone : fromHeaderMap headers = none := fromHeaderMap_none_of_agree hother hmeta
  exact ⟨headers, body, hpoll, hrun, fun data trailers k hdel hk =>
    unary_reads hdec hnone 200 hy.2 hdel trailers hk⟩

theorem unary_response_byte :
    ∃ headers body,
      Server.ResponseFuture.poll "application/grpc+proto"
          ⟨[.ok (.ready ⟨Multimap.empty, [.item (7 : UInt8), .done]⟩)], some byteEnc⟩ =
        .ok (.ready ⟨200, headers, Encode.response [.item 7, .done]⟩, ⟨[], none⟩) ∧
      Encode.runData byteEnc 2 (Encode.response [.item 7, .done]) =
        .ok ([.ok (.ready (some ((frame [7]).map some))), .ok (.ready none)], body) ∧
      ∀ (data : List DataEvent) (trailers : List (Poll (Option HeaderMap) Status)) (k : Nat),
        Delivery data (frames byteEnc [7]) → pauseCount data + 1 ≤ k →
        ∃ answers fut',
          Run.run (Client.Unary.ResponseFuture.poll byteDec) settled k
              (Client.Unary.ResponseFuture.new (Client.ClientStreaming.ResponseFuture.new
                ⟨[.ok (.ready ⟨200, headers, ⟨data ++ [.eof], trailers⟩⟩)]⟩)) =
            .ok (answers, fut') ∧
          Run.Pauses (.ok .notReady) answers [.ok (.ready ⟨headers, 7⟩)] :=
  unary_response byteDec_reads (by decide) fromHeaderMap_empty 7 (by decide) []

end Unary

end Call

end TowerGrpc
