import TowerGrpc.Codec.Encode

/-!
# The server's response futures

`crate::Response` and the two futures that turn a service's outcome into an `http::Response`.
`generic::server::streaming::ResponseFuture` answers a service's response with its metadata as
headers, the codec's content type, and the message stream framed by `Encode::response`; it
answers a service's error with the content type and the status as headers over
`Encode::empty`, `unwrap`ping `add_header`. `unimplemented::ResponseFuture` answers once with
an `Unimplemented` status, `expect`ing `add_header`.

`add_header` fails only on details that are not valid header bytes (`addHeader_of_invalid`),
which no status the crate's API builds holds (`Status.Reachable`). So both futures answer every
outcome of the service without panicking: a poll that meets the service's outcome answers it
(`poll_ready`, `poll_error_of_valid`), after a `NotReady` for each of the service's
(`run_settles`).
-/

namespace TowerGrpc

open Rust Http Utf8 Status

/-- `crate::Response`: a message and its metadata, kept as the header map a `MetadataMap`
wraps. -/
structure Response (α : Type) where
  metadata : HeaderMap
  message : α

namespace Response

variable {α : Type}

def new (message : α) : Response α := ⟨Multimap.empty, message⟩

/-- `Response::into_http`: the metadata become the headers. -/
def intoHttp (r : Response α) : Http.Response α := ⟨200, r.metadata, r.message⟩

/-- `Response::from_http`. -/
def fromHttp (r : Http.Response α) : Response α := ⟨r.headers, r.body⟩

end Response

/-- `header::CONTENT_TYPE`. -/
def contentTypeHeader : String := "content-type"

/-- `headers_mut().insert(header::CONTENT_TYPE, HeaderValue::from_static(contentType))`. -/
def insertContentType (m : HeaderMap) (contentType : String) : M HeaderMap := do
  m.insertStatic contentTypeHeader (← HeaderValue.fromStatic contentType)

/-- The response both futures make of a status: a new response over `body`, the content type,
and the status's headers, with the error of `add_header` `unwrap`ped (or `expect`ed). -/
def statusResponse {β : Type} (contentType : String) (status : Status) (body : β) :
    M (Http.Response β) := do
  let headers ← insertContentType (Http.Response.new body).headers contentType
  let (headers, r) ← status.addHeader headers
  match r with
  | .ok () => pure { Http.Response.new body with headers }
  | .error _ => .error .panic

/-! ## What the responses carry -/

section Headers

variable {contentType : String}

theorem contentTypeName_ok :
    (HeaderName.fromStatic (asBytes contentTypeHeader)).toBool = true := by
  decide

/-- A content type of visible ASCII is inserted, and every other name is left as it was. -/
theorem insertContentType_ok (hct : (asBytes contentType).all HeaderValue.isVisibleAscii = true)
    (m : HeaderMap) :
    ∃ m', insertContentType m contentType = .ok m' ∧
      m'.getStr (asBytes contentTypeHeader) = some ⟨asBytes contentType, false⟩ ∧
      ∀ other, NameNe other contentTypeHeader →
        m'.getStr (asBytes other) = m.getStr (asBytes other) := by
  obtain ⟨m', hm'⟩ := HeaderMap.insertStatic_ok (m := m) (v := ⟨asBytes contentType, false⟩)
    contentTypeName_ok
  refine ⟨m', by simp [insertContentType, HeaderValue.fromStatic_eq_ok hct, hm'],
    HeaderMap.getStr_insertStatic_self hm', fun other hother => ?_⟩
  exact HeaderMap.getStr_insertStatic_of_ne hm' hother

/-- A status whose details are valid header bytes makes a response with the content type,
the code, the message when there is one and the details when there are any. -/
theorem statusResponse_of_valid {β : Type}
    (hct : (asBytes contentType).all HeaderValue.isVisibleAscii = true) {status : Status}
    (hcode : status.code ≠ .nonExhaustive)
    (hdet : ∀ b ∈ status.details, HeaderValue.isValid b) (body : β) :
    ∃ m v, statusResponse contentType status body = .ok ⟨200, m, body⟩ ∧
      m.getStr (asBytes contentTypeHeader) = some ⟨asBytes contentType, false⟩ ∧
      m.getStr (asBytes grpcStatusHeaderCode) = some v ∧ Code.fromBytes v.bytes = status.code ∧
      m.getStr (asBytes grpcStatusMessageHeader) =
        (if !status.message.isEmpty then some ⟨messageBytes status.message, false⟩
          else none) ∧
      m.getStr (asBytes grpcStatusDetailsHeader) =
        (if !status.details.isEmpty then some ⟨status.details, false⟩ else none) := by
  obtain ⟨m₁, hm₁, hct₁, hother₁⟩ := insertContentType_ok hct Multimap.empty
  obtain ⟨m₂, v, hadd, hv, hc, hmsg, hdetL, hother₂⟩ := addHeader_of_valid hcode hdet m₁
  -- the grpc names were absent before `add_header`: the map held only the content type
  have hmsg₁ : m₁.getStr (asBytes grpcStatusMessageHeader) = none := by
    rw [hother₁ grpcStatusMessageHeader (nameNe_of_map_ne (by decide)), getStr_empty]
  have hdet₁ : m₁.getStr (asBytes grpcStatusDetailsHeader) = none := by
    rw [hother₁ grpcStatusDetailsHeader (nameNe_of_map_ne (by decide)), getStr_empty]
  refine ⟨m₂, v, ?_, ?_, hc, hv, ?_, ?_⟩
  · simp [statusResponse, Http.Response.new, hm₁, hadd]
  · rw [hother₂ contentTypeHeader (nameNe_of_map_ne (by decide)) (nameNe_of_map_ne (by decide))
      (nameNe_of_map_ne (by decide)), hct₁]
  · rw [hmsg, hmsg₁]
  · rw [hdetL, hdet₁]

/-- The headers of a status response read back as the status, when its message holds no `%`. -/
theorem statusResponse_read {β : Type}
    (hct : (asBytes contentType).all HeaderValue.isVisibleAscii = true) {status : Status}
    (hcode : status.code ≠ .nonExhaustive)
    (hdet : ∀ b ∈ status.details, HeaderValue.isValid b) (hpct : 37 ∉ asBytes status.message)
    (body : β) :
    ∃ m, statusResponse contentType status body = .ok ⟨200, m, body⟩ ∧
      fromHeaderMap m = some status := by
  obtain ⟨m, v, hres, -, hv, hc, hmsg, hdetL⟩ := statusResponse_of_valid hct hcode hdet body
  exact ⟨m, hres, fromHeaderMap_of_headers hpct hv hc hmsg hdetL⟩

end Headers

/-! ## `generic::server::streaming::ResponseFuture` -/

namespace Server

/-- The service's future, as its answers to successive polls (a future with no answer left
is not ready), and the encoder that the response takes. -/
structure ResponseFuture (α : Type) where
  inner : List (Poll (Response (List (StreamEvent α))) Status)
  encoder : Option (Encoder α)

namespace ResponseFuture

variable {α : Type}

def new (inner : List (Poll (Response (List (StreamEvent α))) Status)) (encoder : Encoder α) :
    ResponseFuture α :=
  ⟨inner, some encoder⟩

/-- `ResponseFuture::poll` for a codec whose `CONTENT_TYPE` is `contentType`. The body's
encoder is the one `pollData` is given; the future keeps only whether it was taken. -/
def poll (contentType : String) (fut : ResponseFuture α) :
    M (Async (Http.Response (Encode α)) × ResponseFuture α) :=
  match fut.inner with
  | [] => pure (.notReady, fut)
  | .ok .notReady :: inner => pure (.notReady, { fut with inner })
  | .error status :: inner => do
    let response ← statusResponse contentType status Encode.empty
    pure (.ready response, { fut with inner })
  | .ok (.ready response) :: inner => do
    let response := response.intoHttp
    let headers ← insertContentType response.headers contentType
    match fut.encoder with
    -- `self.encoder.take().expect("encoder consumed")`
    | none => .error .panic
    | some _ => pure (.ready { response with headers, body := Encode.response response.body },
        ⟨inner, none⟩)

/-- Up to `k` polls, as an executor makes them: until the response is ready. -/
def run (contentType : String) (k : Nat) (fut : ResponseFuture α) :
    M (List (Async (Http.Response (Encode α))) × ResponseFuture α) :=
  Run.run (poll contentType) Async.isReady k fut

section Poll

variable {contentType : String} (inner : List (Poll (Response (List (StreamEvent α))) Status))
  (encoder : Option (Encoder α))

theorem poll_notReady :
    poll contentType ⟨.ok .notReady :: inner, encoder⟩ =
      .ok (.notReady, ⟨inner, encoder⟩) :=
  rfl

/-- A service's response is answered with its metadata and the content type as headers, and
its message stream as the body, in the server role. -/
theorem poll_ready (hct : (asBytes contentType).all HeaderValue.isVisibleAscii = true)
    (response : Response (List (StreamEvent α))) (enc : Encoder α) :
    ∃ headers, poll contentType ⟨.ok (.ready response) :: inner, some enc⟩ =
        .ok (.ready ⟨200, headers, Encode.response response.message⟩, ⟨inner, none⟩) ∧
      headers.getStr (asBytes contentTypeHeader) = some ⟨asBytes contentType, false⟩ ∧
      ∀ other, NameNe other contentTypeHeader →
        headers.getStr (asBytes other) = response.metadata.getStr (asBytes other) := by
  obtain ⟨headers, hins, hct', hother⟩ := insertContentType_ok hct response.metadata
  exact ⟨headers, by simp [poll, Response.intoHttp, hins], hct', hother⟩

/-- A service error whose details are valid header bytes is answered with an empty body and
headers that carry the content type and the status. -/
theorem poll_error_of_valid (hct : (asBytes contentType).all HeaderValue.isVisibleAscii = true)
    {status : Status} (hcode : status.code ≠ .nonExhaustive)
    (hdet : ∀ b ∈ status.details, HeaderValue.isValid b) :
    ∃ headers v, poll contentType ⟨.error status :: inner, encoder⟩ =
        .ok (.ready ⟨200, headers, Encode.empty⟩, ⟨inner, encoder⟩) ∧
      headers.getStr (asBytes contentTypeHeader) = some ⟨asBytes contentType, false⟩ ∧
      headers.getStr (asBytes grpcStatusHeaderCode) = some v ∧
      Code.fromBytes v.bytes = status.code := by
  obtain ⟨m, v, hres, hct', hv, hc, -, -⟩ :=
    statusResponse_of_valid hct hcode hdet (Encode.empty : Encode α)
  exact ⟨m, v, by simp [poll, hres], hct', hv, hc⟩

end Poll

/-- While the service is not ready, every poll answers `NotReady` and keeps the encoder. -/
theorem run_notReady (contentType : String) (n k : Nat)
    (inner : List (Poll (Response (List (StreamEvent α))) Status)) (enc : Encoder α) :
    run contentType (n + k) (new (List.replicate n (.ok .notReady) ++ inner) enc) =
      (fun r => (List.replicate n .notReady ++ r.1, r.2)) <$>
        run contentType k (new inner enc) := by
  induction n with
  | zero => simp
  | succ n ih =>
    rw [show n + 1 + k = n + k + 1 by omega, List.replicate_succ, List.cons_append, run, new,
      Run.run_succ_of_continue (poll_notReady _ _) rfl, ← new, ← run, ih]
    cases run contentType k (new inner enc) <;> rfl

/-- A service that settles after `n` pauses is answered on poll `n + 1`, as the poll that meets
its outcome answers. -/
theorem run_settles {contentType : String} (n : Nat)
    {outcome : Poll (Response (List (StreamEvent α))) Status}
    {rest : List (Poll (Response (List (StreamEvent α))) Status)} {enc : Encoder α}
    {response : Http.Response (Encode α)} {fut' : ResponseFuture α}
    (hpoll : poll contentType ⟨outcome :: rest, some enc⟩ = .ok (.ready response, fut')) :
    run contentType (n + 1) (new (List.replicate n (.ok .notReady) ++ outcome :: rest) enc) =
      .ok (List.replicate n .notReady ++ [.ready response], fut') := by
  rw [run_notReady, run, new, Run.run_one hpoll]
  rfl

/-- A service that answers a response after `n` pauses: the future answers `NotReady` for each
pause, then the response, with its metadata and the content type as headers and its message
stream as the body, and it gives the encoder up. -/
theorem run_ready {contentType : String}
    (hct : (asBytes contentType).all HeaderValue.isVisibleAscii = true) (n : Nat)
    (response : Response (List (StreamEvent α)))
    (rest : List (Poll (Response (List (StreamEvent α))) Status)) (enc : Encoder α) :
    ∃ headers, run contentType (n + 1)
        (new (List.replicate n (.ok .notReady) ++ .ok (.ready response) :: rest) enc) =
      .ok (List.replicate n .notReady ++ [.ready ⟨200, headers, Encode.response response.message⟩],
        ⟨rest, none⟩) ∧
      headers.getStr (asBytes contentTypeHeader) = some ⟨asBytes contentType, false⟩ ∧
      ∀ other, NameNe other contentTypeHeader →
        headers.getStr (asBytes other) = response.metadata.getStr (asBytes other) := by
  obtain ⟨headers, hpoll, hct', hother⟩ := poll_ready rest hct response enc
  exact ⟨headers, run_settles n hpoll, hct', hother⟩

/-- A service that fails after `n` pauses with a status the headers can carry: the future
answers `NotReady` for each pause, then a response over an empty body whose headers read back
as the status, and it keeps the encoder. -/
theorem run_error {contentType : String}
    (hct : (asBytes contentType).all HeaderValue.isVisibleAscii = true) {e : Status}
    (hcode : e.code ≠ .nonExhaustive) (hdet : ∀ b ∈ e.details, HeaderValue.isValid b)
    (hpct : 37 ∉ asBytes e.message) (n : Nat)
    (rest : List (Poll (Response (List (StreamEvent α))) Status)) (enc : Encoder α) :
    ∃ headers, run contentType (n + 1)
        (new (List.replicate n (.ok .notReady) ++ .error e :: rest) enc) =
      .ok (List.replicate n .notReady ++ [.ready ⟨200, headers, Encode.empty⟩],
        ⟨rest, some enc⟩) ∧
      fromHeaderMap headers = some e := by
  obtain ⟨headers, hres, hread⟩ := statusResponse_read hct hcode hdet hpct (Encode.empty : Encode α)
  have hpoll : poll contentType ⟨.error e :: rest, some enc⟩ =
      .ok (.ready ⟨200, headers, Encode.empty⟩, ⟨rest, some enc⟩) := by
    simp [poll, hres]
  exact ⟨headers, run_settles n hpoll, hread⟩

/-- A service that is not ready `n` times and then settles is answered on poll `n + 1`, once:
an error whose details are valid header bytes with the content type and the error's code over
an empty body, a response with the content type and its metadata over `Encode::response`. -/
theorem run_of_valid {contentType : String}
    (hct : (asBytes contentType).all HeaderValue.isVisibleAscii = true) (n : Nat)
    (rest : List (Poll (Response (List (StreamEvent α))) Status)) (enc : Encoder α) :
    (∀ status : Status, status.code ≠ .nonExhaustive →
      (∀ b ∈ status.details, HeaderValue.isValid b) →
      ∃ headers v, run contentType (n + 1)
          (new (List.replicate n (.ok .notReady) ++ .error status :: rest) enc) =
        .ok (List.replicate n .notReady ++ [.ready ⟨200, headers, Encode.empty⟩],
          ⟨rest, some enc⟩) ∧
        headers.getStr (asBytes contentTypeHeader) = some ⟨asBytes contentType, false⟩ ∧
        headers.getStr (asBytes grpcStatusHeaderCode) = some v ∧
        Code.fromBytes v.bytes = status.code) ∧
    ∀ response, ∃ headers, run contentType (n + 1)
        (new (List.replicate n (.ok .notReady) ++ .ok (.ready response) :: rest) enc) =
      .ok (List.replicate n .notReady ++
        [.ready ⟨200, headers, Encode.response response.message⟩], ⟨rest, none⟩) ∧
      headers.getStr (asBytes contentTypeHeader) = some ⟨asBytes contentType, false⟩ ∧
      ∀ other, NameNe other contentTypeHeader →
        headers.getStr (asBytes other) = response.metadata.getStr (asBytes other) := by
  refine ⟨fun status hcode hdet => ?_, fun response => run_ready hct n response rest enc⟩
  obtain ⟨headers, v, hpoll, hct', hv, hc⟩ := poll_error_of_valid rest (some enc) hct hcode hdet
  exact ⟨headers, v, run_settles n hpoll, hct', hv, hc⟩

theorem run_of_valid_unavailable :
    (asBytes "application/grpc+proto").all HeaderValue.isVisibleAscii = true ∧
    ∃ headers v, run "application/grpc+proto" (1 + 1)
        (new (List.replicate 1 (.ok .notReady) ++ .error ⟨.unavailable, "busy", []⟩ :: [])
          (fun _ : Unit => ([], none))) =
      .ok (List.replicate 1 .notReady ++ [.ready ⟨200, headers, Encode.empty⟩],
        ⟨[], some (fun _ => ([], none))⟩) ∧
      headers.getStr (asBytes contentTypeHeader) =
        some ⟨asBytes "application/grpc+proto", false⟩ ∧
      headers.getStr (asBytes grpcStatusHeaderCode) = some v ∧
      Code.fromBytes v.bytes = .unavailable :=
  ⟨by decide, (run_of_valid (by decide) 1 [] _).1 _ (by decide) (by simp)⟩

end ResponseFuture

end Server

/-! ## `unimplemented::ResponseFuture` -/

namespace Unimplemented

/-- The status to answer with, taken by the first poll. -/
structure ResponseFuture where
  status : Option Status

namespace ResponseFuture

def new (msg : String) : ResponseFuture := ⟨some (Status.new .unimplemented msg)⟩

/-- `ResponseFuture::poll`. -/
def poll (fut : ResponseFuture) : M (Async (Http.Response Unit) × ResponseFuture) :=
  match fut.status with
  -- `self.status.take().expect("polled after complete")`
  | none => .error .panic
  | some status => do
    let response ← statusResponse "application/grpc" status ()
    pure (.ready response, ⟨none⟩)

/-- Whatever the path, the first poll answers with content type `application/grpc`, code
`Unimplemented` and the path as the message. -/
theorem poll_new (msg : String) :
    ∃ headers v, (new msg).poll = .ok (.ready ⟨200, headers, ()⟩, ⟨none⟩) ∧
      headers.getStr (asBytes contentTypeHeader) = some ⟨asBytes "application/grpc", false⟩ ∧
      headers.getStr (asBytes grpcStatusHeaderCode) = some v ∧
      Code.fromBytes v.bytes = .unimplemented ∧
      headers.getStr (asBytes grpcStatusMessageHeader) =
        (if !msg.isEmpty then some ⟨messageBytes msg, false⟩ else none) := by
  have hct : (asBytes "application/grpc").all HeaderValue.isVisibleAscii = true := by
    decide
  have hcode : (Status.new .unimplemented msg).code ≠ .nonExhaustive := by simp [Status.new]
  obtain ⟨m, v, hres, hct, hv, hc, hmsg, -⟩ :=
    statusResponse_of_valid hct hcode (by simp [Status.new]) ()
  exact ⟨m, v, by simp [poll, new, hres], hct, hv, hc, hmsg⟩

end ResponseFuture

end Unimplemented

/-! ## Neither future panics -/

namespace Server

/-- Both server futures answer every outcome the service can produce: `add_header` accepts
every status the crate's API builds, so a service's error comes back as a response with the
content type and the error's code over an empty body, its response as one with the content
type over `Encode::response`, and an unknown path as the `Unimplemented` response. -/
theorem poll_answers_every_outcome {α : Type} {contentType : String}
    (hct : (asBytes contentType).all HeaderValue.isVisibleAscii = true)
    (inner : List (Poll (Response (List (StreamEvent α))) Status)) :
    (∀ status : Status, status.Reachable → status.code ≠ .nonExhaustive →
      (∀ m : HeaderMap, ∃ m', status.addHeader m = .ok (m', .ok ())) ∧
      ∀ encoder, ∃ headers v,
        ResponseFuture.poll contentType ⟨.error status :: inner, encoder⟩ =
          .ok (.ready ⟨200, headers, Encode.empty⟩, ⟨inner, encoder⟩) ∧
        headers.getStr (asBytes contentTypeHeader) = some ⟨asBytes contentType, false⟩ ∧
        headers.getStr (asBytes grpcStatusHeaderCode) = some v ∧
        Code.fromBytes v.bytes = status.code) ∧
    (∀ (response : Response (List (StreamEvent α))) (enc : Encoder α), ∃ headers,
      ResponseFuture.poll contentType ⟨.ok (.ready response) :: inner, some enc⟩ =
        .ok (.ready ⟨200, headers, Encode.response response.message⟩, ⟨inner, none⟩) ∧
      headers.getStr (asBytes contentTypeHeader) = some ⟨asBytes contentType, false⟩) ∧
    ∀ msg : String, ∃ response,
      (Unimplemented.ResponseFuture.new msg).poll = .ok (.ready response, ⟨none⟩) := by
  refine ⟨fun status hs hcode => ⟨fun m => ?_, fun encoder => ?_⟩, fun response enc => ?_,
    fun msg => ?_⟩
  · obtain ⟨m', -, hadd, -⟩ := addHeader_of_valid hcode hs.details_valid m
    exact ⟨m', hadd⟩
  · exact ResponseFuture.poll_error_of_valid inner encoder hct hcode hs.details_valid
  · obtain ⟨headers, hpoll, hct', -⟩ := ResponseFuture.poll_ready inner hct response enc
    exact ⟨headers, hpoll, hct'⟩
  · -- the unimplemented status is `Status::new`'s, and its content type a static one
    have hctU : (asBytes "application/grpc").all HeaderValue.isVisibleAscii = true := by decide
    have hcodeU : (Status.new .unimplemented msg).code ≠ .nonExhaustive := by simp [Status.new]
    obtain ⟨m, -, hres, -⟩ :=
      statusResponse_of_valid hctU hcodeU (Reachable.new .unimplemented msg).details_valid ()
    exact ⟨⟨200, m, ()⟩,
      by simp [Unimplemented.ResponseFuture.poll, Unimplemented.ResponseFuture.new, hres]⟩

theorem poll_answers_unavailable :
    (asBytes "application/grpc+proto").all HeaderValue.isVisibleAscii = true ∧
    (Status.new .unavailable "busy").Reachable ∧
    ∃ headers v, ResponseFuture.poll "application/grpc+proto"
        (⟨[.error (Status.new .unavailable "busy")], none⟩ : ResponseFuture Unit) =
        .ok (.ready ⟨200, headers, Encode.empty⟩, ⟨[], none⟩) ∧
      headers.getStr (asBytes contentTypeHeader) =
        some ⟨asBytes "application/grpc+proto", false⟩ ∧
      headers.getStr (asBytes grpcStatusHeaderCode) = some v ∧
      Code.fromBytes v.bytes = .unavailable :=
  ⟨by decide, .new _ _,
    ((poll_answers_every_outcome (by decide) []).1 _ (.new _ _) (by decide)).2 none⟩

end Server

end TowerGrpc
