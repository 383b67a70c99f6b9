import TowerGrpc.Http
import TowerGrpc.Lib.Percent

/-!
# gRPC statuses and their headers

`Status` and `Code` of `status.rs`. A status travels as up to three headers: `grpc-status`
holds the code as decimal text, `grpc-message` the message, written raw when none of its
bytes is in `DEFAULT_ENCODE_SET` and percent-encoded otherwise, and
`grpc-status-details-bin` the details bytes as they are. `from_header_map` reads them back,
percent-decoding the message; `infer_grpc_status` settles a call from its trailers or, when
they hold no status, from the HTTP status code.
-/

namespace TowerGrpc

open Rust Http Utf8

inductive Code where
  | ok | cancelled | unknown | invalidArgument | deadlineExceeded | notFound | alreadyExists
  | permissionDenied | resourceExhausted | failedPrecondition | aborted | outOfRange
  | unimplemented | internal | unavailable | dataLoss | unauthenticated
  | nonExhaustive
  deriving DecidableEq, Repr

namespace Code

/-- `Code::from_bytes`: the decimal text of a known code; anything else is `parse_err`,
that is `Unknown`. -/
def fromBytes : List UInt8 → Code
  | [48] => ok
  | [49] => cancelled
  | [50] => unknown
  | [51] => invalidArgument
  | [52] => deadlineExceeded
  | [53] => notFound
  | [54] => alreadyExists
  | [55] => permissionDenied
  | [56] => resourceExhausted
  | [57] => failedPrecondition
  | [49, 48] => aborted
  | [49, 49] => outOfRange
  | [49, 50] => unimplemented
  | [49, 51] => internal
  | [49, 52] => unavailable
  | [49, 53] => dataLoss
  | [49, 54] => unauthenticated
  | _ => unknown

/-- `Code::to_header_value`; `__NonExhaustive` is `unreachable!`. -/
def toHeaderValue : Code → M HeaderValue
  | ok => HeaderValue.fromStatic "0"
  | cancelled => HeaderValue.fromStatic "1"
  | unknown => HeaderValue.fromStatic "2"
  | invalidArgument => HeaderValue.fromStatic "3"
  | deadlineExceeded => HeaderValue.fromStatic "4"
  | notFound => HeaderValue.fromStatic "5"
  | alreadyExists => HeaderValue.fromStatic "6"
  | permissionDenied => HeaderValue.fromStatic "7"
  | resourceExhausted => HeaderValue.fromStatic "8"
  | failedPrecondition => HeaderValue.fromStatic "9"
  | aborted => HeaderValue.fromStatic "10"
  | outOfRange => HeaderValue.fromStatic "11"
  | unimplemented => HeaderValue.fromStatic "12"
  | internal => HeaderValue.fromStatic "13"
  | unavailable => HeaderValue.fromStatic "14"
  | dataLoss => HeaderValue.fromStatic "15"
  | unauthenticated => HeaderValue.fromStatic "16"
  | nonExhaustive => .error .panic

/-- Every code but `__NonExhaustive` is written as a header value that parses back to it. -/
theorem toHeaderValue_fromBytes {c : Code} (hc : c ≠ nonExhaustive) :
    ∃ v, c.toHeaderValue = .ok v ∧ fromBytes v.bytes = c ∧ v.isSensitive = false ∧
      ∀ b ∈ v.bytes, HeaderValue.isValid b := by
  cases c <;>
    first | exact absurd rfl hc | exact ⟨_, rfl, by decide, rfl, List.all_eq_true.mp (by decide)⟩

end Code

structure Status where
  code : Code
  message : String
  details : List UInt8
  deriving DecidableEq

namespace Status

/-- `Status::new`: no details. -/
def new (code : Code) (message : String) : Status := ⟨code, message, []⟩

def grpcStatusHeaderCode : String := "grpc-status"
def grpcStatusMessageHeader : String := "grpc-message"
def grpcStatusDetailsHeader : String := "grpc-status-details-bin"

/-- `invalid_header_value_byte`. -/
def invalidHeaderValueByte : Status :=
  .new .internal "Couldn't serialize non-text grpc status header"

/-- The bytes `add_header` writes for a message: raw when no byte needs encoding, else
`percent_encode(.., DEFAULT_ENCODE_SET)`. -/
def messageBytes (message : String) : List UInt8 :=
  if (asBytes message).any Percent.defaultEncodeSet then
    Percent.encode Percent.defaultEncodeSet (asBytes message)
  else asBytes message

/-- One optional header of `add_header`: left out when `present` is false, else
`HeaderValue::from_shared` of its bytes, whose error the `?` turns into
`invalid_header_value_byte`. -/
def insertOptional (m : HeaderMap) (name : String) (present : Bool) (bytes : List UInt8) :
    M (HeaderMap × Except Status Unit) :=
  if !present then pure (m, .ok ())
  else
    match HeaderValue.fromShared bytes with
    | none => pure (m, .error invalidHeaderValueByte)
    | some v => do pure (← m.insertStatic name v, .ok ())

/-- `Status::add_header`, with the map as `&mut` leaves it: an error stops it after the
headers already inserted. -/
def addHeader (s : Status) (m : HeaderMap) : M (HeaderMap × Except Status Unit) := do
  let m ← m.insertStatic grpcStatusHeaderCode (← s.code.toHeaderValue)
  let (m, r) ← insertOptional m grpcStatusMessageHeader (!s.message.isEmpty) (messageBytes s.message)
  match r with
  | .error e => pure (m, .error e)
  | .ok () => insertOptional m grpcStatusDetailsHeader (!s.details.isEmpty) s.details

/-- `Status::to_header_map`. -/
def toHeaderMap (s : Status) : M (Except Status HeaderMap) := do
  let (m, r) ← s.addHeader Multimap.empty
  pure (r.map fun _ => m)

/-- `Status::from_header_map`. -/
def fromHeaderMap (m : HeaderMap) : Option Status :=
  (m.getStr (asBytes grpcStatusHeaderCode)).map fun code =>
    let code := Code.fromBytes code.bytes
    let errorMessage := ((m.getStr (asBytes grpcStatusMessageHeader)).map fun h =>
      Utf8.decode (Percent.decode h.bytes)).getD (.ok "")
    let details := ((m.getStr (asBytes grpcStatusDetailsHeader)).map (·.bytes)).getD []
    match errorMessage with
    | .ok message => ⟨code, message, details⟩
    | .error err =>
      ⟨.unknown, "Error deserializing status message header: " ++ err.display, details⟩

/-! ## What `add_header` writes -/

/-- `from_bytes` of the name `a` is not the name `b`. -/
def NameNe (a b : String) : Prop :=
  ∀ k, HeaderName.fromBytes (asBytes a) = some k → k.bytes ≠ asBytes b

/-- Two names are told apart when folding the case of the one does not give the other; for
the names the crate writes, `decide` compares the bytes. -/
theorem nameNe_of_map_ne {a b : String} (h : (asBytes a).map headerChars ≠ asBytes b) :
    NameNe a b := fun _ hk => by rw [HeaderName.bytes_fromBytes hk]; exact h

theorem isValid_of_not_defaultEncodeSet :
    ∀ b : UInt8, Percent.defaultEncodeSet b = false → HeaderValue.isValid b := by
  intro b hb
  -- outside the encode set a byte is visible ASCII
  have hrange : 32 ≤ b.toNat ∧ b.toNat ≤ 126 := by
    simp only [Percent.defaultEncodeSet, Percent.simpleEncodeSet, Bool.or_eq_false_iff,
      decide_eq_false_iff_not, UInt8.lt_iff_toNat_lt] at hb
    simp at hb
    omega
  have h32 : (32 : UInt8) ≤ b := UInt8.le_iff_toNat_le.mpr (by simpa using hrange.1)
  have h127 : b ≠ 127 := fun h => by subst h; simp at hrange
  simp [HeaderValue.isValid, h32, h127]

/-- Every byte `add_header` writes for a message is a valid header byte: raw bytes are outside
the encode set, and the encoder writes only such bytes, `%` and hex digits. -/
theorem messageBytes_valid (message : String) :
    ∀ b ∈ messageBytes message, HeaderValue.isValid b := by
  intro b hb
  unfold messageBytes at hb
  split at hb
  · rcases Percent.mem_encode hb with ⟨-, hset⟩ | rfl | ⟨hlo, hhi⟩
    · exact isValid_of_not_defaultEncodeSet b hset
    · decide
    · have h32 : (32 : UInt8) ≤ b := UInt8.le_iff_toNat_le.mpr (by simp; omega)
      have h127 : b ≠ 127 := fun h => by subst h; simp at hhi
      simp [HeaderValue.isValid, h32, h127]
  · rename_i hany
    have hset : Percent.defaultEncodeSet b = false := by
      simpa using List.any_eq_false.mp (by simpa using hany) b hb
    exact isValid_of_not_defaultEncodeSet b hset

/-- Without a `%` in the message, `percent_decode` gives back its bytes on either path. -/
theorem decode_messageBytes {message : String} (hpct : 37 ∉ asBytes message) :
    Percent.decode (messageBytes message) = asBytes message := by
  unfold messageBytes
  split
  · exact Percent.decode_encode (fun b hb _ h => hpct (h ▸ hb))
  · exact Percent.decode_of_not_mem hpct

/-- An optional header whose bytes are valid: written when present, every other name left as
it was. -/
theorem insertOptional_spec (m : HeaderMap) {name : String} (present : Bool) (bytes : List UInt8)
    (hname : (HeaderName.fromStatic (asBytes name)).toBool = true)
    (hvalid : present = true → ∀ b ∈ bytes, HeaderValue.isValid b) :
    ∃ m', insertOptional m name present bytes = .ok (m', .ok ()) ∧
      m'.getStr (asBytes name) =
        (if present then some ⟨bytes, false⟩ else m.getStr (asBytes name)) ∧
      ∀ other, NameNe other name → m'.getStr (asBytes other) = m.getStr (asBytes other) := by
  cases present with
  | false => exact ⟨m, rfl, rfl, fun _ _ => rfl⟩
  | true =>
    obtain ⟨m', hm⟩ := HeaderMap.insertStatic_ok (m := m) (v := ⟨bytes, false⟩) hname
    refine ⟨m', ?_, by simpa using HeaderMap.getStr_insertStatic_self hm,
      fun other hne => HeaderMap.getStr_insertStatic_of_ne hm hne⟩
    simp [insertOptional, HeaderValue.fromShared_eq_some (hvalid rfl), hm]

/-- An optional header whose bytes are not valid stops `add_header` with
`invalid_header_value_byte`. -/
theorem insertOptional_invalid {m : HeaderMap} {name : String} {bytes : List UInt8}
    (hb : ∃ b ∈ bytes, HeaderValue.isValid b = false) :
    insertOptional m name true bytes = .ok (m, .error invalidHeaderValueByte) := by
  have hnone : HeaderValue.fromShared bytes = none := by
    obtain ⟨b, hmem, hinv⟩ := hb
    simp only [HeaderValue.fromShared, List.all_eq_true]
    rw [if_neg (fun h => by simp [h b hmem] at hinv)]
  simp [insertOptional, hnone]

theorem codeName_ok : (HeaderName.fromStatic (asBytes grpcStatusHeaderCode)).toBool = true := by
  decide

theorem messageName_ok :
    (HeaderName.fromStatic (asBytes grpcStatusMessageHeader)).toBool = true := by
  decide

theorem detailsName_ok :
    (HeaderName.fromStatic (asBytes grpcStatusDetailsHeader)).toBool = true := by
  decide

/-- `add_header` of a status whose details are valid header bytes succeeds, and the map then
answers the three names with the code, the message when there is one, and the details when
there are any; other lookups of these names are as before. -/
theorem addHeader_of_valid {s : Status} (hcode : s.code ≠ .nonExhaustive)
    (hdet : ∀ b ∈ s.details, HeaderValue.isValid b) (m : HeaderMap) :
    ∃ m' v, s.addHeader m = .ok (m', .ok ()) ∧ Code.fromBytes v.bytes = s.code ∧
      m'.getStr (asBytes grpcStatusHeaderCode) = some v ∧
      m'.getStr (asBytes grpcStatusMessageHeader) =
        (if !s.message.isEmpty then some ⟨messageBytes s.message, false⟩
          else m.getStr (asBytes grpcStatusMessageHeader)) ∧
      m'.getStr (asBytes grpcStatusDetailsHeader) =
        (if !s.details.isEmpty then some ⟨s.details, false⟩
          else m.getStr (asBytes grpcStatusDetailsHeader)) ∧
      ∀ other, NameNe other grpcStatusHeaderCode → NameNe other grpcStatusMessageHeader →
        NameNe other grpcStatusDetailsHeader →
          m'.getStr (asBytes other) = m.getStr (asBytes other) := by
  obtain ⟨v, hv, hcodev, -, -⟩ := Code.toHeaderValue_fromBytes hcode
  obtain ⟨m₁, hm₁⟩ := HeaderMap.insertStatic_ok (m := m) (v := v) codeName_ok
  obtain ⟨m₂, hins₂, hmsg₂, hother₂⟩ := insertOptional_spec m₁ (!s.message.isEmpty)
    (messageBytes s.message) messageName_ok (fun _ => messageBytes_valid _)
  obtain ⟨m₃, hins₃, hdet₃, hother₃⟩ :=
    insertOptional_spec m₂ (!s.details.isEmpty) s.details detailsName_ok (fun _ => hdet)
  -- each lookup passes the inserts under the other two names
  have hmsg₁ := HeaderMap.getStr_insertStatic_of_ne hm₁
    (nameNe_of_map_ne (by decide) : NameNe grpcStatusMessageHeader grpcStatusHeaderCode)
  have hdet₁ := HeaderMap.getStr_insertStatic_of_ne hm₁
    (nameNe_of_map_ne (by decide) : NameNe grpcStatusDetailsHeader grpcStatusHeaderCode)
  refine ⟨m₃, v, ?_, hcodev, ?_, ?_, ?_, ?_⟩
  · simp [addHeader, hv, hm₁, hins₂, hins₃]
  · rw [hother₃ grpcStatusHeaderCode (nameNe_of_map_ne (by decide)),
      hother₂ grpcStatusHeaderCode (nameNe_of_map_ne (by decide)),
      HeaderMap.getStr_insertStatic_self hm₁]
  · rw [hother₃ grpcStatusMessageHeader (nameNe_of_map_ne (by decide)), hmsg₂, hmsg₁]
  · rw [hdet₃, hother₂ grpcStatusDetailsHeader (nameNe_of_map_ne (by decide)), hdet₁]
  · intro other hc hm hd
    rw [hother₃ _ hd, hother₂ _ hm, HeaderMap.getStr_insertStatic_of_ne hm₁ hc]

/-- A details byte that is not valid in a header makes `add_header` fail with
`invalid_header_value_byte`. -/
theorem addHeader_of_invalid {s : Status} (hcode : s.code ≠ .nonExhaustive)
    (hdet : ∃ b ∈ s.details, HeaderValue.isValid b = false) (m : HeaderMap) :
    ∃ m', s.addHeader m = .ok (m', .error invalidHeaderValueByte) := by
  obtain ⟨v, hv, -, -, -⟩ := Code.toHeaderValue_fromBytes hcode
  obtain ⟨m₁, hm₁⟩ := HeaderMap.insertStatic_ok (m := m) (v := v) codeName_ok
  obtain ⟨m₂, hins₂, -, -⟩ := insertOptional_spec m₁ (!s.message.isEmpty)
    (messageBytes s.message) messageName_ok (fun _ => messageBytes_valid _)
  have hne : s.details.isEmpty = false := by
    obtain ⟨b, hb, -⟩ := hdet
    exact List.isEmpty_eq_false_iff.mpr (List.ne_nil_of_mem hb)
  refine ⟨m₂, ?_⟩
  simp [addHeader, hv, hm₁, hins₂, hne, insertOptional_invalid hdet]

theorem getStr_empty (bs : List UInt8) : HeaderMap.getStr Multimap.empty bs = none := by
  unfold HeaderMap.getStr
  cases HeaderName.fromBytes bs <;> rfl

theorem fromHeaderMap_empty : fromHeaderMap Multimap.empty = none := by
  simp [fromHeaderMap, getStr_empty]

/-- `to_header_map` of a status whose details are valid header bytes: the map holds the code,
the message when there is one, and the details when there are any. -/
theorem toHeaderMap_of_valid {s : Status} (hcode : s.code ≠ .nonExhaustive)
    (hdet : ∀ b ∈ s.details, HeaderValue.isValid b) :
    ∃ m v, s.toHeaderMap = .ok (.ok m) ∧ Code.fromBytes v.bytes = s.code ∧
      m.getStr (asBytes grpcStatusHeaderCode) = some v ∧
      m.getStr (asBytes grpcStatusMessageHeader) =
        (if !s.message.isEmpty then some ⟨messageBytes s.message, false⟩ else none) ∧
      m.getStr (asBytes grpcStatusDetailsHeader) =
        (if !s.details.isEmpty then some ⟨s.details, false⟩ else none) := by
  obtain ⟨m, v, hadd, hv, hc, hmsg, hdetL, -⟩ := addHeader_of_valid hcode hdet Multimap.empty
  refine ⟨m, v, by simp [toHeaderMap, hadd, Except.map], hv, hc, ?_, ?_⟩
  · rw [hmsg, getStr_empty]
  · rw [hdetL, getStr_empty]

/-- `from_header_map` finds a status exactly when the map holds `grpc-status`. -/
theorem fromHeaderMap_eq_none {m : HeaderMap} :
    fromHeaderMap m = none ↔ m.getStr (asBytes grpcStatusHeaderCode) = none := by
  simp [fromHeaderMap]

/-- `from_header_map` reads a status from its three headers alone: a code whose text parses to
the status's code, and the message and details as `add_header` writes them. -/
theorem fromHeaderMap_of_headers {m : HeaderMap} {s : Status} {v : HeaderValue}
    (hpct : 37 ∉ asBytes s.message) (hv : m.getStr (asBytes grpcStatusHeaderCode) = some v)
    (hc : Code.fromBytes v.bytes = s.code)
    (hmsg : m.getStr (asBytes grpcStatusMessageHeader) =
      (if !s.message.isEmpty then some ⟨messageBytes s.message, false⟩ else none))
    (hdet : m.getStr (asBytes grpcStatusDetailsHeader) =
      (if !s.details.isEmpty then some ⟨s.details, false⟩ else none)) :
    fromHeaderMap m = some s := by
  obtain ⟨code, message, details⟩ := s
  dsimp only at hc hmsg hdet hpct
  unfold fromHeaderMap
  rw [hv, hmsg, hdet]
  -- an absent header reads back as the empty message or details
  cases hme : message.isEmpty <;> cases hde : details.isEmpty
  · simp [hc, decode_messageBytes hpct, Utf8.decode_asBytes]
  · simp [hc, decode_messageBytes hpct, Utf8.decode_asBytes, List.isEmpty_iff.mp hde]
  · simp [hc, String.isEmpty_iff.mp hme]
  · simp [hc, String.isEmpty_iff.mp hme, List.isEmpty_iff.mp hde]

/-- What `to_header_map` writes for a status with valid details and a message without `%`,
`from_header_map` reads back. -/
theorem toHeaderMap_read {s : Status} (hcode : s.code ≠ .nonExhaustive)
    (hdet : ∀ b ∈ s.details, HeaderValue.isValid b) (hpct : 37 ∉ asBytes s.message) :
    ∃ m, s.toHeaderMap = .ok (.ok m) ∧ fromHeaderMap m = some s := by
  obtain ⟨m, v, hm, hc, hv, hmsg, hdetL⟩ := toHeaderMap_of_valid hcode hdet
  exact ⟨m, hm, fromHeaderMap_of_headers hpct hv hc hmsg hdetL⟩

/-- The status header round trip for a message without `%`: what `to_header_map` writes,
`from_header_map` reads back as the same code, message and details. -/
theorem fromHeaderMap_toHeaderMap {s : Status} (hcode : s.code ≠ .nonExhaustive)
    (hpct : 37 ∉ asBytes s.message) {m : HeaderMap} (h : s.toHeaderMap = .ok (.ok m)) :
    fromHeaderMap m = some s := by
  by_cases hdet : ∀ b ∈ s.details, HeaderValue.isValid b
  · obtain ⟨m', v, hm', hv, hc, hmsg, hdetL⟩ := toHeaderMap_of_valid hcode hdet
    obtain rfl : m = m' := by
      rw [hm'] at h
      cases h
      rfl
    obtain ⟨code, message, details⟩ := s
    dsimp only at hv hmsg hdetL hpct
    unfold fromHeaderMap
    rw [hc, hmsg, hdetL]
    -- an absent header reads back as the empty message or details
    cases hme : message.isEmpty <;> cases hde : details.isEmpty
    · simp [hv, decode_messageBytes hpct, Utf8.decode_asBytes]
    · simp [hv, decode_messageBytes hpct, Utf8.decode_asBytes, List.isEmpty_iff.mp hde]
    · simp [hv, String.isEmpty_iff.mp hme]
    · simp [hv, String.isEmpty_iff.mp hme, List.isEmpty_iff.mp hde]
  · -- an invalid details byte makes `to_header_map` fail
    obtain ⟨m', hadd⟩ := addHeader_of_invalid hcode (by simpa using hdet) Multimap.empty
    simp [toHeaderMap, hadd, Except.map] at h

theorem fromHeaderMap_toHeaderMap_unavailable :
    ∃ m, toHeaderMap ⟨.unavailable, "try again", [104, 105]⟩ = .ok (.ok m) ∧
      fromHeaderMap m = some ⟨.unavailable, "try again", [104, 105]⟩ := by
  obtain ⟨m, -, hm, -⟩ :=
    toHeaderMap_of_valid (s := ⟨.unavailable, "try again", [104, 105]⟩) (by decide)
      (List.all_eq_true.mp (by decide))
  exact ⟨m, hm, fromHeaderMap_toHeaderMap (by decide) (by decide) hm⟩

/-- A message that spells an escape, such as `%41`, contains no byte of the encode set, goes
out raw, and is decoded on the way back: the message read back is `A`. -/
theorem fromHeaderMap_toHeaderMap_escape (code : Code) (hcode : code ≠ .nonExhaustive) :
    (fun r => r.toOption.bind fromHeaderMap) <$> toHeaderMap ⟨code, "%41", []⟩ =
      .ok (some ⟨code, "A", []⟩) := by
  obtain ⟨m, v, hm, hv, hc, hmsg, hdetL⟩ :=
    toHeaderMap_of_valid (s := ⟨code, "%41", []⟩) hcode (by simp)
  have hraw : messageBytes "%41" = asBytes "%41" := by decide
  have hdecode : Percent.decode (asBytes "%41") = asBytes "A" := by decide
  rw [hm]
  dsimp only at hv hmsg hdetL
  simp only [map_ok, Except.toOption, Option.bind_some]
  unfold fromHeaderMap
  rw [hc, hmsg, hdetL]
  simp [hv, hraw, hdecode, Utf8.decode_asBytes]

theorem fromHeaderMap_toHeaderMap_escape_ok :
    (fun r => r.toOption.bind fromHeaderMap) <$> toHeaderMap ⟨.ok, "%41", []⟩ =
      .ok (some ⟨.ok, "A", []⟩) :=
  fromHeaderMap_toHeaderMap_escape .ok (by decide)

/-! ## The statuses code can hold

The fields of `Status` are private. Code outside the crate makes a status with `Status::new`
(which the deprecated `with_code` and `with_code_and_message` call) and is handed the crate's
own, which it makes with `Status::new` or reads with `from_header_map` from a header map the
`http` crate built; `Clone` and `try_from_error` copy one field for field. -/

/-- The statuses the crate's API builds. -/
inductive Reachable : Status → Prop
  | new (code : Code) (message : String) : Reachable (.new code message)
  | fromHeaderMap {m : HeaderMap} {s : Status} : HeaderMap.Valid m → fromHeaderMap m = some s →
      Reachable s

/-- `from_header_map` takes the details from their header, or none. -/
theorem fromHeaderMap_details {m : HeaderMap} {s : Status} (h : fromHeaderMap m = some s) :
    s.details = ((m.getStr (asBytes grpcStatusDetailsHeader)).map (·.bytes)).getD [] := by
  obtain ⟨v, -, rfl⟩ := Option.map_eq_some_iff.mp h
  dsimp only
  split <;> simp only

/-- The details of a reachable status are valid header bytes: `Status::new` makes none, and
`from_header_map` copies those of a header value. -/
theorem Reachable.details_valid {s : Status} (hs : s.Reachable) :
    ∀ b ∈ s.details, HeaderValue.isValid b := by
  cases hs with
  | new code message => simp [Status.new]
  | @fromHeaderMap m _ hm h =>
    rw [fromHeaderMap_details h]
    cases hv : m.getStr (asBytes grpcStatusDetailsHeader) with
    | none => simp
    | some v => exact hm.getStr hv

end Status

/-- `infer_grpc_status`: the status in the trailers if they hold one, else a status mapped
from the HTTP status code, always an error. -/
def inferGrpcStatus (trailers : Option HeaderMap) (statusCode : Nat) : Except Status Unit :=
  match trailers.bind Status.fromHeaderMap with
  | some status => if status.code = .ok then .ok () else .error status
  | none =>
    let code : Code := match statusCode with
      | 400 => .internal
      | 401 => .unauthenticated
      | 403 => .permissionDenied
      | 404 => .unimplemented
      | 429 | 502 | 503 | 504 => .unavailable
      | _ => .unknown
    .error (.new code s!"grpc-status header missing, mapped from HTTP status code {statusCode}")

/-- Trailers that hold a status settle the call by its code alone. -/
theorem inferGrpcStatus_of_fromHeaderMap {t : HeaderMap} {s : Status}
    (h : Status.fromHeaderMap t = some s) (statusCode : Nat) :
    inferGrpcStatus (some t) statusCode = if s.code = .ok then .ok () else .error s := by
  simp [inferGrpcStatus, h]

/-- `infer_grpc_status` settles a call as a success exactly when the trailers hold a status
whose code is `Ok`; without one it is an error, whatever the HTTP status code. -/
theorem inferGrpcStatus_eq_ok {trailers : Option HeaderMap} {statusCode : Nat} :
    inferGrpcStatus trailers statusCode = .ok () ↔
      ∃ t st, trailers = some t ∧ Status.fromHeaderMap t = some st ∧ st.code = .ok := by
  unfold inferGrpcStatus
  cases trailers with
  | none => simp
  | some t =>
    cases hst : Status.fromHeaderMap t with
    | none => simp [hst]
    | some st => by_cases hc : st.code = .ok <;> simp [hst, hc]

end TowerGrpc
