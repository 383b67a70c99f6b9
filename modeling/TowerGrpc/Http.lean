import TowerGrpc.Lib.Rust
import TowerGrpc.Lib.Multimap
import TowerGrpc.Lib.Utf8
import Mathlib.Data.FinEnum

/-!
# The http 0.1 header types

What tower-grpc uses of the `http` crate. A `HeaderValue` is its bytes and a sensitivity
flag; `from_shared` admits every byte but the controls other than tab, and `from_static`
only visible ASCII, panicking otherwise. A `HeaderName` is a non-empty string of lower-case
token bytes: `from_bytes` folds upper case through the `HEADER_CHARS` table and rejects the
rest, `from_static` panics on anything not already lower case. A `HeaderMap` is a multimap
over names; a lookup by `&str` parses the string as `from_bytes` does and finds nothing
when it is no name. The model's values carry no invariant, so a map the crate receives is
said to be `Valid` where a proof needs what the crate's own constructors guarantee.
-/

namespace Http

open Rust

open Utf8 (asBytes)

/-! ## Header values -/

structure HeaderValue where
  bytes : List UInt8
  isSensitive : Bool
  deriving DecidableEq, Repr

namespace HeaderValue

/-- `is_valid`: what a value may hold. -/
def isValid (b : UInt8) : Bool := (32 ≤ b && b != 127) || b == 9

/-- `is_visible_ascii`: what a static value may hold. -/
def isVisibleAscii (b : UInt8) : Bool := (32 ≤ b && b < 127) || b == 9

/-- `HeaderValue::from_shared` (and `from_bytes`). -/
def fromShared (src : List UInt8) : Option HeaderValue :=
  if src.all isValid then some ⟨src, false⟩ else none

/-- `HeaderValue::from_static`. -/
def fromStatic (src : String) : M HeaderValue :=
  if (asBytes src).all isVisibleAscii then .ok ⟨asBytes src, false⟩ else .error .panic

/-- `HeaderValue::from_shared_unchecked`. -/
def fromSharedUnchecked (src : List UInt8) : HeaderValue := ⟨src, false⟩

theorem fromShared_eq_some {src : List UInt8} (h : ∀ b ∈ src, isValid b) :
    fromShared src = some ⟨src, false⟩ := by
  simp [fromShared, List.all_eq_true.mpr h]

theorem fromStatic_eq_ok {src : String} (h : (asBytes src).all isVisibleAscii = true) :
    fromStatic src = .ok ⟨asBytes src, false⟩ := by
  simp [fromStatic, h]

end HeaderValue

/-! ## Header names -/

/-- `HEADER_CHARS`: a token byte of a header name, upper case folded to lower case; zero for
every byte a name cannot hold. -/
def headerChars (b : UInt8) : UInt8 :=
  if 65 ≤ b ∧ b ≤ 90 then b + 32
  else if (33 ≤ b ∧ b ≤ 39) ∨ b = 42 ∨ b = 43 ∨ b = 45 ∨ b = 46 ∨ (48 ≤ b ∧ b ≤ 57) ∨
      (94 ≤ b ∧ b ≤ 122) ∨ b = 124 ∨ b = 126 then b
  else 0

/-- A byte a normalised name holds: a token byte already in lower case (`HEADER_CHARS_H2`). -/
def isLowerToken (b : UInt8) : Bool := headerChars b == b && b != 0

theorem isLowerToken_headerChars :
    ∀ b : UInt8, headerChars b ≠ 0 → isLowerToken (headerChars b) := by
  intro b hb
  unfold isLowerToken
  -- each branch of the table maps a token byte to a byte the table fixes
  unfold headerChars at hb ⊢
  split_ifs at hb ⊢ <;> simp_all [UInt8.le_iff_toNat_le] <;> omega

structure HeaderName where
  bytes : List UInt8
  valid : bytes ≠ [] ∧ bytes.all isLowerToken
  deriving DecidableEq

namespace HeaderName

/-- `HeaderName::from_bytes`: fold upper case, reject non-token bytes and the empty name. -/
def fromBytes (src : List UInt8) : Option HeaderName :=
  if h : src ≠ [] ∧ ∀ b ∈ src, headerChars b ≠ 0 then
    some ⟨src.map headerChars, by
      refine ⟨by simpa using h.1, List.all_eq_true.mpr ?_⟩
      intro b hb
      obtain ⟨c, hc, rfl⟩ := List.mem_map.mp hb
      exact isLowerToken_headerChars c (h.2 c hc)⟩
  else none

/-- `HeaderName::from_static`: the string must already be a normalised name. -/
def fromStatic (src : List UInt8) : M HeaderName :=
  if h : src ≠ [] ∧ src.all isLowerToken then .ok ⟨src, h⟩ else .error .panic

theorem ext {a b : HeaderName} (h : a.bytes = b.bytes) : a = b := by
  cases a
  cases b
  cases h
  rfl

theorem bytes_fromBytes {src : List UInt8} {k : HeaderName} (h : fromBytes src = some k) :
    k.bytes = src.map headerChars := by
  unfold fromBytes at h
  split at h
  · cases h
    rfl
  · cases h

/-- `from_bytes` accepts a non-empty string of token bytes. -/
theorem fromBytes_isSome {src : List UInt8} (hne : src ≠ [])
    (htok : src.all (fun b => headerChars b != 0) = true) : (fromBytes src).isSome := by
  have hall : ∀ b ∈ src, headerChars b ≠ 0 := fun b hb => by
    simpa using List.all_eq_true.mp htok b hb
  unfold fromBytes
  rw [dif_pos ⟨hne, hall⟩]
  rfl

/-- A name `from_static` accepts is found again by `from_bytes`: folding case changes no
byte of it. -/
theorem fromBytes_of_fromStatic {src : List UInt8} {k : HeaderName} (h : fromStatic src = .ok k) :
    fromBytes src = some k := by
  unfold fromStatic at h
  split at h
  · rename_i hv
    cases h
    have hfix : ∀ b ∈ src, headerChars b = b ∧ b ≠ 0 := fun b hb => by
      simpa [isLowerToken] using List.all_eq_true.mp hv.2 b hb
    unfold fromBytes
    rw [dif_pos ⟨hv.1, fun b hb => by rw [(hfix b hb).1]; exact (hfix b hb).2⟩]
    congr 1
    exact ext (List.map_congr_left (fun b hb => (hfix b hb).1) |>.trans (List.map_id src))
  · cases h

end HeaderName

/-! ## Header maps -/

abbrev HeaderMap := Multimap HeaderName HeaderValue

namespace HeaderMap

/-- `HeaderMap::insert` under a `&'static str` name (`IntoHeaderName`). -/
def insertStatic (m : HeaderMap) (name : String) (v : HeaderValue) : M HeaderMap := do
  let k ← HeaderName.fromStatic (asBytes name)
  pure (m.insert k v).2

/-- `HeaderMap::get` under a `&str` name (`AsHeaderName`). -/
def getStr (m : HeaderMap) (name : List UInt8) : Option HeaderValue :=
  (HeaderName.fromBytes name).bind m.get

variable {m m' : HeaderMap} {name : String} {v : HeaderValue}

theorem insertStatic_eq_ok (hm : m.insertStatic name v = .ok m') :
    ∃ k, HeaderName.fromStatic (asBytes name) = .ok k ∧ m' = (m.insert k v).2 := by
  obtain ⟨k, hk, hm⟩ := Rust.bind_eq_ok.mp hm
  exact ⟨k, hk, (Except.ok.inj hm).symm⟩

theorem insertStatic_ok (hname : (HeaderName.fromStatic (asBytes name)).toBool = true) :
    ∃ m', m.insertStatic name v = .ok m' := by
  obtain ⟨k, hk⟩ := Rust.exists_eq_ok_of_toBool hname
  exact ⟨(m.insert k v).2, by simp [insertStatic, hk]⟩

theorem getStr_insertStatic_self (hm : m.insertStatic name v = .ok m') :
    m'.getStr (asBytes name) = some v := by
  obtain ⟨k, hk, rfl⟩ := insertStatic_eq_ok hm
  simp [getStr, HeaderName.fromBytes_of_fromStatic hk, Multimap.get_insert]

/-- Inserting under one name leaves the lookups under every other name. -/
theorem getStr_insertStatic_of_ne (hm : m.insertStatic name v = .ok m') {bs : List UInt8}
    (hbs : ∀ k, HeaderName.fromBytes bs = some k → k.bytes ≠ asBytes name) :
    m'.getStr bs = m.getStr bs := by
  obtain ⟨k, hk, rfl⟩ := insertStatic_eq_ok hm
  unfold getStr
  cases hb : HeaderName.fromBytes bs with
  | none => rfl
  | some k' =>
    have hne : k' ≠ k := by
      rintro rfl
      unfold HeaderName.fromStatic at hk
      split at hk
      · cases hk
        exact hbs _ hb rfl
      · cases hk
    simp [Multimap.get_insert, hne]

/-- Every value holds only bytes `is_valid` admits, as every value that the safe constructors
of `HeaderValue` build does. -/
def Valid (m : HeaderMap) : Prop := m.All fun _ v => ∀ b ∈ v.bytes, HeaderValue.isValid b

theorem Valid.getStr (hm : m.Valid) {bs : List UInt8} (h : m.getStr bs = some v) :
    ∀ b ∈ v.bytes, HeaderValue.isValid b := by
  obtain ⟨k, -, hk⟩ := Option.bind_eq_some_iff.mp h
  exact hm _ (Multimap.get_eq_some hk)

end HeaderMap

/-! ## Responses -/

/-- `http::Response<B>`, with what gRPC reads of its head: the status code and the headers. -/
structure Response (β : Type) where
  status : Nat
  headers : HeaderMap
  body : β

/-- `http::Response::new`: status 200 and no headers. -/
def Response.new {β : Type} (body : β) : Response β := ⟨200, Multimap.empty, body⟩

/-! ## Requests -/

/-- `http::Request<B>`, with what gRPC writes and reads of its head: the path of the URI and
the headers. -/
structure Request (β : Type) where
  path : String
  headers : HeaderMap
  body : β

end Http
