import TowerGrpc.Metadata.Encoding

/-!
# Metadata values

`metadata/value.rs`. A `MetadataValue<VE>` is a header value under the encoding `VE`. Its `==`
is the encoding's `values_equal`, so binary values compare by what they decode to, every
undecodable value equal to every other; its `Ord`, its `PartialOrd<str>` and its derived
`Hash` read the encoded bytes, and `Hash` the sensitivity flag as well. The relations agree
for ASCII values up to that flag, and only one way for binary ones (`compare_agreement`).
-/

namespace TowerGrpc

namespace Metadata

open Rust Http Utf8

structure MetadataValue (ve : Encoding) where
  inner : HeaderValue
  deriving DecidableEq

namespace MetadataValue

variable {ve : Encoding}

/-- `MetadataValue::from_static`. -/
def fromStatic (ve : Encoding) (src : String) : M (MetadataValue ve) :=
  (⟨·⟩) <$> ve.fromStatic src

/-- `MetadataValue::try_from_bytes`; `None` for `InvalidMetadataValueBytes`. -/
def tryFromBytes (ve : Encoding) (src : List UInt8) : Option (MetadataValue ve) :=
  (⟨·⟩) <$> ve.fromBytes src

/-- `MetadataValue::from_shared`. -/
def fromShared (ve : Encoding) (src : List UInt8) : Option (MetadataValue ve) :=
  (⟨·⟩) <$> ve.fromShared src

/-- `MetadataValue::from_shared_unchecked`. -/
def fromSharedUnchecked (src : List UInt8) : MetadataValue ve :=
  ⟨HeaderValue.fromSharedUnchecked src⟩

/-- `MetadataValue<Binary>::from_bytes`: `try_from_bytes(src).unwrap()`. -/
def fromBytes (src : List UInt8) : M (MetadataValue .binary) :=
  match tryFromBytes .binary src with
  | some v => .ok v
  | none => .error .panic

def isEmpty (v : MetadataValue ve) : Bool := ve.isEmpty v.inner.bytes

/-- `MetadataValue::to_bytes`; `None` for `InvalidMetadataValueBytes`. -/
def toBytes (v : MetadataValue ve) : Option (List UInt8) := ve.decode v.inner.bytes

def asEncodedBytes (v : MetadataValue ve) : List UInt8 := v.inner.bytes

/-- `PartialEq for MetadataValue`. -/
def eq (a b : MetadataValue ve) : Bool := ve.valuesEqual a.inner b.inner

/-- `Ord::cmp`, and `PartialOrd::partial_cmp` inside `Some`: the header values' order, that
of their bytes. -/
def cmp (a b : MetadataValue ve) : Ordering := compare a.inner.bytes b.inner.bytes

/-- `PartialEq<str>` and `PartialEq<[u8]>`. -/
def eqBytes (a : MetadataValue ve) (s : List UInt8) : Bool := ve.equals a.inner s

/-- `PartialOrd<str>` and `PartialOrd<[u8]>`. -/
def partialCmpBytes (a : MetadataValue ve) (s : List UInt8) : Option Ordering :=
  some (compare a.inner.bytes s)

/-- What the derived `Hash` feeds the hasher: the header value's bytes and its sensitivity
flag (`PhantomData` hashes nothing). -/
def hashInput (a : MetadataValue ve) : List UInt8 × Bool := (a.inner.bytes, a.inner.isSensitive)

/-! ## How the relations compare -/

section Compare

variable (a b : MetadataValue ve)

theorem cmp_eq_iff : a.cmp b = .eq ↔ a.inner.bytes = b.inner.bytes :=
  Std.compare_eq_iff_eq

/-- Values with the same bytes are equal, in either encoding. -/
theorem eq_of_cmp_eq (h : a.cmp b = .eq) : a.eq b = true := by
  have hbytes := (cmp_eq_iff a b).mp h
  cases ve with
  | ascii => simp [eq, Encoding.valuesEqual, hbytes]
  | binary => exact (Encoding.valuesEqual_binary _ _).mpr (by rw [hbytes])

theorem hashInput_eq_iff :
    a.hashInput = b.hashInput ↔ a.cmp b = .eq ∧ a.inner.isSensitive = b.inner.isSensitive := by
  rw [cmp_eq_iff]
  simp [hashInput]

end Compare

theorem eq_ascii_iff (a b : MetadataValue .ascii) : a.eq b = true ↔ a.cmp b = .eq := by
  rw [cmp_eq_iff]
  simp [eq, Encoding.valuesEqual]

theorem eqBytes_ascii_iff (a : MetadataValue .ascii) (s : List UInt8) :
    a.eqBytes s = true ↔ a.partialCmpBytes s = some .eq := by
  simp [eqBytes, partialCmpBytes, Encoding.equals]

theorem eq_binary_iff (a b : MetadataValue .binary) :
    a.eq b = true ↔ Base64.decode a.inner.bytes = Base64.decode b.inner.bytes :=
  Encoding.valuesEqual_binary _ _

theorem eqBytes_binary_iff (a : MetadataValue .binary) (s : List UInt8) :
    a.eqBytes s = true ↔
      Base64.decode a.inner.bytes = some s ∨
        (Base64.decode a.inner.bytes = none ∧ a.inner.bytes = s) :=
  Encoding.equals_binary _ _

/-- How `==`, `cmp`, `==` with bytes, `partial_cmp` with bytes and the hash input relate. Equal
bytes make equal values in either encoding, and the hash input is the bytes and the flag. For
ASCII values `==` is `cmp` giving `Equal`, and `==` with bytes is `partial_cmp` giving
`Some(Equal)`. For binary values `==` compares decodings, and `==` with bytes compares the
decoding, or the raw bytes when there is none. -/
theorem compare_agreement :
    (∀ ve (a b : MetadataValue ve), a.cmp b = .eq → a.eq b = true) ∧
    (∀ ve (a b : MetadataValue ve),
      a.hashInput = b.hashInput ↔ a.cmp b = .eq ∧ a.inner.isSensitive = b.inner.isSensitive) ∧
    (∀ a b : MetadataValue .ascii, a.eq b = true ↔ a.cmp b = .eq) ∧
    (∀ (a : MetadataValue .ascii) s, a.eqBytes s = true ↔ a.partialCmpBytes s = some .eq) ∧
    (∀ a b : MetadataValue .binary,
      a.eq b = true ↔ Base64.decode a.inner.bytes = Base64.decode b.inner.bytes) ∧
    (∀ (a : MetadataValue .binary) s, a.eqBytes s = true ↔
      Base64.decode a.inner.bytes = some s ∨
        (Base64.decode a.inner.bytes = none ∧ a.inner.bytes = s)) :=
  ⟨fun _ => eq_of_cmp_eq, fun _ => hashInput_eq_iff, eq_ascii_iff, eqBytes_ascii_iff,
    eq_binary_iff, eqBytes_binary_iff⟩

/-- Where the relations part: a padded and an unpadded encoding of one value are equal and
order apart, with different hash inputs; a value that differs only in its sensitivity flag is
equal with a different hash input; and the binary value of `abc` equals the string `abc`
while `partial_cmp` compares it with its encoding. -/
theorem compare_disagreement :
    let padded : MetadataValue .binary := fromSharedUnchecked (asBytes "SGVsbG8hIQ==")
    let unpadded : MetadataValue .binary := fromSharedUnchecked (asBytes "SGVsbG8hIQ")
    let plain : MetadataValue .ascii := ⟨⟨asBytes "abc", false⟩⟩
    let sensitive : MetadataValue .ascii := ⟨⟨asBytes "abc", true⟩⟩
    let abc : MetadataValue .binary := ⟨⟨Base64.encodeNoPad (asBytes "abc"), false⟩⟩
    (padded.eq unpadded = true ∧ padded.cmp unpadded ≠ .eq ∧
      padded.hashInput ≠ unpadded.hashInput) ∧
    (plain.eq sensitive = true ∧ plain.hashInput ≠ sensitive.hashInput) ∧
    (abc.eqBytes (asBytes "abc") = true ∧ abc.partialCmpBytes (asBytes "abc") ≠ some .eq) := by
  decide

/-! ## Binary values from bytes -/

/-- `from_bytes` never panics; its encoding is a valid header value that decodes back to the
input, it is empty exactly for the empty input, and two of them are equal exactly when their
inputs are. -/
theorem fromBytes_roundTrip (b : List UInt8) :
    ∃ v, fromBytes b = .ok v ∧ (∀ c ∈ v.asEncodedBytes, HeaderValue.isValid c) ∧
      v.toBytes = some b ∧ (v.isEmpty = true ↔ b = []) ∧
      ∀ b' v', fromBytes b' = .ok v' → (v.eq v' = true ↔ b = b') := by
  -- `from_bytes` is the unpadded encoding, as a header value
  have hfrom : ∀ b, fromBytes b = .ok ⟨⟨Base64.encodeNoPad b, false⟩⟩ := by
    intro b
    simp [fromBytes, tryFromBytes, Encoding.fromBytes_binary]
  refine ⟨_, hfrom b, Encoding.isValid_of_encodeNoPad b, Base64.decode_encodeNoPad b,
    Encoding.isEmpty_encodeNoPad b, fun b' v' h' => ?_⟩
  rw [hfrom b'] at h'
  cases h'
  rw [eq_binary_iff]
  simp [Base64.decode_encodeNoPad]

end MetadataValue

end Metadata

end TowerGrpc
