import TowerGrpc.Http
import TowerGrpc.Lib.Base64

/-!
# Metadata value encodings

`metadata/encoding.rs`. A metadata value is ASCII or binary, the two implementations of the
sealed `ValueEncoding` trait, and the key decides which: a binary key ends in `-bin`. A
binary value travels base64-encoded: `from_bytes` encodes without padding, `decode` takes
padding or none, and two binary values are equal when they decode to the same bytes, or when
neither decodes.

The trait's methods are functions of the encoding here; the keys are the bytes of the `&str`
they are given.
-/

namespace TowerGrpc

namespace Metadata

open Rust Http Utf8

/-- The `ValueEncoding` type parameter: `Ascii` or `Binary`. -/
inductive Encoding where
  | ascii
  | binary
  deriving DecidableEq, Repr

namespace Encoding

def binSuffix : List UInt8 := asBytes "-bin"

/-- `ValueEncoding::is_valid_key`: `key.ends_with("-bin")` for `Binary`, and
`!Binary::is_valid_key(key)` for `Ascii`. The key is taken as it is, case and all. -/
def isValidKey : Encoding → List UInt8 → Bool
  | ascii, key => !binSuffix.isSuffixOf key
  | binary, key => binSuffix.isSuffixOf key

/-- `Sealed::is_empty`: no bytes for `Ascii`; for `Binary`, no byte but the pad `=`. -/
def isEmpty : Encoding → List UInt8 → Bool
  | ascii, value => value.isEmpty
  | binary, value => value.all (· == 61)

/-- `Sealed::from_bytes`: the bytes themselves, or for `Binary` their base64 encoding without
padding, as a header value; `None` for `InvalidMetadataValueBytes`. -/
def fromBytes : Encoding → List UInt8 → Option HeaderValue
  | ascii, value => HeaderValue.fromShared value
  | binary, value => HeaderValue.fromShared (Base64.encodeNoPad value)

/-- `Sealed::from_shared`: `Binary` encodes through its `from_bytes`. -/
def fromShared : Encoding → List UInt8 → Option HeaderValue
  | ascii, value => HeaderValue.fromShared value
  | binary, value => fromBytes binary value

/-- `Sealed::from_static`: `Binary` panics on a string that is not base64. -/
def fromStatic : Encoding → String → M HeaderValue
  | ascii, value => HeaderValue.fromStatic value
  | binary, value =>
    if (Base64.decode (asBytes value)).isSome then .ok (HeaderValue.fromSharedUnchecked (asBytes value))
    else .error .panic

/-- `Sealed::decode`. -/
def decode : Encoding → List UInt8 → Option (List UInt8)
  | ascii, value => some value
  | binary, value => Base64.decode value

/-- `Sealed::equals`: a value against raw bytes. A binary value that does not decode is
compared as it is. -/
def equals : Encoding → HeaderValue → List UInt8 → Bool
  | ascii, a, b => a.bytes == b
  | binary, a, b =>
    match Base64.decode a.bytes with
    | some decoded => decoded == b
    | none => a.bytes == b

/-- `Sealed::values_equal`. `HeaderValue`'s own `==` compares the bytes only. -/
def valuesEqual : Encoding → HeaderValue → HeaderValue → Bool
  | ascii, a, b => a.bytes == b.bytes
  | binary, a, b =>
    let decodedA := decode binary a.bytes
    let decodedB := decode binary b.bytes
    if decodedA.isSome && decodedB.isSome then decodedA == decodedB
    else !decodedA.isSome && !decodedB.isSome

/-! ## Keys -/

/-- Every name is valid for exactly one encoding. -/
theorem isValidKey_ascii (key : List UInt8) : ascii.isValidKey key = !binary.isValidKey key :=
  rfl

/-! ## Binary values -/

/-- Two binary values are equal exactly when their decodings are: the same bytes, or no
bytes for either. -/
theorem valuesEqual_binary (a b : HeaderValue) :
    binary.valuesEqual a b = true ↔ Base64.decode a.bytes = Base64.decode b.bytes := by
  -- the comparison, over any two decodings
  have hcmp : ∀ x y : Option (List UInt8),
      (if (x.isSome && y.isSome) = true then x == y else !x.isSome && !y.isSome) = true ↔
        x = y := by
    intro x y
    cases x <;> cases y <;> simp
  exact hcmp _ _

/-- A binary value equals the bytes it decodes to, or, when it does not decode, its own. -/
theorem equals_binary (a : HeaderValue) (b : List UInt8) :
    binary.equals a b = true ↔
      Base64.decode a.bytes = some b ∨ (Base64.decode a.bytes = none ∧ a.bytes = b) := by
  simp only [equals]
  cases h : Base64.decode a.bytes <;> simp

/-- The base64 alphabet is visible ASCII, so an encoding is always a valid header value. -/
theorem isValid_of_encodeNoPad (input : List UInt8) :
    ∀ c ∈ Base64.encodeNoPad input, HeaderValue.isValid c := by
  intro c hc
  have hrange := Base64.decodeSym_isSome_range (Base64.encodeNoPad_isSome input c hc)
  have h32 : (32 : UInt8) ≤ c := UInt8.le_iff_toNat_le.mpr (by simp; omega)
  have h127 : c ≠ 127 := by
    intro h
    subst h
    simp at hrange
  simp [HeaderValue.isValid, h32, h127]

theorem fromBytes_binary (input : List UInt8) :
    binary.fromBytes input = some ⟨Base64.encodeNoPad input, false⟩ :=
  HeaderValue.fromShared_eq_some (isValid_of_encodeNoPad input)

/-- A binary encoding is empty, by `is_empty`'s reading of it, only for the empty input: an
encoding holds no pad. -/
theorem isEmpty_encodeNoPad (input : List UInt8) :
    binary.isEmpty (Base64.encodeNoPad input) = true ↔ input = [] := by
  unfold isEmpty
  constructor
  · intro h
    -- every byte would be a pad, and the encoding has none
    have hnil : Base64.encodeNoPad input = [] := by
      cases hc : Base64.encodeNoPad input with
      | nil => rfl
      | cons c cs =>
        have hpad : c = 61 := by simpa [hc] using (List.all_eq_true.mp h c (by simp [hc]))
        exact absurd hpad (Base64.encodeNoPad_ne_pad input c (by simp [hc]))
    exact Base64.encodeNoPad_eq_nil.mp hnil
  · rintro rfl
    rfl

end Encoding

end Metadata

end TowerGrpc
