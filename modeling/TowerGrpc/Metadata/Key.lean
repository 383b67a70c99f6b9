import TowerGrpc.Metadata.Encoding

/-!
# Metadata keys

`metadata/key.rs`. A `MetadataKey<VE>` is a header name under the encoding `VE`. Its public
constructors check the name against `VE::is_valid_key` after `HeaderName` has parsed it and
folded its case, so each key they make is valid for its encoding (`Valid`). `from_bytes`,
though, meets a name of the other encoding with `panic!` where its `Result` has an error for
it (`fromBytes_of_invalid`).
-/

namespace TowerGrpc

namespace Metadata

open Rust Http Utf8

structure MetadataKey (ve : Encoding) where
  inner : HeaderName
  deriving DecidableEq

namespace MetadataKey

variable {ve : Encoding}

/-- `MetadataKey::from_bytes`: `None` for `InvalidMetadataKey`. -/
def fromBytes (ve : Encoding) (src : List UInt8) : M (Option (MetadataKey ve)) :=
  match HeaderName.fromBytes src with
  | some name =>
    -- `panic!("invalid metadata key")`
    if !ve.isValidKey name.bytes then .error .panic else .ok (some ⟨name⟩)
  | none => .ok none

/-- `MetadataKey::from_static`. -/
def fromStatic (ve : Encoding) (src : String) : M (MetadataKey ve) := do
  let name ← HeaderName.fromStatic (asBytes src)
  if !ve.isValidKey name.bytes then .error .panic else pure ⟨name⟩

/-- `FromStr for MetadataKey`: `from_bytes` of the string's bytes. -/
def fromStr (ve : Encoding) (s : String) : M (Option (MetadataKey ve)) :=
  fromBytes ve (asBytes s)

/-- A key that names a header of its own encoding. -/
def Valid (k : MetadataKey ve) : Prop := ve.isValidKey k.inner.bytes = true

instance (k : MetadataKey ve) : Decidable k.Valid := decEq (ve.isValidKey k.inner.bytes) true

section FromBytes

variable {src : List UInt8} {name : HeaderName}

theorem fromBytes_of_valid (h : HeaderName.fromBytes src = some name)
    (hv : ve.isValidKey name.bytes = true) : fromBytes ve src = .ok (some ⟨name⟩) := by
  simp [fromBytes, h, hv]

/-- A name of the other encoding makes `from_bytes`, and so `parse`, panic. -/
theorem fromBytes_of_invalid (h : HeaderName.fromBytes src = some name)
    (hv : ve.isValidKey name.bytes = false) : fromBytes ve src = .error .panic := by
  simp [fromBytes, h, hv]

theorem fromBytes_none (h : HeaderName.fromBytes src = none) : fromBytes ve src = .ok none := by
  simp [fromBytes, h]

end FromBytes

theorem fromStr_bin_ascii : fromStr .ascii "x-bin" = .error .panic := by
  -- a static name is found again by `from_bytes`, its bytes unchanged
  obtain ⟨k, hk⟩ :=
    exists_eq_ok_of_toBool (x := HeaderName.fromStatic (asBytes "x-bin")) (by decide)
  have h := HeaderName.fromBytes_of_fromStatic hk
  exact fromBytes_of_invalid h (by rw [HeaderName.bytes_fromBytes h]; decide)

/-! ## What the constructors make -/

theorem valid_of_fromBytes {src : List UInt8} {k : MetadataKey ve}
    (h : fromBytes ve src = .ok (some k)) : k.Valid := by
  unfold fromBytes at h
  split at h
  · split at h
    · cases h
    · rename_i hv
      cases h
      simpa [Valid] using hv
  · cases h

theorem valid_of_fromStatic {src : String} {k : MetadataKey ve}
    (h : fromStatic ve src = .ok k) : k.Valid := by
  obtain ⟨name, -, h⟩ := bind_eq_ok.mp h
  split at h
  · cases h
  · rename_i hv
    cases h
    simpa [Valid] using hv

end MetadataKey

end Metadata

end TowerGrpc
