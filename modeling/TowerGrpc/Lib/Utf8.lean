import Mathlib.Data.List.Basic

/-!
# UTF-8 decoding with the errors of Rust's `core::str`

`decode` is `str::from_utf8` (as `Cow::decode_utf8` uses it): a valid byte string gives its
`String`, an invalid one the `Utf8Error` that `run_utf8_validation` reports, the offset of
the first bad sequence and its length, or no length when the input ends inside a sequence.
-/

namespace Utf8

/-- The bytes of a string, `str::as_bytes`. -/
def asBytes (s : String) : List UInt8 := s.toByteArray.data.toList

structure Utf8Error where
  validUpTo : Nat
  errorLen : Option Nat
  deriving DecidableEq, Repr

/-- `utf8_char_width`: the length of the sequence a first byte opens, zero for a byte that
opens none. -/
def charWidth (b : UInt8) : Nat :=
  if b < 0x80 then 1 else if b < 0xC2 then 0 else if b < 0xE0 then 2
  else if b < 0xF0 then 3 else if b < 0xF5 then 4 else 0

/-- A continuation byte (`byte as i8 < -64`). -/
def isCont (b : UInt8) : Bool := 0x80 ≤ b && b ≤ 0xBF

/-- The second byte of a three-byte sequence: no overlong form, no surrogate. -/
def second3 (first b : UInt8) : Bool :=
  (first = 0xE0 && 0xA0 ≤ b && b ≤ 0xBF) || (0xE1 ≤ first && first ≤ 0xEC && isCont b) ||
    (first = 0xED && 0x80 ≤ b && b ≤ 0x9F) || (0xEE ≤ first && isCont b)

/-- The second byte of a four-byte sequence: no overlong form, nothing above U+10FFFF. -/
def second4 (first b : UInt8) : Bool :=
  (first = 0xF0 && 0x90 ≤ b && b ≤ 0xBF) || (0xF1 ≤ first && first ≤ 0xF3 && isCont b) ||
    (first = 0xF4 && 0x80 ≤ b && b ≤ 0x8F)

/-- `run_utf8_validation` from offset `i`: the first error, if any. -/
def validate : List UInt8 → Nat → Option Utf8Error
  | [], _ => none
  | first :: rest, i =>
    if first < 0x80 then validate rest (i + 1)
    else
      match charWidth first, rest with
      | 2, b :: rest => if isCont b then validate rest (i + 2) else some ⟨i, some 1⟩
      | 3, b :: rest =>
        if !second3 first b then some ⟨i, some 1⟩
        else
          match rest with
          | c :: rest => if isCont c then validate rest (i + 3) else some ⟨i, some 2⟩
          | [] => some ⟨i, none⟩
      | 4, b :: rest =>
        if !second4 first b then some ⟨i, some 1⟩
        else
          match rest with
          | c :: d :: rest =>
            if !isCont c then some ⟨i, some 2⟩
            else if isCont d then validate rest (i + 4) else some ⟨i, some 3⟩
          | [_] | [] => some ⟨i, none⟩
      | 2, [] | 3, [] | 4, [] => some ⟨i, none⟩
      | _, _ => some ⟨i, some 1⟩

/-- `Display for Utf8Error`. -/
def Utf8Error.display (e : Utf8Error) : String :=
  match e.errorLen with
  | some n => s!"invalid utf-8 sequence of {n} bytes from index {e.validUpTo}"
  | none => s!"incomplete utf-8 byte sequence from index {e.validUpTo}"

/-- `str::from_utf8`. The string is Lean's decoding; the error, when Lean's decoder rejects
the bytes, is the one `run_utf8_validation` reports. -/
def decode (bs : List UInt8) : Except Utf8Error String :=
  match String.fromUTF8? ⟨bs.toArray⟩ with
  | some s => .ok s
  | none => .error ((validate bs 0).getD ⟨0, none⟩)

/-- The bytes of a string decode back to it. -/
theorem decode_asBytes (s : String) : decode (asBytes s) = .ok s := by
  have h : (⟨(asBytes s).toArray⟩ : ByteArray) = s.toByteArray :=
    ByteArray.ext (by simp [asBytes])
  simp only [decode, h, String.fromUTF8?, dif_pos s.isValidUTF8]
  rfl

end Utf8
