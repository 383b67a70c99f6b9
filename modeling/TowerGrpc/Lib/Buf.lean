import TowerGrpc.Lib.Rust
import Mathlib.Data.List.Infix

/-!
# The `Buf` trait of bytes 0.4

A reader over a byte sequence that need not be contiguous: `remaining` counts the bytes
left, `bytes` shows a slice at the cursor that may be shorter than what is left, and
`advance` moves the cursor. The provided methods `get_u8`, `copy_to_slice` and `get_u32_be`
are written over these three as bytes 0.4 writes them. `Buf.Lawful` is the contract that
makes them read the sequence a state stands for; the spec lemmas at the end say what they
return under it.
-/

namespace Buf

open Rust

/-- The three required methods of an implementation, on states `σ`. Advancing by zero
leaves the state as it is, as in every implementation of this development: `copyLoop`
reads it as "the loop repeats its state". -/
structure Ops (σ : Type) where
  remaining : σ → Nat
  bytes : σ → List UInt8
  advance : σ → Nat → M σ
  advance_zero : ∀ s, advance s 0 = .ok s

variable {σ : Type} (B : Ops σ)

/-- `Buf::get_u8`: `bytes()[0]`, then advance by one. -/
def getU8 (s : σ) : M (UInt8 × σ) :=
  if B.remaining s < 1 then .error .panic
  else
    match B.bytes s with
    | [] => .error .panic
    | b :: _ => do
      let s' ← B.advance s 1
      pure (b, s')

/-- The loop of `Buf::copy_to_slice` with `n` bytes still to copy. The source adds
`src.len()` to its offset where it copied `min(src.len(), n)`: both end the loop when the
slice covers the rest. An empty slice copies nothing and advances by zero, so the loop
comes back to the same state and never ends. -/
def copyLoop (s : σ) (n : Nat) : M (List UInt8 × σ) :=
  if _hn : n = 0 then .ok ([], s)
  else
    let src := B.bytes s
    if _hsrc : src = [] then .error .diverge
    else do
      let s' ← B.advance s (min src.length n)
      let (rest, s'') ← copyLoop s' (n - min src.length n)
      pure (src.take n ++ rest, s'')
termination_by n
decreasing_by
  have : 0 < (B.bytes s).length := List.length_pos_iff.mpr _hsrc
  omega

/-- `Buf::copy_to_slice` into a slice of length `n`. -/
def copyToSlice (s : σ) (n : Nat) : M (List UInt8 × σ) :=
  if B.remaining s < n then .error .panic else copyLoop B s n

/-- The big-endian number a byte string spells (`BigEndian::read_u32` on four bytes). -/
def beValue (bs : List UInt8) : Nat := bs.foldl (fun acc b => acc * 256 + b.toNat) 0

/-- `Buf::get_u32_be`, the `buf_get_impl!` macro: read in place when `bytes()` holds four
bytes, else copy them out through `copy_to_slice`. -/
def getU32Be (s : σ) : M (Nat × σ) :=
  let src := B.bytes s
  if 4 ≤ src.length then do
    let s' ← B.advance s 4
    pure (beValue (src.take 4), s')
  else do
    let (bs, s') ← copyToSlice B s 4
    pure (beValue bs, s')

/-! ## The contract -/

/-- What the provided methods need of an implementation, on the states `Good` admits.
`content s` is the byte sequence `s` stands for; `remaining` is its length, `bytes` is a
prefix of it that is empty only at its end, and advancing by at most `remaining` keeps
`Good` and drops that many bytes. -/
structure Lawful (Good : σ → Prop) (content : σ → List UInt8) : Prop where
  remaining_eq : ∀ s, Good s → B.remaining s = (content s).length
  bytes_prefix : ∀ s, Good s → B.bytes s <+: content s
  bytes_ne_nil : ∀ s, Good s → content s ≠ [] → B.bytes s ≠ []
  advance_drop : ∀ s n, Good s → n ≤ (content s).length →
    ∃ s', B.advance s n = .ok s' ∧ Good s' ∧ content s' = (content s).drop n

variable {B} {Good : σ → Prop} {content : σ → List UInt8}

/-- Under the contract the slice `bytes` agrees with the content on its first `n` bytes, as
far as it reaches. -/
theorem take_bytes (hB : Lawful B Good content) {s : σ} (hs : Good s) (n : Nat) :
    (B.bytes s).take n = (content s).take (min (B.bytes s).length n) := by
  obtain ⟨t, ht⟩ := hB.bytes_prefix s hs
  rw [← ht, List.take_append_of_le_length (by omega), List.take_eq_take_min, min_comm]

theorem copyLoop_spec (hB : Lawful B Good content) (n : Nat) {s : σ} (hs : Good s)
    (hn : n ≤ (content s).length) :
    ∃ s', copyLoop B s n = .ok ((content s).take n, s') ∧ Good s' ∧
      content s' = (content s).drop n := by
  induction n using Nat.strong_induction_on generalizing s with
  | _ n ih =>
    rcases Nat.eq_zero_or_pos n with rfl | hpos
    · exact ⟨s, by rw [copyLoop]; simp, hs, by simp⟩
    -- a nonempty rest means a nonempty slice, so each turn of the loop advances
    have hne : B.bytes s ≠ [] :=
      hB.bytes_ne_nil s hs (List.ne_nil_of_length_pos (by omega))
    have hlen : 0 < (B.bytes s).length := List.length_pos_iff.mpr hne
    have hle : (B.bytes s).length ≤ (content s).length := (hB.bytes_prefix s hs).length_le
    set k := min (B.bytes s).length n with hk
    obtain ⟨s₁, hadv, hs₁, hc₁⟩ := hB.advance_drop s k hs (by omega)
    obtain ⟨s₂, hrest, hs₂, hc₂⟩ :=
      ih (n - k) (by omega) hs₁ (by rw [hc₁, List.length_drop]; omega)
    refine ⟨s₂, ?_, hs₂, by rw [hc₂, hc₁, List.drop_drop]; congr 1; omega⟩
    rw [copyLoop, dif_neg (by omega), dif_neg hne]
    simp only [hadv, hrest, ← hk, Rust.ok_bind, Rust.pure_eq_ok, hc₁]
    rw [take_bytes hB hs, ← hk, ← List.take_add, Nat.add_sub_cancel' (min_le_right _ _)]

/-- `get_u8` reads the first byte of the content. -/
theorem getU8_spec (hB : Lawful B Good content) {s : σ} (hs : Good s) {b : UInt8}
    {w : List UInt8} (hc : content s = b :: w) :
    ∃ s', getU8 B s = .ok (b, s') ∧ Good s' ∧ content s' = w := by
  have hne := hB.bytes_ne_nil s hs (by simp [hc])
  obtain ⟨s', hadv, hs', hc'⟩ := hB.advance_drop s 1 hs (by simp [hc])
  obtain ⟨c, cs, hbytes⟩ := List.exists_cons_of_ne_nil hne
  have hb : c = b := by
    have h := hB.bytes_prefix s hs
    rw [hbytes, hc] at h
    exact (List.cons_prefix_cons.mp h).1
  refine ⟨s', ?_, hs', by simp [hc', hc]⟩
  rw [getU8, if_neg (by rw [hB.remaining_eq s hs, hc]; simp), hbytes]
  simp [hadv, hb]

/-- `get_u32_be` reads the first four bytes of the content, in place or through
`copy_to_slice` alike. -/
theorem getU32Be_spec (hB : Lawful B Good content) {s : σ} (hs : Good s)
    (h4 : 4 ≤ (content s).length) :
    ∃ s', getU32Be B s = .ok (beValue ((content s).take 4), s') ∧ Good s' ∧
      content s' = (content s).drop 4 := by
  by_cases hin : 4 ≤ (B.bytes s).length
  · obtain ⟨s', hadv, hs', hc'⟩ := hB.advance_drop s 4 hs h4
    refine ⟨s', ?_, hs', hc'⟩
    simp only [getU32Be, if_pos hin, hadv, Rust.ok_bind, Rust.pure_eq_ok]
    rw [take_bytes hB hs, min_eq_right hin]
  · obtain ⟨s', hcopy, hs', hc'⟩ := copyLoop_spec hB 4 hs h4
    refine ⟨s', ?_, hs', hc'⟩
    have hrem : ¬ B.remaining s < 4 := by rw [hB.remaining_eq s hs]; omega
    simp [getU32Be, if_neg hin, copyToSlice, hrem, hcopy]

/-! ## Failures on an empty slice -/

/-- With bytes left but an empty slice, `get_u8` indexes out of bounds. -/
theorem getU8_of_bytes_eq_nil {s : σ} (hr : 1 ≤ B.remaining s) (hb : B.bytes s = []) :
    getU8 B s = .error .panic := by
  simp [getU8, hb, Nat.not_lt.mpr hr]

/-- With bytes to copy but an empty slice, the loop of `copy_to_slice` never ends. -/
theorem copyLoop_of_bytes_eq_nil {s : σ} {n : Nat} (hn : 0 < n) (hb : B.bytes s = []) :
    copyLoop B s n = .error .diverge := by
  rw [copyLoop, dif_neg (by omega), dif_pos hb]

end Buf
