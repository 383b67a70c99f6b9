import Mathlib.Tactic.IntervalCases

/-!
# Base64 with the standard alphabet

The codec of RFC 4648 section 4, as the base64 0.10 crate provides it: `encodeNoPad` is
`encode_config(.., STANDARD_NO_PAD)` and `decode` is `decode` with the `STANDARD`
configuration, where padding is optional. Both go through lists of six-bit values, so the
round trip `decode_encodeNoPad` is proved one group of three bytes at a time.
-/

namespace Base64

/-- The symbol of a six-bit value in the standard alphabet `A-Z a-z 0-9 + /`. -/
def encodeSym (v : Nat) : UInt8 :=
  if v < 26 then UInt8.ofNat (65 + v)
  else if v < 52 then UInt8.ofNat (97 + (v - 26))
  else if v < 62 then UInt8.ofNat (48 + (v - 52))
  else if v = 62 then 43
  else 47

/-- The six-bit value of a symbol of the standard alphabet; the pad `=` and every other byte
have none. -/
def decodeSym (c : UInt8) : Option Nat :=
  if 65 ≤ c ∧ c ≤ 90 then some (c.toNat - 65)
  else if 97 ≤ c ∧ c ≤ 122 then some (c.toNat - 97 + 26)
  else if 48 ≤ c ∧ c ≤ 57 then some (c.toNat - 48 + 52)
  else if c = 43 then some 62
  else if c = 47 then some 63
  else none

theorem decodeSym_encodeSym {v : Nat} (hv : v < 64) : decodeSym (encodeSym v) = some v := by
  interval_cases v <;> decide

/-- The six-bit values that encode a byte string, three bytes to four values; a last group
of one or two bytes gives two or three values, its low bits zero. -/
def encodeValues : List UInt8 → List Nat
  | [] => []
  | [a] => [a.toNat / 4, a.toNat % 4 * 16]
  | [a, b] => [a.toNat / 4, a.toNat % 4 * 16 + b.toNat / 16, b.toNat % 16 * 4]
  | a :: b :: c :: rest =>
    [a.toNat / 4, a.toNat % 4 * 16 + b.toNat / 16, b.toNat % 16 * 4 + c.toNat / 64,
      c.toNat % 64] ++ encodeValues rest

/-- `encode_config(input, STANDARD_NO_PAD)`. -/
def encodeNoPad (input : List UInt8) : List UInt8 := (encodeValues input).map encodeSym

/-- Bytes from six-bit values, four values to three bytes. A last group of one value is
an invalid length; the low bits a last group of two or three values leaves over must be
zero (`InvalidLastSymbol`). -/
def decodeValues : List Nat → Option (List UInt8)
  | [] => some []
  | [_] => none
  | [v0, v1] => if v1 % 16 = 0 then some [UInt8.ofNat (v0 * 4 + v1 / 16)] else none
  | [v0, v1, v2] =>
    if v2 % 4 = 0 then some [UInt8.ofNat (v0 * 4 + v1 / 16), UInt8.ofNat (v1 % 16 * 16 + v2 / 4)]
    else none
  | v0 :: v1 :: v2 :: v3 :: rest =>
    (fun out => [UInt8.ofNat (v0 * 4 + v1 / 16), UInt8.ofNat (v1 % 16 * 16 + v2 / 4),
      UInt8.ofNat (v2 % 4 * 64 + v3)] ++ out) <$> decodeValues rest

/-- Where the `=` padding may stand: only at the end, in the third and fourth place of the
last group of four, so a body of `n` symbols takes none, or up to `4 - n % 4` when
`n % 4` is two or three. -/
def padOk (n npad : Nat) : Bool :=
  npad = 0 || (n % 4 = 2 && npad ≤ 2) || (n % 4 = 3 && npad = 1)

/-- `decode` with the `STANDARD` configuration: padding is optional, every other byte must
be a symbol of the alphabet. -/
def decode (input : List UInt8) : Option (List UInt8) :=
  let npad := (input.reverse.takeWhile (· == 61)).length
  let body := input.take (input.length - npad)
  if padOk body.length npad then (body.mapM decodeSym).bind decodeValues else none

theorem ofNat_eq_of_toNat {a : UInt8} {n : Nat} (h : n = a.toNat) : UInt8.ofNat n = a := by
  subst h
  simp

theorem encodeValues_lt (input : List UInt8) : ∀ v ∈ encodeValues input, v < 64 := by
  fun_induction encodeValues input with
  | case1 => simp
  | case2 a => have := a.toNat_lt; simp; omega
  | case3 a b => have := a.toNat_lt; have := b.toNat_lt; simp; omega
  | case4 a b c rest ih =>
    have := a.toNat_lt; have := b.toNat_lt; have := c.toNat_lt
    intro v hv
    rcases List.mem_append.mp hv with hv | hv
    · simp only [List.mem_cons, List.not_mem_nil, or_false] at hv
      omega
    · exact ih v hv

theorem decodeValues_encodeValues (input : List UInt8) :
    decodeValues (encodeValues input) = some input := by
  fun_induction encodeValues input with
  | case1 => rfl
  | case2 a =>
    have := a.toNat_lt
    rw [decodeValues, if_pos (by omega), ofNat_eq_of_toNat (a := a) (by omega)]
  | case3 a b =>
    have := a.toNat_lt; have := b.toNat_lt
    rw [decodeValues, if_pos (by omega), ofNat_eq_of_toNat (a := a) (by omega),
      ofNat_eq_of_toNat (a := b) (by omega)]
  | case4 a b c rest ih =>
    have := a.toNat_lt; have := b.toNat_lt; have := c.toNat_lt
    rw [List.cons_append, List.cons_append, List.cons_append, List.cons_append, List.nil_append,
      decodeValues, ih,
      ofNat_eq_of_toNat (a := a) (by omega), ofNat_eq_of_toNat (a := b) (by omega),
      ofNat_eq_of_toNat (a := c) (by omega)]
    rfl

theorem encodeSym_ne_pad {v : Nat} (hv : v < 64) : encodeSym v ≠ 61 := by
  intro h
  have h61 : decodeSym 61 = none := by decide
  have := decodeSym_encodeSym hv
  rw [h, h61] at this
  cases this

/-- A symbol of the alphabet is a visible ASCII byte. -/
theorem decodeSym_isSome_range {c : UInt8} (h : (decodeSym c).isSome) :
    43 ≤ c.toNat ∧ c.toNat ≤ 122 := by
  unfold decodeSym at h
  split_ifs at h with h1 h2 h3 h4 h5
  all_goals simp only [UInt8.le_iff_toNat_le, UInt8.toNat_ofNat] at *
  all_goals first | omega | (subst_vars; decide) | simp at h

theorem mapM_decodeSym (vs : List Nat) (h : ∀ v ∈ vs, v < 64) :
    (vs.map encodeSym).mapM decodeSym = some vs := by
  induction vs with
  | nil => rfl
  | cons v vs ih =>
    rw [List.map_cons, List.mapM_cons, decodeSym_encodeSym (h v (by simp)),
      ih (fun w hw => h w (by simp [hw]))]
    rfl

theorem encodeNoPad_ne_pad (input : List UInt8) : ∀ c ∈ encodeNoPad input, c ≠ 61 := by
  intro c hc
  obtain ⟨v, hv, rfl⟩ := List.mem_map.mp hc
  exact encodeSym_ne_pad (encodeValues_lt input v hv)

theorem encodeNoPad_isSome (input : List UInt8) :
    ∀ c ∈ encodeNoPad input, (decodeSym c).isSome := by
  intro c hc
  obtain ⟨v, hv, rfl⟩ := List.mem_map.mp hc
  simp [decodeSym_encodeSym (encodeValues_lt input v hv)]

@[simp] theorem encodeNoPad_eq_nil {input : List UInt8} :
    encodeNoPad input = [] ↔ input = [] := by
  unfold encodeNoPad
  fun_cases encodeValues input <;> simp

/-- A string without `=` is all body: `decode` reads its symbols. -/
theorem decode_of_ne_pad {input : List UInt8} (h : ∀ c ∈ input, c ≠ 61) :
    decode input = (input.mapM decodeSym).bind decodeValues := by
  have hpad : (input.reverse.takeWhile (· == 61)).length = 0 := by
    cases hr : input.reverse with
    | nil => rfl
    | cons c cs =>
      have hc : c ≠ 61 := h c (List.mem_reverse.mp (by simp [hr]))
      simp [hc]
  simp [decode, hpad, padOk]

/-- The encoder's output decodes back to its input, for every length modulo three. -/
theorem decode_encodeNoPad (input : List UInt8) : decode (encodeNoPad input) = some input := by
  rw [decode_of_ne_pad (encodeNoPad_ne_pad input), encodeNoPad,
    mapM_decodeSym _ (encodeValues_lt input)]
  exact decodeValues_encodeValues input

end Base64
