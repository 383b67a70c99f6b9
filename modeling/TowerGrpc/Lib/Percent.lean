import TowerGrpc.Lib.Rust
import Mathlib.Tactic.IntervalCases

/-!
# Percent-encoding

The percent-encoding 1.x crate: `encode` writes each byte of an encode set as `%` and two
upper-case hex digits and every other byte as it is; `decode` replaces each `%` followed by
two hex digits, of either case, by the byte they spell and keeps every other byte. The
round trip `decode_encode` needs every `%` of the input encoded: a literal `%` left
unencoded in front of two hex digits is read back as an escape.
-/

namespace Percent

/-- The upper-case hex digit of a value below sixteen. -/
def hexDigit (v : Nat) : UInt8 := if v < 10 then UInt8.ofNat (48 + v) else UInt8.ofNat (55 + v)

/-- The value of a hex digit of either case (`char::to_digit(16)`). -/
def hexValue (c : UInt8) : Option Nat :=
  if 48 ≤ c ∧ c ≤ 57 then some (c.toNat - 48)
  else if 65 ≤ c ∧ c ≤ 70 then some (c.toNat - 55)
  else if 97 ≤ c ∧ c ≤ 102 then some (c.toNat - 87)
  else none

/-- `percent_encode(input, set).to_string()`, for an encode set given by its membership
test. -/
def encode (set : UInt8 → Bool) : List UInt8 → List UInt8
  | [] => []
  | b :: bs =>
    (if set b then [37, hexDigit (b.toNat / 16), hexDigit (b.toNat % 16)] else [b]) ++
      encode set bs

/-- `percent_decode(input)`, collected. -/
def decode : List UInt8 → List UInt8
  | [] => []
  | 37 :: h :: l :: rest =>
    match hexValue h, hexValue l with
    | some x, some y => UInt8.ofNat (x * 16 + y) :: decode rest
    | _, _ => 37 :: decode (h :: l :: rest)
  | b :: rest => b :: decode rest

/-- `SIMPLE_ENCODE_SET`: the C0 controls and every byte above `~`. -/
def simpleEncodeSet (b : UInt8) : Bool := b < 32 || 126 < b

/-- `DEFAULT_ENCODE_SET`: the simple set with space, `"`, `#`, `<`, `>` (the query set) and
`` ` ``, `?`, `{`, `}`. It does not hold `%`. -/
def defaultEncodeSet (b : UInt8) : Bool :=
  simpleEncodeSet b || b = 32 || b = 34 || b = 35 || b = 60 || b = 62 ||
    b = 96 || b = 63 || b = 123 || b = 125

theorem decode_cons_of_ne {b : UInt8} (hb : b ≠ 37) (rest : List UInt8) :
    decode (b :: rest) = b :: decode rest := by
  match rest with
  | [] => simp [decode]
  | [_] => simp [decode]
  | _ :: _ :: _ => simp [decode, hb]

theorem hexValue_hexDigit {v : Nat} (hv : v < 16) : hexValue (hexDigit v) = some v := by
  interval_cases v <;> decide

theorem hexDigit_range {v : Nat} (hv : v < 16) :
    48 ≤ (hexDigit v).toNat ∧ (hexDigit v).toNat ≤ 70 := by
  interval_cases v <;> decide

/-- Decoding undoes encoding when no byte left unencoded is a `%`: every `%` of the output
then starts an escape that `encode` wrote. -/
theorem decode_encode {set : UInt8 → Bool} {bs : List UInt8}
    (hpct : ∀ b ∈ bs, set b = false → b ≠ 37) : decode (encode set bs) = bs := by
  induction bs with
  | nil => rfl
  | cons b bs ih =>
    have hb := b.toNat_lt
    have ih' := ih (fun c hc => hpct c (List.mem_cons_of_mem b hc))
    by_cases hset : set b = true
    · rw [encode, if_pos hset, List.cons_append, List.cons_append, List.cons_append,
        List.nil_append, decode, hexValue_hexDigit (by omega), hexValue_hexDigit (by omega)]
      dsimp only
      rw [ih']
      rw [show b.toNat / 16 * 16 + b.toNat % 16 = b.toNat by omega, UInt8.ofNat_toNat]
    · -- an unencoded byte is not `%`, so `decode` passes it through
      have h37 : b ≠ 37 := hpct b List.mem_cons_self (by simpa using hset)
      rw [encode, if_neg hset, List.singleton_append, decode_cons_of_ne h37, ih']

/-- Without a `%`, decoding changes nothing. -/
theorem decode_of_not_mem {bs : List UInt8} (h : 37 ∉ bs) : decode bs = bs := by
  induction bs with
  | nil => rfl
  | cons b bs ih =>
    have hb : b ≠ 37 := fun hb => h (hb ▸ List.mem_cons_self)
    rw [decode_cons_of_ne hb, ih (fun h' => h (List.mem_cons_of_mem b h'))]

/-- Every byte `encode` writes is an unencoded input byte, a `%` or a hex digit. -/
theorem mem_encode {set : UInt8 → Bool} {bs : List UInt8} {c : UInt8} (hc : c ∈ encode set bs) :
    (c ∈ bs ∧ set c = false) ∨ c = 37 ∨ (48 ≤ c.toNat ∧ c.toNat ≤ 70) := by
  induction bs with
  | nil => simp [encode] at hc
  | cons b bs ih =>
    rw [encode, List.mem_append] at hc
    rcases hc with hc | hc
    · split_ifs at hc with hset
      · simp only [List.mem_cons, List.not_mem_nil, or_false] at hc
        rcases hc with rfl | rfl | rfl
        · exact .inr (.inl rfl)
        · exact .inr (.inr (hexDigit_range (by have := b.toNat_lt; omega)))
        · exact .inr (.inr (hexDigit_range (by omega)))
      · simp only [List.mem_singleton] at hc
        subst hc
        exact .inl ⟨by simp, by simpa using hset⟩
    · rcases ih hc with ⟨hmem, hset⟩ | h | h
      · exact .inl ⟨List.mem_cons_of_mem _ hmem, hset⟩
      · exact .inr (.inl h)
      · exact .inr (.inr h)

end Percent
