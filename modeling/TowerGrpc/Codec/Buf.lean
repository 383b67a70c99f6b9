import TowerGrpc.Lib.Buf
import Mathlib.Algebra.GroupWithZero.Nat

/-!
# `BufList` and `DecodeBuf`

The two buffers of `generic/codec.rs`. A `BufList` queues the body chunks received and not
yet read, front first; it shows only its front chunk as `bytes()`, and its `advance` pops
every chunk it consumes in full and cuts into the first one it does not. A `DecodeBuf`
shows a decoder the first `len` bytes of a `BufList` and, when dropped, advances the list
past whatever of them the decoder left.

`BufList` counts and advances right on every layout (`remaining_eq`, `advance_drop`), but
keeps the whole `Buf` contract only on the lists with no empty chunk (`BufList.lawful`):
`bytes()` is empty while bytes remain exactly when an empty chunk is at the front
(`bytes_empty_iff_front_empty`), and a `DecodeBuf` over such a list shows nothing either.
`DecodeBuf.lawful_on_good` is the contract on the first `len` bytes, and
`DecodeBuf.drop_advanceAll` shows that however a decoder advances, the list ends up
advanced by `len`, which is what the model of `Streaming::decode` uses.
-/

namespace TowerGrpc

open Rust

structure BufList where
  bufs : List (List UInt8)
  deriving DecidableEq, Repr

namespace BufList

def remaining (l : BufList) : Nat := (l.bufs.map List.length).sum

/-- `bytes()`: the front chunk, or nothing. -/
def bytes (l : BufList) : List UInt8 := l.bufs.headD []

/-- The `while cnt > 0` loop of `advance`; `self.bufs[0]` panics on an empty queue. -/
def advanceBufs : List (List UInt8) → Nat → M (List (List UInt8))
  | bufs, 0 => .ok bufs
  | [], _ + 1 => .error .panic
  | front :: rest, cnt + 1 =>
    if front.length > cnt + 1 then .ok (front.drop (cnt + 1) :: rest)
    else advanceBufs rest (cnt + 1 - front.length)

def advance (l : BufList) (cnt : Nat) : M BufList := BufList.mk <$> advanceBufs l.bufs cnt

/-- `has_remaining`, the default of `Buf`. -/
def hasRemaining (l : BufList) : Bool := 0 < l.remaining

/-- `self.bufs.bufs.push_back(data.into_buf())`. -/
def pushBack (l : BufList) (data : List UInt8) : BufList := ⟨l.bufs ++ [data]⟩

def ops : Buf.Ops BufList where
  remaining := remaining
  bytes := bytes
  advance := advance
  advance_zero l := by simp [advance, advanceBufs]

/-- The bytes a list stands for. -/
def content (l : BufList) : List UInt8 := l.bufs.flatten

/-- No chunk of the queue is empty. -/
def NoEmpty (l : BufList) : Prop := ∀ c ∈ l.bufs, c ≠ []

theorem remaining_eq (l : BufList) : l.remaining = l.content.length := by
  simp [remaining, content, List.length_flatten]

/-- `bytes()` is a prefix of the content on every layout: the front chunk. -/
theorem bytes_prefix (l : BufList) : l.bytes <+: l.content := by
  cases h : l.bufs with
  | nil => simp [bytes, h]
  | cons c cs => simp [bytes, content, h]

/-- While bytes remain, the slice is empty exactly when the front chunk is. -/
theorem bytes_eq_nil_iff {l : BufList} (hl : 0 < l.remaining) :
    l.bytes = [] ↔ ∃ rest, l.bufs = [] :: rest := by
  cases h : l.bufs with
  | nil => simp [remaining, h] at hl
  | cons c cs => simp [bytes, h]

@[simp] theorem content_pushBack (l : BufList) (data : List UInt8) :
    (l.pushBack data).content = l.content ++ data := by
  simp [pushBack, content]

theorem noEmpty_pushBack {l : BufList} (hl : l.NoEmpty) {data : List UInt8} (hd : data ≠ []) :
    (l.pushBack data).NoEmpty := by
  intro c hc
  rcases List.mem_append.mp hc with hc | hc
  · exact hl c hc
  · rwa [List.mem_singleton.mp hc]

/-- Advancing by at most what is left drops that many bytes and creates no empty chunk. -/
theorem advanceBufs_spec (bufs : List (List UInt8)) (n : Nat) (hn : n ≤ bufs.flatten.length) :
    ∃ r, advanceBufs bufs n = .ok r ∧ r.flatten = bufs.flatten.drop n ∧
      ((∀ c ∈ bufs, c ≠ []) → ∀ c ∈ r, c ≠ []) := by
  induction bufs generalizing n with
  | nil =>
    obtain rfl : n = 0 := by simpa using hn
    exact ⟨[], rfl, rfl, fun h => h⟩
  | cons front rest ih =>
    match n with
    | 0 => exact ⟨front :: rest, rfl, rfl, fun h => h⟩
    | k + 1 =>
      by_cases hfront : front.length > k + 1
      · refine ⟨front.drop (k + 1) :: rest, by simp [advanceBufs, hfront], ?_, ?_⟩
        · simp [List.drop_append_of_le_length hfront.le]
        · intro h c hc
          rcases List.mem_cons.mp hc with rfl | hc
          · simpa using hfront
          · exact h c (List.mem_cons_of_mem _ hc)
      · have hlen : k + 1 - front.length ≤ rest.flatten.length := by
          simp only [List.flatten_cons, List.length_append] at hn
          omega
        obtain ⟨r, hr, hflat, hne⟩ := ih (k + 1 - front.length) hlen
        have hdrop : front.drop (k + 1) = [] := List.drop_eq_nil_of_le (by omega)
        refine ⟨r, by simp [advanceBufs, hfront, hr], ?_, ?_⟩
        · rw [hflat, List.flatten_cons, List.drop_append, hdrop, List.nil_append]
        · exact fun h => hne fun c hc => h c (List.mem_cons_of_mem _ hc)

/-- Law (c) on every layout: advancing by at most what is left drops that many bytes, and
keeps a list without empty chunks so. -/
theorem advance_drop (l : BufList) (n : Nat) (hn : n ≤ l.content.length) :
    ∃ l', l.advance n = .ok l' ∧ l'.content = l.content.drop n ∧ (l.NoEmpty → l'.NoEmpty) := by
  obtain ⟨r, hr, hflat, hne⟩ := advanceBufs_spec l.bufs n hn
  exact ⟨⟨r⟩, by simp [advance, hr], hflat, hne⟩

/-- Two advances are one, when the second moves at all: `advance` stops as soon as its count
reaches zero, so an empty chunk it stopped in front of is popped by the next advance as it
would have been by one advance of the sum. -/
theorem advanceBufs_add (bufs : List (List UInt8)) (a : Nat) {b : Nat} (hb : 0 < b) :
    advanceBufs bufs (a + b) = advanceBufs bufs a >>= fun r => advanceBufs r b := by
  induction bufs generalizing a with
  | nil =>
    obtain ⟨b, rfl⟩ := Nat.exists_eq_add_of_lt hb
    cases a <;> simp [advanceBufs]
  | cons front rest ih =>
    match a with
    | 0 => simp [advanceBufs]
    | k + 1 =>
      obtain ⟨b, rfl⟩ := Nat.exists_eq_add_of_lt hb
      have hsum : k + 1 + (0 + b + 1) = (k + b + 1) + 1 := by omega
      rw [hsum]
      by_cases h1 : front.length > k + 1
      · -- the first advance stops inside the front chunk
        by_cases h2 : front.length > k + b + 1 + 1
        · have h3 : (front.drop (k + 1)).length > 0 + b + 1 := by simp; omega
          simp only [advanceBufs, if_pos h1, if_pos h2, Rust.ok_bind, if_pos h3, List.drop_drop]
          congr 3
          omega
        · have h3 : ¬ (front.drop (k + 1)).length > 0 + b + 1 := by simp; omega
          simp only [advanceBufs, if_pos h1, if_neg h2, Rust.ok_bind]
          rw [if_neg h3, List.length_drop]
          congr 1
          omega
      · -- the first advance pops the front chunk
        have h2 : ¬ front.length > k + b + 1 + 1 := by omega
        simp only [advanceBufs, if_neg h1, if_neg h2]
        rw [← ih (k + 1 - front.length)]
        congr 1
        omega

/-- The `Buf` contract holds on the lists with no empty chunk. -/
theorem lawful : Buf.Lawful ops NoEmpty content where
  remaining_eq l _ := remaining_eq l
  bytes_prefix l _ := bytes_prefix l
  bytes_ne_nil l hl hc := by
    cases h : l.bufs with
    | nil => simp [content, h] at hc
    | cons c cs => simpa [ops, bytes, h] using hl c (by simp [h])
  advance_drop l n hl hn := by
    obtain ⟨l', hl', hc, hne⟩ := advance_drop l n hn
    exact ⟨l', hl', hne hl, hc⟩

/-- An empty chunk in front of bytes left: `bytes()` is empty and `get_u8` indexes out of
bounds. -/
theorem getU8_of_front_nil {rest : List (List UInt8)} (hr : rest.flatten ≠ []) :
    Buf.getU8 ops ⟨[] :: rest⟩ = .error .panic := by
  apply Buf.getU8_of_bytes_eq_nil
  · simp only [ops, remaining_eq, content, List.flatten_cons, List.nil_append]
    exact List.length_pos_iff.mpr hr
  · rfl

end BufList

structure DecodeBuf where
  bufs : BufList
  len : Nat

namespace DecodeBuf

/-- `bytes()`: the list's front chunk cut to `len`. -/
def bytes (d : DecodeBuf) : List UInt8 :=
  let ret := d.bufs.bytes
  if ret.length > d.len then ret.take d.len else ret

/-- `advance`, asserting `cnt <= self.len`. -/
def advance (d : DecodeBuf) (cnt : Nat) : M DecodeBuf :=
  if cnt ≤ d.len then (fun bufs => ⟨bufs, d.len - cnt⟩) <$> d.bufs.advance cnt
  else .error .panic

def ops : Buf.Ops DecodeBuf where
  remaining := len
  bytes := bytes
  advance := advance
  advance_zero d := by simp [advance, BufList.advance, BufList.advanceBufs]

/-- `Drop`: advance the list past what the decoder left of its `len` bytes. -/
def drop (d : DecodeBuf) : M BufList := if d.len > 0 then d.bufs.advance d.len else .ok d.bufs

/-- `bytes()` is the front chunk cut to `len`: cutting a shorter chunk leaves it whole. -/
theorem bytes_eq_take (d : DecodeBuf) : d.bytes = d.bufs.bytes.take d.len := by
  unfold bytes
  dsimp only
  split_ifs with hlt
  · rfl
  · exact (List.take_of_length_le (by omega)).symm

/-- The bytes a `DecodeBuf` stands for: the first `len` of its list. -/
def content (d : DecodeBuf) : List UInt8 := d.bufs.content.take d.len

/-- A `DecodeBuf` as `Streaming::decode` hands one out: no more than the list holds, over a
list with no empty chunk. -/
def Good (d : DecodeBuf) : Prop := d.len ≤ d.bufs.remaining ∧ d.bufs.NoEmpty

theorem length_content {d : DecodeBuf} (hd : d.len ≤ d.bufs.remaining) :
    d.content.length = d.len := by
  rw [content, List.length_take, ← BufList.remaining_eq]
  omega

theorem bytes_prefix (d : DecodeBuf) : d.bytes <+: d.content := by
  rw [bytes_eq_take, content, List.prefix_take_iff]
  exact ⟨(List.take_prefix _ _).trans d.bufs.bytes_prefix, List.length_take_le _ _⟩

/-- Law (c) on every layout, within the first `len` bytes. -/
theorem advance_drop (d : DecodeBuf) (hd : d.len ≤ d.bufs.remaining) {n : Nat}
    (hn : n ≤ d.len) :
    ∃ d', d.advance n = .ok d' ∧ d'.len ≤ d'.bufs.remaining ∧
      d'.content = d.content.drop n ∧ (d.bufs.NoEmpty → d'.bufs.NoEmpty) := by
  have hw : n ≤ d.bufs.content.length := by rw [← BufList.remaining_eq]; omega
  obtain ⟨l, hl, hc, hne⟩ := d.bufs.advance_drop n hw
  refine ⟨⟨l, d.len - n⟩, by simp [advance, hn, hl], ?_, ?_, hne⟩
  · show d.len - n ≤ l.remaining
    rw [BufList.remaining_eq, hc, List.length_drop, ← BufList.remaining_eq]
    omega
  · show l.content.take (d.len - n) = (d.bufs.content.take d.len).drop n
    rw [hc, List.drop_take]

/-- The `Buf` contract on the first `len` bytes, for the `DecodeBuf`s that
`Streaming::decode` hands out. -/
theorem lawful_on_good : Buf.Lawful ops Good content where
  remaining_eq d hd := (length_content hd.1).symm
  bytes_prefix d _ := bytes_prefix d
  bytes_ne_nil d hd hc := by
    -- a byte to show means `len > 0` and a list whose front chunk is not empty
    have hlen : 0 < d.len := by
      rw [← length_content hd.1]
      exact List.length_pos_iff.mpr hc
    have hw : d.bufs.content ≠ [] := fun h => hc (by simp [content, h])
    have hfront : d.bufs.bytes ≠ [] := BufList.lawful.bytes_ne_nil d.bufs hd.2 hw
    show d.bytes ≠ []
    rw [bytes_eq_take]
    simpa [List.take_eq_nil_iff, hlen.ne'] using hfront
  advance_drop d n hd hn := by
    rw [length_content hd.1] at hn
    obtain ⟨d', hd', hrem, hc, hne⟩ := advance_drop d hd.1 hn
    exact ⟨d', hd', ⟨hrem, hne hd.2⟩, hc⟩

/-- Three bytes over the chunks `[1, 2]` and `[3, 4]`: advancing past two of them pops the
first chunk and leaves the third byte. -/
theorem lawful_on_good_split :
    Good ⟨⟨[[1, 2], [3, 4]]⟩, 3⟩ ∧
      ∃ d', ops.advance ⟨⟨[[1, 2], [3, 4]]⟩, 3⟩ 2 = .ok d' ∧ Good d' ∧ content d' = [3] := by
  have hgood : Good ⟨⟨[[1, 2], [3, 4]]⟩, 3⟩ := ⟨by decide, by simp [BufList.NoEmpty]⟩
  obtain ⟨d', hadv, hgood', hc⟩ := lawful_on_good.advance_drop _ 2 hgood (by decide)
  exact ⟨hgood, d', hadv, hgood', hc.trans (by decide)⟩

/-- `Drop` advances the list past exactly `len` bytes, on every layout. -/
theorem drop_content (d : DecodeBuf) (hd : d.len ≤ d.bufs.remaining) :
    ∃ l, d.drop = .ok l ∧ l.content = d.bufs.content.drop d.len := by
  unfold drop
  split_ifs with hpos
  · obtain ⟨l, hl, hc, -⟩ := d.bufs.advance_drop d.len (by rw [← BufList.remaining_eq]; exact hd)
    exact ⟨l, hl, hc⟩
  · exact ⟨d.bufs, rfl, by simp [show d.len = 0 by omega]⟩

/-- A decoder's advances, one after the other. -/
def advanceAll (d : DecodeBuf) : List Nat → M DecodeBuf
  | [] => .ok d
  | c :: cs => d.advance c >>= fun d' => d'.advanceAll cs

/-- However the decoder advances, the list it leaves is dropped to the list advanced by
`len` in one step. -/
theorem drop_advanceAll (d : DecodeBuf) (cs : List Nat) {d' : DecodeBuf}
    (h : d.advanceAll cs = .ok d') : d'.drop = d.bufs.advance d.len := by
  induction cs generalizing d with
  | nil =>
    obtain rfl : d = d' := by simpa [advanceAll] using h
    unfold drop
    split_ifs with hpos
    · rfl
    · simp [show d.len = 0 by omega, BufList.advance, BufList.advanceBufs]
  | cons c cs ih =>
    obtain ⟨d₁, h₁, h₂⟩ := Rust.bind_eq_ok.mp h
    unfold advance at h₁
    split_ifs at h₁ with hc
    cases hr : BufList.advanceBufs d.bufs.bufs c with
    | error e => simp [BufList.advance, hr] at h₁
    | ok r =>
      obtain rfl : d₁ = ⟨⟨r⟩, d.len - c⟩ := by
        simpa [BufList.advance, hr, eq_comm] using h₁
      rw [ih _ h₂]
      rcases Nat.eq_zero_or_pos (d.len - c) with hz | hz
      · simp [BufList.advance, BufList.advanceBufs, show d.len = c by omega, hr]
      · have hadd := BufList.advanceBufs_add d.bufs.bufs c hz
        rw [Nat.add_sub_cancel' hc, hr] at hadd
        simp only [BufList.advance, hadd]
        rfl

end DecodeBuf

namespace BufList

/-- Law (b) fails on exactly the lists with an empty chunk in front of bytes left, and a
`DecodeBuf` that is to show at least one byte of such a list shows none. -/
theorem bytes_empty_iff_front_empty (l : BufList) :
    (0 < l.remaining ∧ l.bytes = [] ↔ ∃ rest, l.bufs = [] :: rest ∧ rest.flatten ≠ []) ∧
    ∀ len, 0 < len → len ≤ l.remaining →
      (DecodeBuf.bytes ⟨l, len⟩ = [] ↔ ∃ rest, l.bufs = [] :: rest) := by
  constructor
  · constructor
    · rintro ⟨hpos, hb⟩
      obtain ⟨rest, hrest⟩ := (bytes_eq_nil_iff hpos).mp hb
      refine ⟨rest, hrest, ?_⟩
      rw [remaining_eq, content, hrest, List.flatten_cons, List.nil_append] at hpos
      exact List.ne_nil_of_length_pos hpos
    · rintro ⟨rest, hrest, hne⟩
      have hpos : 0 < l.remaining := by
        rw [remaining_eq, content, hrest, List.flatten_cons, List.nil_append]
        exact List.length_pos_iff.mpr hne
      exact ⟨hpos, (bytes_eq_nil_iff hpos).mpr ⟨rest, hrest⟩⟩
  · -- cutting the slice to a positive length keeps it empty or not
    intro len hlen hle
    simp only [DecodeBuf.bytes_eq_take, List.take_eq_nil_iff, hlen.ne', false_or]
    exact bytes_eq_nil_iff (by omega)

theorem bytes_empty_of_nil_chunk :
    (0 < BufList.remaining ⟨[[], [1]]⟩ ∧ BufList.bytes ⟨[[], [1]]⟩ = []) ∧
      DecodeBuf.bytes ⟨⟨[[], [1]]⟩, 1⟩ = [] :=
  ⟨(bytes_empty_iff_front_empty ⟨[[], [1]]⟩).1.mpr ⟨[[1]], rfl, by decide⟩,
    ((bytes_empty_iff_front_empty ⟨[[], [1]]⟩).2 1 (by decide) (by decide)).mpr ⟨[[1]], rfl⟩⟩

end BufList

end TowerGrpc
