import TowerGrpc.Codec.Streaming
import TowerGrpc.Codec.Encode

/-!
# Round trip: `Streaming` reads back what `Encode` sends

`Encode` sends each message as one frame: a zero flag, the four-byte length and the message
(`Encode.runData_eq_specRun`). `Streaming` reads the frames back however their bytes are split
into non-empty chunks. The invariant of the proof is `Expecting`: the bytes still to be
decoded, those in the queue followed by those still to arrive, are the frames of the items
still to come, or, in `ReadBody`, the rest of the first such frame after its header.

An empty chunk is the split this does not cover. `BufList::bytes` is then an empty front
chunk while bytes remain, and the next `get_u8` indexes past its end.
-/

namespace TowerGrpc

open Rust

variable {α : Type}

theorem beValue_be32 {n : Nat} (hn : n < 2 ^ 32) : Buf.beValue (be32 n) = n := by
  simp [Buf.beValue, be32]
  omega

/-- The bytes of the frames of `xs`, one after the other. -/
def frames (enc : Encoder α) (xs : List α) : List UInt8 := (xs.map fun x => frame (enc x).1).flatten

@[simp] theorem frames_nil (enc : Encoder α) : frames enc [] = [] := rfl

@[simp] theorem frames_cons (enc : Encoder α) (x : α) (xs : List α) :
    frames enc (x :: xs) = frame (enc x).1 ++ frames enc xs := rfl

theorem length_frame (msg : List UInt8) : (frame msg).length = msg.length + 5 := by
  simp [frame]
  omega

/-- Two splits of one list: the shorter front is a prefix of the longer one. -/
theorem take_drop_of_append_eq {c p e f : List UInt8} (h : c ++ p = e ++ f)
    (hl : e.length ≤ c.length) : c.take e.length = e ∧ c.drop e.length ++ p = f := by
  have htake := congrArg (List.take e.length) h
  have hdrop := congrArg (List.drop e.length) h
  rw [List.take_append_of_le_length hl, List.take_left] at htake
  rw [List.drop_append_of_le_length hl, List.drop_left] at hdrop
  exact ⟨htake, hdrop⟩

/-- The decoder reads back what the encoder writes: handed a `DecodeBuf` over a queue with
no empty chunk whose first `len` bytes are the bytes written for `x`, it returns `x`. -/
def Reads (enc : Encoder α) (dec : Decoder α) : Prop :=
  ∀ x (d : DecodeBuf), d.bufs.NoEmpty → d.len = (enc x).1.length →
    d.bufs.content.take d.len = (enc x).1 → dec d = .ok x

namespace Streaming

section RoundTrip

variable (enc : Encoder α) (dec : Decoder α)

/-- What the state and the bytes `w` still to be decoded say about the items `xs` still to
come. -/
def Expecting (xs : List α) : State → List UInt8 → Prop
  | .readHeader, w => w = frames enc xs
  | .readBody _ len, w =>
    ∃ x xs', xs = x :: xs' ∧ len = (enc x).1.length ∧ w = (enc x).1 ++ frames enc xs'
  | .done, _ => False

/-- The invariant of a round trip, with `pending` the bytes still to arrive. -/
structure Inv (xs : List α) (s : Streaming) (pending : List UInt8) : Prop where
  noEmpty : s.bufs.NoEmpty
  fits : ∀ x ∈ xs, (enc x).1.length < 2 ^ 32
  expecting : Expecting enc xs s.state (s.bufs.content ++ pending)

variable {enc dec}

theorem Inv.state_ne_done {xs : List α} {s : Streaming} {pending : List UInt8}
    (h : Inv enc xs s pending) : s.state ≠ .done := by
  intro hd
  have := h.expecting
  rw [hd] at this
  exact this

/-- A new stream, over chunks that concatenate to the frames of `xs`. -/
theorem inv_new {xs : List α} {cs : List (List UInt8)}
    (hfit : ∀ x ∈ xs, (enc x).1.length < 2 ^ 32) (hflat : cs.flatten = frames enc xs)
    (direction : Direction) : Inv enc xs (new direction) cs.flatten :=
  ⟨by simp [new, BufList.NoEmpty], hfit, by simp [new, Expecting, BufList.content, hflat]⟩

/-- The `ReadBody` step: either the message is all there and the decoder returns its item,
or the decoder waits, and then more bytes are still to arrive. -/
theorem decodeBody_spec (hdec : Reads enc dec) {s : Streaming} (hs : s.bufs.NoEmpty)
    {x : α} {xs : List α} {pending : List UInt8}
    (hw : s.bufs.content ++ pending = (enc x).1 ++ frames enc xs) :
    (decodeBody dec s (enc x).1.length = .ok (.ok none, s) ∧ pending ≠ []) ∨
    ∃ bufs : BufList, decodeBody dec s (enc x).1.length =
        .ok (.ok (some x), { s with bufs, state := .readHeader }) ∧
      bufs.NoEmpty ∧ bufs.content ++ pending = frames enc xs := by
  by_cases hlt : s.bufs.remaining < (enc x).1.length
  · refine .inl ⟨by simp [decodeBody, hlt], ?_⟩
    rintro rfl
    have hlen := congrArg List.length hw
    rw [BufList.remaining_eq] at hlt
    simp at hlen
    omega
  · have hle : (enc x).1.length ≤ s.bufs.content.length := by
      rw [← BufList.remaining_eq]
      omega
    obtain ⟨bufs, hadv, hne, hc⟩ := BufList.lawful.advance_drop s.bufs _ hs hle
    obtain ⟨htake, hdrop⟩ := take_drop_of_append_eq hw hle
    have hx : dec ⟨s.bufs, (enc x).1.length⟩ = .ok x := hdec x _ hs rfl htake
    refine .inr ⟨bufs, ?_, hne, by rw [hc, hdrop]⟩
    change s.bufs.advance _ = _ at hadv
    simp [decodeBody, hlt, hadv, hx]

/-- The header step: with five bytes buffered and an item still to come, the flag is zero
and the length is that item's, so `decode` reads on into the `ReadBody` step. -/
theorem decode_header {bufs : BufList} (hne : bufs.NoEmpty) {x : α} {xs : List α}
    {pending : List UInt8} (hfit : (enc x).1.length < 2 ^ 32)
    (hw : bufs.content ++ pending = frames enc (x :: xs)) (h5 : 5 ≤ bufs.remaining) :
    ∃ b₁ b₂, Buf.getU8 BufList.ops bufs = .ok (0, b₁) ∧
      Buf.getU32Be BufList.ops b₁ = .ok ((enc x).1.length, b₂) ∧
      b₂.NoEmpty ∧ b₂.content ++ pending = (enc x).1 ++ frames enc xs := by
  have hw' : bufs.content ++ pending =
      (0 :: be32 (enc x).1.length) ++ ((enc x).1 ++ frames enc xs) := by
    simpa [frame] using hw
  have hle : (0 :: be32 (enc x).1.length).length ≤ bufs.content.length := by
    rw [← BufList.remaining_eq]
    simpa using h5
  obtain ⟨hhead, hrest⟩ := take_drop_of_append_eq hw' hle
  have hpos : 0 < bufs.content.length := by
    simp only [List.length_cons, length_be32] at hle
    omega
  obtain ⟨c, t, ht⟩ := List.exists_cons_of_ne_nil (List.ne_nil_of_length_pos hpos)
  rw [ht] at hhead hrest
  simp only [List.length_cons, length_be32, List.take_succ_cons, List.drop_succ_cons,
    List.cons.injEq] at hhead hrest
  obtain ⟨rfl, h4⟩ := hhead
  obtain ⟨b₁, hget₁, hne₁, hc₁⟩ := Buf.getU8_spec BufList.lawful hne ht
  have ht4 : 4 ≤ b₁.content.length := by
    have := congrArg List.length h4
    rw [hc₁]
    simp at this
    omega
  obtain ⟨b₂, hget₂, hne₂, hc₂⟩ := Buf.getU32Be_spec BufList.lawful hne₁ ht4
  refine ⟨b₁, b₂, hget₁, ?_, hne₂, by rw [hc₂, hc₁, hrest]⟩
  rw [hget₂, hc₁, h4, beValue_be32 hfit]

/-- `decode` in a `ReadBody` state: the item the state expects, or a wait while more bytes
are still to arrive. -/
theorem decode_readBody (hdec : Reads enc dec) {xs : List α} {bufs : BufList} {c : Bool}
    {len : Nat} {dir : Direction} {pending : List UInt8}
    (hinv : Inv enc xs ⟨bufs, .readBody c len, dir⟩ pending) :
    (∃ s', decode dec ⟨bufs, .readBody c len, dir⟩ = .ok (.ok none, s') ∧ s'.direction = dir ∧
      Inv enc xs s' pending ∧ (pending = [] → xs = [] ∧ s'.bufs.content = [])) ∨
    (∃ x xs' s', xs = x :: xs' ∧ decode dec ⟨bufs, .readBody c len, dir⟩ = .ok (.ok (some x), s') ∧
      s'.direction = dir ∧ Inv enc xs' s' pending) := by
  obtain ⟨hne, hfits, x, xs', rfl, rfl, hw⟩ := hinv
  rcases decodeBody_spec (s := ⟨bufs, .readBody c (enc x).1.length, dir⟩) hdec hne hw with
    ⟨hbody, hp⟩ | ⟨bufs', hbody, hne', hw'⟩
  · exact .inl ⟨_, hbody, rfl, ⟨hne, hfits, x, xs', rfl, rfl, hw⟩, fun h => absurd h hp⟩
  · exact .inr ⟨x, xs', _, rfl, hbody, rfl,
      ⟨hne', fun y hy => hfits y (List.mem_cons_of_mem x hy), hw'⟩⟩

/-- One `decode`: it returns the next item, or it waits, and then either more bytes are
still to arrive or nothing is left at all. -/
theorem decode_spec (hdec : Reads enc dec) {xs : List α} {s : Streaming} {pending : List UInt8}
    (hinv : Inv enc xs s pending) :
    (∃ s', decode dec s = .ok (.ok none, s') ∧ s'.direction = s.direction ∧
      Inv enc xs s' pending ∧ (pending = [] → xs = [] ∧ s'.bufs.content = [])) ∨
    (∃ x xs' s', xs = x :: xs' ∧ decode dec s = .ok (.ok (some x), s') ∧
      s'.direction = s.direction ∧ Inv enc xs' s' pending) := by
  obtain ⟨hne, hfits, hexp⟩ := hinv
  obtain ⟨bufs, state, dir⟩ := s
  dsimp only at hne hexp
  cases state with
  | readHeader =>
    simp only [Expecting] at hexp
    by_cases h5 : bufs.remaining < 5
    · refine .inl ⟨_, by simp [decode, h5], rfl, ⟨hne, hfits, hexp⟩, ?_⟩
      rintro rfl
      rw [List.append_nil] at hexp
      rw [BufList.remaining_eq, hexp] at h5
      cases xs with
      | nil => exact ⟨rfl, hexp⟩
      | cons x xs =>
        simp [length_frame] at h5
        omega
    · -- a whole header is buffered, so an item is still to come, and `decode` reads on
      -- into its `ReadBody` step
      obtain ⟨x, xs, rfl⟩ : ∃ x xs', xs = x :: xs' := by
        cases xs with
        | nil =>
          rw [BufList.remaining_eq, (List.append_eq_nil_iff.mp hexp).1] at h5
          simp at h5
        | cons x xs => exact ⟨x, xs, rfl⟩
      obtain ⟨b₁, b, hget₁, hget₂, hne', hw⟩ :=
        decode_header hne (hfits x (List.mem_cons_self)) hexp (by omega)
      have hdecode : decode dec ⟨bufs, .readHeader, dir⟩ =
          decode dec ⟨b, .readBody false (enc x).1.length, dir⟩ := by
        simp [decode, h5, hget₁, hget₂]
      rw [hdecode]
      exact decode_readBody hdec ⟨hne', hfits, x, xs, rfl, rfl, hw⟩
  | readBody c len => exact decode_readBody hdec ⟨hne, hfits, hexp⟩
  | done => exact hexp.elim

/-- With no item to come, nothing is still to arrive. -/
theorem Inv.pending_eq_nil {s : Streaming} {pending : List UInt8} (h : Inv enc [] s pending) :
    pending = [] := by
  obtain ⟨-, -, hexp⟩ := h
  cases hst : s.state with
  | readHeader =>
    rw [hst] at hexp
    exact (List.append_eq_nil_iff.mp hexp).2
  | readBody c len =>
    rw [hst] at hexp
    obtain ⟨x, xs, hxs, -⟩ := hexp
    cases hxs
  | done =>
    rw [hst] at hexp
    exact hexp.elim

theorem eq_nil_of_flatten_eq_nil {cs : List (List UInt8)} (hcs : ∀ c ∈ cs, c ≠ [])
    (h : cs.flatten = []) : cs = [] := by
  cases cs with
  | nil => rfl
  | cons c cs => exact absurd (List.flatten_eq_nil_iff.mp h c (by simp)) (hcs c (by simp))

/-- The loop of `poll` with an item still to come pulls chunks until the item's frame is
buffered, and returns the item. -/
theorem pollLoop_item (hdec : Reads enc dec) {x : α} {xs : List α} {cs : List (List UInt8)}
    (hcs : ∀ c ∈ cs, c ≠ []) {s : Streaming}
    (hinv : Inv enc (x :: xs) s cs.flatten) :
    ∃ (s' : Streaming) (cs' : List (List UInt8)), pollLoop dec s (cs.map .data ++ [.eof]) =
        .ok (.ret (.ok (.ready (some x))), s', cs'.map .data ++ [.eof]) ∧
      s'.direction = s.direction ∧ Inv enc xs s' cs'.flatten ∧ ∀ c ∈ cs', c ≠ [] := by
  induction cs generalizing s with
  | nil =>
    rcases decode_spec hdec hinv with
      ⟨s', -, -, -, hend⟩ | ⟨x', xs', s', hxs, hdecode, hdir, hinv'⟩
    · exact absurd (hend rfl).1 (List.cons_ne_nil x xs)
    · obtain ⟨rfl, rfl⟩ := List.cons.inj hxs
      exact ⟨s', [], pollLoop_of_some _ _ hinv.state_ne_done hdecode, hdir, hinv', hcs⟩
  | cons c cs ih =>
    rcases decode_spec hdec hinv with
      ⟨s', hdecode, hdir, hinv', -⟩ | ⟨x', xs', s', hxs, hdecode, hdir, hinv'⟩
    · -- the decoder waits: the next chunk goes to the back of the queue
      have hc : c ≠ [] := hcs c (by simp)
      have hpush : Inv enc (x :: xs) { s' with bufs := s'.bufs.pushBack c } cs.flatten :=
        ⟨BufList.noEmpty_pushBack hinv'.noEmpty hc, hinv'.fits,
          by simpa [List.append_assoc] using hinv'.expecting⟩
      obtain ⟨s'', cs', hloop, hdir', hinv'', hcs'⟩ :=
        ih (fun c' hc' => hcs c' (by simp [hc'])) hpush
      refine ⟨s'', cs', ?_, hdir'.trans hdir, hinv'', hcs'⟩
      rw [List.map_cons, List.cons_append, pollLoop_data _ _ _ hinv.state_ne_done hdecode]
      exact hloop
    · obtain ⟨rfl, rfl⟩ := List.cons.inj hxs
      exact ⟨s', c :: cs, pollLoop_of_some _ _ hinv.state_ne_done hdecode, hdir, hinv', hcs⟩

/-- The loop of `poll` with no item to come finds the queue empty and the body at its end,
and breaks out. -/
theorem pollLoop_end (hdec : Reads enc dec) {cs : List (List UInt8)} (hcs : ∀ c ∈ cs, c ≠ [])
    {s : Streaming}
    (hinv : Inv enc [] s cs.flatten) :
    ∃ s', pollLoop dec s (cs.map .data ++ [.eof]) = .ok (.brk, s', []) ∧
      s'.direction = s.direction := by
  obtain rfl : cs = [] := eq_nil_of_flatten_eq_nil hcs hinv.pending_eq_nil
  rcases decode_spec hdec hinv with ⟨s', hdecode, hdir, -, hend⟩ | ⟨x, xs, -, hxs, -⟩
  · have hempty : s'.bufs.hasRemaining = false := by
      simp [BufList.hasRemaining, BufList.remaining_eq, (hend rfl).2]
    refine ⟨{ s' with state := .done }, ?_, hdir⟩
    rw [List.map_nil, List.nil_append, pollLoop_eof _ _ hinv.state_ne_done hdecode,
      if_neg (by simp [hempty])]
  · cases hxs

theorem poll_item (hdec : Reads enc dec) {x : α} {xs : List α} {cs : List (List UInt8)}
    (hcs : ∀ c ∈ cs, c ≠ []) {s : Streaming}
    (hinv : Inv enc (x :: xs) s cs.flatten) (ts : List (Poll (Option Http.HeaderMap) Status)) :
    ∃ (s' : Streaming) (cs' : List (List UInt8)), poll dec s ⟨cs.map .data ++ [.eof], ts⟩ =
        .ok (.ok (.ready (some x)), s', ⟨cs'.map .data ++ [.eof], ts⟩) ∧
      s'.direction = s.direction ∧ Inv enc xs s' cs'.flatten ∧ ∀ c ∈ cs', c ≠ [] := by
  obtain ⟨s', cs', hloop, hdir, hinv', hcs'⟩ := pollLoop_item hdec hcs hinv
  exact ⟨s', cs', by simp [poll, hloop], hdir, hinv', hcs'⟩

theorem poll_end (hdec : Reads enc dec) {cs : List (List UInt8)} (hcs : ∀ c ∈ cs, c ≠ [])
    {s : Streaming}
    (hdir : s.direction = .request) (hinv : Inv enc [] s cs.flatten)
    (ts : List (Poll (Option Http.HeaderMap) Status)) :
    ∃ s', poll dec s ⟨cs.map .data ++ [.eof], ts⟩ =
      .ok (.ok (.ready none), s', ⟨[], ts⟩) := by
  obtain ⟨s', hloop, hdir'⟩ := pollLoop_end hdec hcs hinv
  exact ⟨s', by simp [poll, hloop, pollEnd, hdir'.trans hdir]⟩

/-- The run of a request stream over the frames of `xs`: one item per frame, then the end. -/
theorem pollN_of_inv (hdec : Reads enc dec)
    (xs : List α) {cs : List (List UInt8)} (hcs : ∀ c ∈ cs, c ≠ []) {s : Streaming}
    (hdir : s.direction = .request) (hinv : Inv enc xs s cs.flatten)
    (ts : List (Poll (Option Http.HeaderMap) Status)) :
    pollN dec (xs.length + 1) s ⟨cs.map .data ++ [.eof], ts⟩ =
      .ok (xs.map (fun x => .ok (.ready (some x))) ++ [.ok (.ready none)]) := by
  induction xs generalizing cs s with
  | nil =>
    obtain ⟨s', hpoll⟩ := poll_end hdec hcs hdir hinv ts
    have hstep : pollStep dec (s, ⟨cs.map .data ++ [.eof], ts⟩) =
        .ok (.ok (.ready none), s', ⟨[], ts⟩) := hpoll
    have hend : isEnd (.ok (.ready none) : Poll (Option α) Status) = true := rfl
    simp [pollN, Run.run_succ_of_stop hstep hend]
  | cons x xs ih =>
    obtain ⟨s', cs', hpoll, hdir', hinv', hcs'⟩ := poll_item hdec hcs hinv ts
    have hstep : pollStep dec (s, ⟨cs.map .data ++ [.eof], ts⟩) =
        .ok (.ok (.ready (some x)), s', ⟨cs'.map .data ++ [.eof], ts⟩) := hpoll
    have hrest := ih hcs' (hdir'.trans hdir) hinv'
    simp only [pollN] at hrest ⊢
    have hitem : isEnd (.ok (.ready (some x)) : Poll (Option α) Status) = false := rfl
    rw [List.length_cons, Run.run_succ_of_continue hstep hitem]
    cases hr : Run.run (pollStep dec) isEnd (xs.length + 1)
        (s', ⟨cs'.map .data ++ [.eof], ts⟩) with
    | error e => simp [hr] at hrest
    | ok r => simp_all

end RoundTrip

end Streaming

/-- What `Encode` sends for items that all encode within the length limit, then the
stream's end: their frames, then the end of the data. -/
theorem runData_items (enc : Encoder α) {xs : List α}
    (hxs : ∀ x ∈ xs, (enc x).2 = none ∧ (enc x).1.length < 2 ^ 32) (role : Role) :
    ∃ e', Encode.runData enc (xs.length + 1) ⟨.ok (xs.map .item ++ [.done]), [], role⟩ =
      .ok (xs.map (fun x => .ok (.ready (some ((frame (enc x).1).map some)))) ++
        [.ok (.ready none)], e') := by
  have hrun := Encode.runData_eq_specRun enc (.ok (xs.map .item ++ [.done])) role
    (xs.length + 1)
  rw [Encode.specRun_items enc role hxs []] at hrun
  cases hr : Encode.runData enc (xs.length + 1) ⟨.ok (xs.map .item ++ [.done]), [], role⟩ with
  | error e => simp [hr] at hrun
  | ok r =>
    obtain ⟨as, e'⟩ := r
    simp only [hr, map_ok, Except.ok.injEq, Prod.mk.injEq] at hrun
    refine ⟨e', ?_⟩
    rw [← hrun.1]
    simp [Encode.liftChunk]

/-- The round trip. A body that `Encode` sends for items that all encode within the length
limit, cut anew into any non-empty chunks, reads back through a request `Streaming` as the
same items, then its end. -/
theorem encode_decode_roundTrip {enc : Encoder α} {dec : Decoder α} (hdec : Reads enc dec)
    (xs : List α) (hxs : ∀ x ∈ xs, (enc x).2 = none ∧ (enc x).1.length < 2 ^ 32) (role : Role) :
    (∃ e', Encode.runData enc (xs.length + 1) ⟨.ok (xs.map .item ++ [.done]), [], role⟩ =
      .ok (xs.map (fun x => .ok (.ready (some ((frame (enc x).1).map some)))) ++
        [.ok (.ready none)], e')) ∧
    ∀ cs : List (List UInt8), cs.flatten = frames enc xs → (∀ c ∈ cs, c ≠ []) →
      Streaming.pollN dec (xs.length + 1) (Streaming.new .request) ⟨cs.map .data ++ [.eof], []⟩ =
        .ok (xs.map (fun x => .ok (.ready (some x))) ++ [.ok (.ready none)]) := by
  refine ⟨runData_items enc hxs role, fun cs hflat hcs => ?_⟩
  exact Streaming.pollN_of_inv hdec xs hcs rfl
    (Streaming.inv_new (fun x hx => (hxs x hx).2) hflat .request) []

/-- One byte as its own message. -/
def byteEnc : Encoder UInt8 := fun b => ([b], none)

/-- Reads a one-byte message. -/
def byteDec : Decoder UInt8 := fun d =>
  match d.bufs.content.take d.len with
  | [b] => .ok b
  | _ => .error (Status.new .internal "")

theorem byteDec_reads : Reads byteEnc byteDec := by
  intro x d _ _ h
  simp [byteDec, byteEnc, h]

theorem encode_decode_roundTrip_bytes :
    Streaming.pollN byteDec 3 (Streaming.new .request)
        ⟨[[0, 0], [0, 0, 1, 7, 0], [0, 0, 0, 1, 9]].map .data ++ [.eof], []⟩ =
      .ok [.ok (.ready (some 7)), .ok (.ready (some 9)), .ok (.ready none)] :=
  (encode_decode_roundTrip byteDec_reads [7, 9] (by simp [byteEnc]) .server).2 _
    (by decide) (by decide)

/-- An empty chunk in front of a frame: reading the header, `get_u8` indexes the empty front
chunk, and `poll` panics. -/
theorem pollN_empty_chunk (dec : Decoder α) (msg : List UInt8) :
    Streaming.pollN dec 2 (Streaming.new .request) ⟨[.data [], .data (frame msg), .eof], []⟩ =
      .error .panic := by
  open Streaming in
  have hpanic : decode dec ⟨⟨[[], frame msg]⟩, .readHeader, .request⟩ = .error .panic := by
    have h5 : ¬ BufList.remaining ⟨[[], frame msg]⟩ < 5 := by
      simp [BufList.remaining, length_frame]
    have hget := BufList.getU8_of_front_nil (show [frame msg].flatten ≠ [] by simp [frame])
    simp [decode, h5, hget]
  have hloop : Streaming.pollLoop dec (.new .request) [.data [], .data (frame msg), .eof] =
      .error .panic :=
    calc _ = Streaming.pollLoop dec ⟨⟨[[]]⟩, .readHeader, .request⟩ [.data (frame msg), .eof] :=
          Streaming.pollLoop_data _ _ _ (by decide) (Streaming.decode_of_lt _ rfl (by decide))
      _ = Streaming.pollLoop dec ⟨⟨[[], frame msg]⟩, .readHeader, .request⟩ [.eof] :=
          Streaming.pollLoop_data _ _ _ (by decide) (Streaming.decode_of_lt _ rfl (by decide))
      _ = .error .panic := Streaming.pollLoop_of_fault _ _ (by simp) hpanic
  have hstep : Streaming.pollStep dec
      (.new .request, ⟨[.data [], .data (frame msg), .eof], []⟩) = .error .panic := by
    simp [Streaming.pollStep, Streaming.poll, hloop]
  simp [Streaming.pollN, Run.run_succ_of_error hstep]

/-- A body that ends right after a header announcing `n > 0` bytes: the queue is empty at the
end of the body, so the stream ends as if it were complete. -/
theorem pollN_header_only (dec : Decoder α) {n : Nat} (hn : 0 < n) (hn' : n < 2 ^ 32) :
    Streaming.pollN dec 2 (Streaming.new .request) ⟨[.data (0 :: be32 n), .eof], []⟩ =
      .ok [.ok (.ready none)] := by
  -- the header reads as flag `0` and length `n`, and leaves the queue empty
  have hne : BufList.NoEmpty ⟨[0 :: be32 n]⟩ := by simp [BufList.NoEmpty]
  obtain ⟨b₁, hget₁, hne₁, hc₁⟩ := Buf.getU8_spec BufList.lawful hne
    (show BufList.content ⟨[0 :: be32 n]⟩ = 0 :: be32 n by simp [BufList.content])
  obtain ⟨b₂, hget₂, -, hc₂⟩ := Buf.getU32Be_spec BufList.lawful hne₁ (by simp [hc₁])
  rw [hc₁, List.take_of_length_le (by simp), beValue_be32 hn'] at hget₂
  have hempty : b₂.remaining = 0 := by simp [BufList.remaining_eq, hc₂, hc₁]
  have hdecode : Streaming.decode dec ⟨⟨[0 :: be32 n]⟩, .readHeader, .request⟩ =
      .ok (.ok none, ⟨b₂, .readBody false n, .request⟩) := by
    have h5 : ¬ BufList.remaining ⟨[0 :: be32 n]⟩ < 5 := by simp [BufList.remaining]
    simp [Streaming.decode, h5, hget₁, hget₂, Streaming.decodeBody, hempty, hn]
  -- at the end of the body nothing is buffered, so the loop breaks out in `ReadBody`
  have hloop : Streaming.pollLoop dec (.new .request) [.data (0 :: be32 n), .eof] =
      .ok (.brk, ⟨b₂, .done, .request⟩, []) :=
    calc _ = Streaming.pollLoop dec ⟨⟨[0 :: be32 n]⟩, .readHeader, .request⟩ [.eof] :=
          Streaming.pollLoop_data _ _ _ (by decide) (Streaming.decode_of_lt _ rfl (by decide))
      _ = _ := by
          rw [Streaming.pollLoop_eof _ _ (by simp) hdecode]
          simp [BufList.hasRemaining, hempty]
  have hstep : Streaming.pollStep dec (.new .request, ⟨[.data (0 :: be32 n), .eof], []⟩) =
      .ok (.ok (.ready none), ⟨b₂, .done, .request⟩, ⟨[], []⟩) := by
    simp [Streaming.pollStep, Streaming.poll, hloop, Streaming.pollEnd]
  have hend : Streaming.isEnd (.ok (.ready none) : Poll (Option α) Status) = true := rfl
  simp [Streaming.pollN, Run.run_succ_of_stop hstep hend]

theorem pollN_header_only_one :
    Streaming.pollN byteDec 2 (Streaming.new .request) ⟨[.data (0 :: be32 1), .eof], []⟩ =
      .ok [.ok (.ready none)] :=
  pollN_header_only byteDec (by decide) (by decide)

end TowerGrpc
