import TowerGrpc.Codec.RoundTrip

/-!
# Reading a framed body however it is delivered

The HTTP layer hands a body over as the answers of `poll_data`: the bytes in order, cut into
chunks of its own choosing, with `NotReady` whenever nothing new has arrived, then the end of
the data; and then the answers of `poll_trailers`, which may be `NotReady` too. `Delivery evs
w` is every way of handing over the bytes `w` in non-empty chunks (an empty chunk breaks the
stream, `pollN_empty_chunk`), and `EndsWith` says how the trailers end a stream in each
direction.

A stream over such a body gives the items whose frames the bytes are, in order, then the end
that its direction and trailers settle, with one `NotReady` for each pause of the body and
nothing else (`pollN_delivery`). The proof is the rule for runs that pause: the invariant
`Receiving` says which answers are still to come and counts the pauses still to come, and one
poll (`pollLoop_delivery`) pauses or gives the next answer.
-/

namespace TowerGrpc

open Rust Http

variable {α : Type}

/-- The ways of handing over the bytes `w` as `poll_data` answers: in order, in non-empty
chunks, with any `NotReady`s between them. -/
inductive Delivery : List DataEvent → List UInt8 → Prop
  | nil : Delivery [] []
  | data {c w : List UInt8} {evs : List DataEvent} : c ≠ [] → Delivery evs w →
      Delivery (.data c :: evs) (c ++ w)
  | notReady {w : List UInt8} {evs : List DataEvent} : Delivery evs w →
      Delivery (.notReady :: evs) w

/-- The `NotReady`s among a body's `poll_data` answers. -/
def pauseCount : List DataEvent → Nat
  | [] => 0
  | .notReady :: evs => pauseCount evs + 1
  | _ :: evs => pauseCount evs

namespace Streaming

variable {dec : Decoder α}

theorem pollLoop_notReady (s : Streaming) {s' : Streaming} (evs : List DataEvent)
    (hs : s.state ≠ .done) (h : decode dec s = .ok (.ok none, s')) :
    pollLoop dec s (.notReady :: evs) = .ok (.ret (.ok .notReady), s', evs) := by
  rw [pollLoop_of_ne_done s _ hs, h]

theorem poll_of_ret {s s' : Streaming} {b : Body} {p : Poll (Option α) Status}
    {evs : List DataEvent} (h : pollLoop dec s b.data = .ok (.ret p, s', evs)) :
    poll dec s b = .ok (p, s', { b with data := evs }) := by
  simp [poll, h]

theorem poll_of_brk {s s' : Streaming} {b : Body} {evs : List DataEvent}
    (h : pollLoop (α := α) dec s b.data = .ok (.brk, s', evs)) :
    poll dec s b =
      .ok ((pollEnd s' b.trailers).1, s', ⟨evs, (pollEnd (α := α) s' b.trailers).2⟩) := by
  simp [poll, h]

/-! ### The data -/

section Data

variable {enc : Encoder α}

/-- One turn of the loop over a delivery of the bytes still to arrive: it gives the next
item, or pauses on the body's next `NotReady`, or, with no item left, meets the end of the
body and breaks out. -/
theorem pollLoop_delivery (hdec : Reads enc dec) {evs : List DataEvent} {w : List UInt8}
    (hdel : Delivery evs w) {xs : List α} {s : Streaming} (hinv : Inv enc xs s w) :
    (∃ x xs' s' evs' w', xs = x :: xs' ∧
      pollLoop dec s (evs ++ [.eof]) = .ok (.ret (.ok (.ready (some x))), s', evs' ++ [.eof]) ∧
      s'.direction = s.direction ∧ Delivery evs' w' ∧ Inv enc xs' s' w' ∧
      pauseCount evs' = pauseCount evs) ∨
    (∃ s' evs' w',
      pollLoop dec s (evs ++ [.eof]) = .ok (.ret (.ok .notReady), s', evs' ++ [.eof]) ∧
      s'.direction = s.direction ∧ Delivery evs' w' ∧ Inv enc xs s' w' ∧
      pauseCount evs' + 1 = pauseCount evs) ∨
    (xs = [] ∧ pauseCount evs = 0 ∧
      ∃ s', pollLoop dec s (evs ++ [.eof]) = .ok (.brk, s', []) ∧
        s'.state = .done ∧ s'.direction = s.direction) := by
  -- induction on the delivery: a chunk goes to the back of the queue and the loop goes on
  induction hdel generalizing s with
  | nil =>
    rcases decode_spec hdec hinv with
      ⟨s', hdecode, hdir, -, hend⟩ | ⟨x, xs', s', rfl, hdecode, hdir, hinv'⟩
    · -- nothing left to decode or to arrive: the end of the body ends the data
      obtain ⟨rfl, hempty⟩ := hend rfl
      have hrem : s'.bufs.hasRemaining = false := by
        simp [BufList.hasRemaining, BufList.remaining_eq, hempty]
      refine .inr (.inr ⟨rfl, rfl, { s' with state := .done }, ?_, rfl, hdir⟩)
      rw [List.nil_append, pollLoop_eof _ _ hinv.state_ne_done hdecode, if_neg (by simp [hrem])]
    · exact .inl ⟨x, xs', s', [], [], rfl, pollLoop_of_some _ _ hinv.state_ne_done hdecode, hdir,
        .nil, hinv', rfl⟩
  | @data c w evs hc hdel ih =>
    rcases decode_spec hdec hinv with
      ⟨s', hdecode, hdir, hinv', -⟩ | ⟨x, xs', s', rfl, hdecode, hdir, hinv'⟩
    · have hpush : Inv enc xs { s' with bufs := s'.bufs.pushBack c } w :=
        ⟨BufList.noEmpty_pushBack hinv'.noEmpty hc, hinv'.fits,
          by simpa [List.append_assoc] using hinv'.expecting⟩
      rw [List.cons_append, pollLoop_data _ _ _ hinv.state_ne_done hdecode]
      rcases ih hpush with ⟨x, xs', s'', evs', w', hxs, h, hdir', hdel', hinv'', hp⟩ |
          ⟨s'', evs', w', h, hdir', hdel', hinv'', hp⟩ | ⟨hxs, hp, s'', h, hdone, hdir'⟩
      · exact .inl ⟨x, xs', s'', evs', w', hxs, h, hdir'.trans hdir, hdel', hinv'', hp⟩
      · exact .inr (.inl ⟨s'', evs', w', h, hdir'.trans hdir, hdel', hinv'', hp⟩)
      · exact .inr (.inr ⟨hxs, hp, s'', h, hdone, hdir'.trans hdir⟩)
    · exact .inl ⟨x, xs', s', .data c :: evs, c ++ w, rfl,
        pollLoop_of_some _ _ hinv.state_ne_done hdecode, hdir, .data hc hdel, hinv', rfl⟩
  | @notReady w evs hdel _ =>
    rcases decode_spec hdec hinv with
      ⟨s', hdecode, hdir, hinv', -⟩ | ⟨x, xs', s', rfl, hdecode, hdir, hinv'⟩
    · exact .inr (.inl ⟨s', evs, w, pollLoop_notReady _ _ hinv.state_ne_done hdecode, hdir, hdel,
        hinv', rfl⟩)
    · exact .inl ⟨x, xs', s', .notReady :: evs, w, rfl,
        pollLoop_of_some _ _ hinv.state_ne_done hdecode, hdir, .notReady hdel, hinv', rfl⟩

end Data

/-! ### The trailers -/

/-- How the end of a stream in direction `dir` goes over the trailers' answers `ts`: `m`
`NotReady`s, then `final`. A response waits for its trailers and settles the call by
`infer_grpc_status`; the other directions end at once. -/
def EndsWith (dir : Direction) (ts : List (Poll (Option HeaderMap) Status)) (m : Nat)
    (final : Poll (Option α) Status) : Prop :=
  match dir with
  | .response statusCode => ∃ t rest,
      ts = List.replicate m (.ok .notReady) ++ .ok (.ready t) :: rest ∧
      final = match inferGrpcStatus t statusCode with
        | .ok () => .ok (.ready none)
        | .error e => .error e
  | _ => m = 0 ∧ final = .ok (.ready none)

theorem EndsWith.isEnd {dir : Direction} {ts : List (Poll (Option HeaderMap) Status)} {m : Nat}
    {final : Poll (Option α) Status} (h : EndsWith dir ts m final) : isEnd final = true := by
  cases dir with
  | response statusCode =>
    obtain ⟨t, rest, -, rfl⟩ := h
    cases inferGrpcStatus t statusCode <;> rfl
  | request =>
    obtain ⟨-, rfl⟩ := h
    rfl
  | emptyResponse =>
    obtain ⟨-, rfl⟩ := h
    rfl

theorem pollEnd_of_endsWith_zero {s : Streaming} {ts : List (Poll (Option HeaderMap) Status)}
    {final : Poll (Option α) Status} (h : EndsWith s.direction ts 0 final) :
    (pollEnd s ts).1 = final := by
  obtain ⟨bufs, state, direction⟩ := s
  cases direction with
  | response statusCode =>
    obtain ⟨t, rest, rfl, rfl⟩ := h
    -- the trailers are there at once, and `infer_grpc_status` settles the call
    show (match inferGrpcStatus t statusCode with
      | .ok () => ((.ok (.ready none) : Poll (Option α) Status), rest)
      | .error e => (.error e, rest)).1 = _
    cases inferGrpcStatus t statusCode <;> rfl
  | request =>
    obtain ⟨-, rfl⟩ := h
    rfl
  | emptyResponse =>
    obtain ⟨-, rfl⟩ := h
    rfl

theorem pollEnd_of_endsWith_succ {s : Streaming} {ts : List (Poll (Option HeaderMap) Status)}
    {m : Nat} {final : Poll (Option α) Status} (h : EndsWith s.direction ts (m + 1) final) :
    (pollEnd (α := α) s ts).1 = .ok .notReady ∧
      EndsWith s.direction (pollEnd (α := α) s ts).2 m final := by
  obtain ⟨bufs, state, direction⟩ := s
  cases direction with
  | response statusCode =>
    obtain ⟨t, rest, rfl, hfinal⟩ := h
    exact ⟨rfl, t, rest, rfl, hfinal⟩
  | request => exact absurd h.1 (by omega)
  | emptyResponse => exact absurd h.1 (by omega)

/-! ### Whole runs -/

section Run

variable {enc : Encoder α}

/-- Where a stream is in reading a delivered body: the answers still to come are the items
`xs`, then `final`; and either the body still delivers the bytes `w` that are left of their
frames, before the trailers end the stream, or the data is over and only the trailers are
left. `n` counts the pauses still to come. -/
def Receiving (enc : Encoder α) (final : Poll (Option α) Status)
    (out : List (Poll (Option α) Status)) (n : Nat) (sb : Streaming × Body) : Prop :=
  ∃ xs m, out = xs.map (fun x => .ok (.ready (some x))) ++ [final] ∧
    EndsWith sb.1.direction sb.2.trailers m final ∧
    ((∃ evs w, sb.2.data = evs ++ [.eof] ∧ Delivery evs w ∧ Inv enc xs sb.1 w ∧
        n = pauseCount evs + m) ∨
      (xs = [] ∧ sb.1.state = .done ∧ sb.2.data = [] ∧ n = m))

/-- Once the data is over, a poll is the trailers' part: a pause, or `final`. -/
theorem pollEnd_receiving (enc : Encoder α) {final : Poll (Option α) Status} {s : Streaming}
    {ts : List (Poll (Option HeaderMap) Status)} {m : Nat}
    (hend : EndsWith s.direction ts m final) (hdone : s.state = .done) :
    ((pollEnd (α := α) s ts).1 = .ok .notReady ∧
        ∃ n', n' < m ∧
          Receiving enc final [final] n' (s, ⟨[], (pollEnd (α := α) s ts).2⟩)) ∨
      ((pollEnd s ts).1 = final ∧ m = 0) := by
  cases m with
  | zero => exact .inr ⟨pollEnd_of_endsWith_zero hend, rfl⟩
  | succ m =>
    obtain ⟨hp, hend'⟩ := pollEnd_of_endsWith_succ hend
    exact .inl ⟨hp, m, by omega, [], m, by simp, hend', .inr ⟨rfl, hdone, rfl, rfl⟩⟩

/-- One poll from where `Receiving` allows: it pauses, with fewer pauses left, or gives the
next answer, and stops the reader exactly when that is `final`. -/
theorem pollStep_receiving (hdec : Reads enc dec) {final : Poll (Option α) Status}
    {out : List (Poll (Option α) Status)} {n : Nat} {sb : Streaming × Body}
    (hs : Receiving enc final out n sb) :
    ∃ p sb', pollStep dec sb = .ok (p, sb') ∧
      ((p = .ok .notReady ∧ ∃ n', n' < n ∧ Receiving enc final out n' sb') ∨
        (∃ out', out = p :: out' ∧ (isEnd p = true ↔ out' = []) ∧
          (out' ≠ [] → ∃ n', n' ≤ n ∧ Receiving enc final out' n' sb'))) := by
  obtain ⟨s, data, ts⟩ := sb
  obtain ⟨xs, m, rfl, hend, ⟨evs, w, hdata, hdel, hinv, rfl⟩ | ⟨rfl, hdone, hdata, rfl⟩⟩ :=
    hs
  · dsimp only at hdata hend hinv
    subst hdata
    -- the data: one turn of the loop over the delivery
    rcases pollLoop_delivery hdec hdel hinv with
        ⟨x, xs', s', evs', w', rfl, hloop, hdir, hdel', hinv', hp⟩ |
        ⟨s', evs', w', hloop, hdir, hdel', hinv', hp⟩ | ⟨rfl, hp, s', hloop, hdone, hdir⟩
    · refine ⟨_, _, poll_of_ret hloop, .inr ⟨_, rfl, by simp [isEnd], fun _ =>
        ⟨pauseCount evs + m, le_rfl, xs', m, rfl, by rw [hdir]; exact hend,
          .inl ⟨evs', w', rfl, hdel', hinv', by rw [hp]⟩⟩⟩⟩
    · exact ⟨_, _, poll_of_ret hloop, .inl ⟨rfl, pauseCount evs' + m, by omega, xs, m, rfl,
        by rw [hdir]; exact hend, .inl ⟨evs', w', rfl, hdel', hinv', rfl⟩⟩⟩
    · -- the end of the body: the same poll goes on to the trailers
      rw [← hdir] at hend
      rcases pollEnd_receiving enc hend hdone with
        ⟨hp', n', hn', hrec⟩ | ⟨hp', rfl⟩
      · exact ⟨_, _, poll_of_brk hloop, .inl ⟨hp', n', by omega, by simpa using hrec⟩⟩
      · exact ⟨_, _, poll_of_brk hloop, .inr ⟨[], by simp [hp'], by simp [hp', hend.isEnd],
          fun h => absurd rfl h⟩⟩
  · dsimp only at hdone hdata hend
    subst hdata
    -- only the trailers are left
    have hloop : pollLoop dec s [] = .ok (.brk, s, []) := pollLoop_of_done s [] hdone
    rcases pollEnd_receiving enc hend hdone with ⟨hp', n', hn', hrec⟩ | ⟨hp', rfl⟩
    · exact ⟨_, _, poll_of_brk hloop, .inl ⟨hp', n', hn', by simpa using hrec⟩⟩
    · exact ⟨_, _, poll_of_brk hloop, .inr ⟨[], by simp [hp'], by simp [hp', hend.isEnd],
        fun h => absurd rfl h⟩⟩

/-- A new stream expects the frames of items within the length limit, whole. -/
theorem inv_frames {xs : List α} (hfit : ∀ x ∈ xs, (enc x).1.length < 2 ^ 32)
    (direction : Direction) : Inv enc xs (new direction) (frames enc xs) := by
  have hflat : [frames enc xs].flatten = frames enc xs := List.flatten_singleton
  simpa using inv_new hfit hflat direction

/-- A stream over a body that delivers the frames of `xs` in any chunks with any pauses, and
whose trailers end it in its direction with `final`, gives the items in order and then
`final`, with one `NotReady` for each pause of the body and of the trailers: in every run of
polls long enough for them all. -/
theorem pollN_delivery (hdec : Reads enc dec) {xs : List α}
    (hfit : ∀ x ∈ xs, (enc x).1.length < 2 ^ 32) {evs : List DataEvent}
    (hdel : Delivery evs (frames enc xs)) {dir : Direction}
    {ts : List (Poll (Option HeaderMap) Status)} {m : Nat} {final : Poll (Option α) Status}
    (hend : EndsWith dir ts m final) {k : Nat} (hk : pauseCount evs + m + xs.length + 1 ≤ k) :
    ∃ answers, pollN dec k (new dir) ⟨evs ++ [.eof], ts⟩ = .ok answers ∧
      Run.Pauses (.ok .notReady) answers (xs.map (fun x => .ok (.ready (some x))) ++ [final]) := by
  obtain ⟨answers, sb', hrun, hp⟩ := Run.run_pauses (.ok .notReady) (Receiving enc final) rfl
    (fun _ _ _ hs _ => pollStep_receiving hdec hs) (s := (new dir, ⟨evs ++ [.eof], ts⟩))
    ⟨xs, m, rfl, hend, .inl ⟨evs, _, rfl, hdel, inv_frames hfit dir, rfl⟩⟩ (by simp)
    (by simp; omega)
  exact ⟨answers, by simp [pollN, hrun], hp⟩

end Run

end Streaming

end TowerGrpc
