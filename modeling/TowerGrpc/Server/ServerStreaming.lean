import TowerGrpc.Server
import TowerGrpc.Lib.Run

/-!
# The request side of unary and server-streaming calls

`generic::server::server_streaming::Inner` is the future that the response future of a
unary or server-streaming call polls: it polls the request's message stream until the
stream answers, hands the first message, with the request's metadata, to the service, and
from then on polls the service's future. The `loop` of its `poll` takes the state out of
its `Option` around the service call and puts the service's future back; `turn` is one pass
of that loop and `poll` repeats it until a pass returns, which takes at most two passes.

The service's future is any type with any `poll`, and the request stream is its answers to
successive polls (`NotReady` once none is left). Beside the source's fields, the model keeps
the requests the service has been called with. Every run of polls returns, so neither the
`unwrap`s nor `unreachable!()` is reached; the service is called at most once, with the
stream's first message and the request's metadata, and only when that message comes before
the stream ends or fails; an end is answered with `Internal` and a failure with the
stream's status (`run_new`). `unary::Inner` is such a service, whose future answers the
unary service's response over a `Once` stream (`runFuture_innerFuture`).
-/

namespace TowerGrpc

open Rust Http

/-- `crate::Request`: a message and its metadata, kept as the header map a `MetadataMap`
wraps. -/
structure Request (α : Type) where
  metadata : HeaderMap
  message : α

/-- `Request::map`: the same metadata over the message `f` makes of the old one. -/
def Request.map {α β : Type} (f : α → β) (r : Request α) : Request β :=
  ⟨r.metadata, f r.message⟩

/-- `Response::map`. -/
def Response.map {α β : Type} (f : α → β) (r : Response α) : Response β :=
  ⟨r.metadata, f r.message⟩

/-- A stream's `poll`, over the answers it has left: `NotReady` once none is. -/
def pollStream {α : Type} :
    List (StreamEvent α) → Poll (Option α) Status × List (StreamEvent α)
  | [] => (.ok .notReady, [])
  | .notReady :: evs => (.ok .notReady, evs)
  | .item x :: evs => (.ok (.ready (some x)), evs)
  | .done :: evs => (.ok (.ready none), evs)
  | .error e :: evs => (.error e, evs)

/-- Whether a future's answer settles it: ready, or failed. -/
def settled {β : Type} : Poll β Status → Bool
  | .ok .notReady => false
  | _ => true

@[simp] theorem settled_map {β γ : Type} (f : β → γ) (p : Poll β Status) :
    settled (Except.map (Async.map f) p) = settled p := by
  rcases p with e | (b | _) <;> rfl

/-- Up to `k` polls of a future, as an executor makes them: until it settles. -/
def runFuture {F β : Type} (pollFut : F → Poll β Status × F) (k : Nat) (fut : F) :
    M (List (Poll β Status) × F) :=
  Run.run (fun fut => .ok (pollFut fut)) settled k fut

/-- A future's polls never fault: every run of them returns. -/
theorem runFuture_ok {F β : Type} (pollFut : F → Poll β Status × F) (k : Nat) (fut : F) :
    ∃ answers fut', runFuture pollFut k fut = .ok (answers, fut') := by
  obtain ⟨answers, fut', h, -⟩ :=
    Run.run_ok (fun _ => True) (fun fut _ => ⟨_, _, rfl, trivial⟩) k (s := fut) trivial
  exact ⟨answers, fut', h⟩

/-- Every stream's answers are some `NotReady`s, then none or one that is not `NotReady`. -/
theorem exists_notReady_prefix {α : Type} (evs : List (StreamEvent α)) :
    ∃ n tail, evs = List.replicate n .notReady ++ tail ∧ ∀ rest, tail ≠ .notReady :: rest := by
  induction evs with
  | nil => exact ⟨0, [], rfl, fun _ h => nomatch h⟩
  | cons ev evs ih =>
    cases ev with
    | notReady =>
      obtain ⟨n, tail, rfl, htail⟩ := ih
      exact ⟨n + 1, tail, rfl, htail⟩
    | item x => exact ⟨0, _, rfl, fun _ h => nomatch h⟩
    | done => exact ⟨0, _, rfl, fun _ h => nomatch h⟩
    | error e => exact ⟨0, _, rfl, fun _ h => nomatch h⟩

namespace ServerStreaming

/-- `State`: waiting for the request's message, or for the service's future. -/
inductive State (F α : Type) where
  | requesting (request : Request (List (StreamEvent α)))
  | responding (fut : F)

/-- `Inner`: the service and the state, `None` only while the loop has taken it out. -/
structure Inner (T F α : Type) where
  inner : T
  state : Option (State F α)
  /-- Not a field of the source: the requests the service has been called with, oldest
  first. -/
  calls : List (Request α)

/-- The status of a request stream that ends before its message. -/
def missingRequestMessage : Status := Status.new .internal "Missing request message."

/-- How one pass of the `loop` ends: it returns an answer, or goes round again. -/
inductive Turn (β σ : Type) where
  | ret (p : Poll β Status) (s : σ)
  | cont (s : σ)

/-- How many more passes the loop takes from a state at most, past the next: one after
`Requesting`, none after `Responding`. -/
def State.rank {F α : Type} : Option (State F α) → Nat
  | some (.requesting _) => 1
  | _ => 0

section Poll

variable {T F α β : Type} (call : T → Request α → T × F) (pollFut : F → Poll β Status × F)

/-- The `Inner` that `ResponseFuture::new` builds. -/
def new (inner : T) (request : Request (List (StreamEvent α))) : Inner T F α :=
  ⟨inner, some (.requesting request), []⟩

/-- `match self.state.take().unwrap() { Requesting(request) => .., _ => unreachable!() }`. -/
def takeRequesting : Option (State F α) → M (Request (List (StreamEvent α)))
  | some (.requesting request) => .ok request
  | some (.responding _) => .error .panic
  | none => .error .panic

/-- One pass of the `loop` of `Inner::poll`. -/
def turn (s : Inner T F α) : M (Turn β (Inner T F α)) :=
  match s.state with
  -- `self.state.as_mut().unwrap()`
  | none => .error .panic
  | some (.responding fut) =>
    let (r, fut) := pollFut fut
    .ok (.ret r { s with state := some (.responding fut) })
  | some (.requesting request) =>
    -- the stream is polled in place: the state keeps what is left of it
    let (r, message) := pollStream request.message
    let s := { s with state := some (.requesting { request with message }) }
    match r with
    -- `try_ready!`
    | .error e => .ok (.ret (.error e) s)
    | .ok .notReady => .ok (.ret (.ok .notReady) s)
    | .ok (.ready none) => .ok (.ret (.error missingRequestMessage) s)
    | .ok (.ready (some msg)) => do
      let request ← takeRequesting s.state
      let request := request.map fun _ => msg
      let (inner, response) := call s.inner request
      pure (.cont { inner, state := some (.responding response), calls := s.calls ++ [request] })

/-- A pass that goes round again started from `Requesting` and leaves `Responding`. -/
theorem turn_cont {s s' : Inner T F α} (h : turn call pollFut s = .ok (.cont s')) :
    (∃ request, s.state = some (.requesting request)) ∧
      ∃ fut, s'.state = some (.responding fut) := by
  unfold turn at h
  split at h
  · cases h
  · cases h
  · rename_i request hs
    refine ⟨⟨request, hs⟩, ?_⟩
    split at h
    split at h
    · cases h
    · cases h
    · cases h
    · cases h
      exact ⟨_, rfl⟩

/-- `Inner::poll`: the `loop`, pass after pass until one returns. -/
def poll (s : Inner T F α) : M (Poll β Status × Inner T F α) :=
  match _h : turn call pollFut s with
  | .error f => .error f
  | .ok (.ret r s') => .ok (r, s')
  | .ok (.cont s') => poll s'
termination_by State.rank s.state
decreasing_by
  obtain ⟨⟨request, hs⟩, fut, hs'⟩ := turn_cont call pollFut _h
  simp [State.rank, hs, hs']

/-- One call of `poll`, by how its first pass ends: the only lemma that unfolds the loop. -/
theorem poll_eq (s : Inner T F α) :
    poll call pollFut s =
      match turn call pollFut s with
      | .error f => .error f
      | .ok (.ret r s') => .ok (r, s')
      | .ok (.cont s') => poll call pollFut s' := by
  rw [poll]
  split <;> simp_all

/-- Up to `k` polls, as the response future makes them: until `Inner` settles. -/
def run (k : Nat) (s : Inner T F α) : M (List (Poll β Status) × Inner T F α) :=
  Run.run (poll call pollFut) settled k s

/-! ### One poll, by the state it finds -/

section Step

variable {inner : T} {calls : List (Request α)} {metadata : HeaderMap}

theorem poll_responding (fut : F) :
    poll call pollFut ⟨inner, some (.responding fut), calls⟩ =
      .ok ((pollFut fut).1, ⟨inner, some (.responding (pollFut fut).2), calls⟩) := by
  rw [poll_eq]
  rfl

theorem poll_requesting_nil :
    poll call pollFut ⟨inner, some (.requesting ⟨metadata, []⟩), calls⟩ =
      .ok (.ok .notReady, ⟨inner, some (.requesting ⟨metadata, []⟩), calls⟩) := by
  rw [poll_eq]
  rfl

theorem poll_requesting_notReady (evs : List (StreamEvent α)) :
    poll call pollFut ⟨inner, some (.requesting ⟨metadata, .notReady :: evs⟩), calls⟩ =
      .ok (.ok .notReady, ⟨inner, some (.requesting ⟨metadata, evs⟩), calls⟩) := by
  rw [poll_eq]
  rfl

theorem poll_requesting_done (evs : List (StreamEvent α)) :
    poll call pollFut ⟨inner, some (.requesting ⟨metadata, .done :: evs⟩), calls⟩ =
      .ok (.error missingRequestMessage, ⟨inner, some (.requesting ⟨metadata, evs⟩), calls⟩) := by
  rw [poll_eq]
  rfl

theorem poll_requesting_error (e : Status) (evs : List (StreamEvent α)) :
    poll call pollFut ⟨inner, some (.requesting ⟨metadata, .error e :: evs⟩), calls⟩ =
      .ok (.error e, ⟨inner, some (.requesting ⟨metadata, evs⟩), calls⟩) := by
  rw [poll_eq]
  rfl

/-- The stream's message: the service is called with it and the request's metadata, and the
loop's second pass polls the future the service returned. -/
theorem poll_requesting_item (x : α) (evs : List (StreamEvent α)) :
    poll call pollFut ⟨inner, some (.requesting ⟨metadata, .item x :: evs⟩), calls⟩ =
      poll call pollFut ⟨(call inner ⟨metadata, x⟩).1,
        some (.responding (call inner ⟨metadata, x⟩).2), calls ++ [⟨metadata, x⟩]⟩ := by
  rw [poll_eq]
  rfl

/-! ### Runs, phase by phase -/

/-- Once `Responding`, a run is the run of the service's future, with the service and its
calls left as they are. -/
theorem run_responding (k : Nat) (fut : F) :
    run call pollFut k ⟨inner, some (.responding fut), calls⟩ =
      (fun r => (r.1, ⟨inner, some (.responding r.2), calls⟩)) <$> runFuture pollFut k fut := by
  -- the future's own run simulates `Inner`'s, through the state that holds the future
  have h := @Run.run_refines Fault F (Inner T F α) (Poll β Status) (Poll β Status)
    (fun fut => .ok (pollFut fut)) settled (poll call pollFut) settled
    (fun fut => ⟨inner, some (.responding fut), calls⟩) (fun _ => True) id
    (fun _ => rfl) (fun fut _ => by rw [poll_responding]; rfl)
    (fun _ _ _ _ _ _ => trivial) k fut trivial
  simp only [List.map_id, Prod.mk.eta, id_map'] at h
  exact h

/-- A request stream with no answer left is not ready, poll after poll. -/
theorem run_requesting_nil (k : Nat) :
    run call pollFut k ⟨inner, some (.requesting ⟨metadata, []⟩), calls⟩ =
      .ok (List.replicate k (.ok .notReady), ⟨inner, some (.requesting ⟨metadata, []⟩), calls⟩) := by
  induction k with
  | zero => rfl
  | succ k ih =>
    rw [run, Run.run_succ_of_continue (poll_requesting_nil call pollFut) rfl, ← run, ih]
    rfl

/-- While the request stream is not ready, every poll answers `NotReady`, and the state
keeps what is left of the stream. -/
theorem run_requesting_notReady (n k : Nat) (tail : List (StreamEvent α)) :
    run call pollFut (n + k)
        ⟨inner, some (.requesting ⟨metadata, List.replicate n .notReady ++ tail⟩), calls⟩ =
      (fun r => (List.replicate n (.ok .notReady) ++ r.1, r.2)) <$>
        run call pollFut k ⟨inner, some (.requesting ⟨metadata, tail⟩), calls⟩ := by
  induction n with
  | zero => simp
  | succ n ih =>
    rw [show n + 1 + k = n + k + 1 by omega, List.replicate_succ, List.cons_append, run,
      Run.run_succ_of_continue (poll_requesting_notReady call pollFut _) rfl, ← run, ih]
    cases run call pollFut k ⟨inner, some (.requesting ⟨metadata, tail⟩), calls⟩ <;> rfl

theorem run_requesting_done (k : Nat) (evs : List (StreamEvent α)) :
    run call pollFut (k + 1) ⟨inner, some (.requesting ⟨metadata, .done :: evs⟩), calls⟩ =
      .ok ([.error missingRequestMessage], ⟨inner, some (.requesting ⟨metadata, evs⟩), calls⟩) :=
  Run.run_succ_of_stop (poll_requesting_done call pollFut evs) rfl

theorem run_requesting_error (k : Nat) (e : Status) (evs : List (StreamEvent α)) :
    run call pollFut (k + 1) ⟨inner, some (.requesting ⟨metadata, .error e :: evs⟩), calls⟩ =
      .ok ([.error e], ⟨inner, some (.requesting ⟨metadata, evs⟩), calls⟩) :=
  Run.run_succ_of_stop (poll_requesting_error call pollFut e evs) rfl

/-- The stream's message: from that poll on, the run is the run of the future the service
returned for it, and the service has been called once more. -/
theorem run_requesting_item (k : Nat) (x : α) (evs : List (StreamEvent α)) :
    run call pollFut (k + 1) ⟨inner, some (.requesting ⟨metadata, .item x :: evs⟩), calls⟩ =
      (fun r => (r.1, ⟨(call inner ⟨metadata, x⟩).1, some (.responding r.2),
        calls ++ [⟨metadata, x⟩]⟩)) <$> runFuture pollFut (k + 1) (call inner ⟨metadata, x⟩).2 := by
  rw [run, Run.run_succ_congr (poll_requesting_item call pollFut x evs), ← run, run_responding]

end Step

/-! ### The service is called at most once, however often `Inner` is polled -/

/-- What every state a run from `new` reaches has: the service not yet called while
`Requesting`, and called once while `Responding`. -/
def CallsOnce (s : Inner T F α) : Prop :=
  (∃ request, s.state = some (.requesting request) ∧ s.calls = []) ∨
    (∃ fut, s.state = some (.responding fut) ∧ s.calls.length = 1)

/-- Every poll from such a state returns, to such a state. -/
theorem poll_callsOnce {s : Inner T F α} (hs : CallsOnce s) :
    ∃ b s', poll call pollFut s = .ok (b, s') ∧ CallsOnce s' := by
  obtain ⟨inner, state, calls⟩ := s
  rcases hs with ⟨⟨metadata, evs⟩, hstate, hcalls⟩ | ⟨fut, hstate, hcalls⟩
  · -- `Requesting`: by the stream's next answer
    dsimp only at hstate hcalls
    subst hstate hcalls
    match evs with
    | [] => exact ⟨_, _, poll_requesting_nil call pollFut, .inl ⟨_, rfl, rfl⟩⟩
    | .notReady :: evs =>
      exact ⟨_, _, poll_requesting_notReady call pollFut evs, .inl ⟨_, rfl, rfl⟩⟩
    | .done :: evs => exact ⟨_, _, poll_requesting_done call pollFut evs, .inl ⟨_, rfl, rfl⟩⟩
    | .error e :: evs =>
      exact ⟨_, _, poll_requesting_error call pollFut e evs, .inl ⟨_, rfl, rfl⟩⟩
    | .item x :: evs =>
      exact ⟨_, _, (poll_requesting_item call pollFut x evs).trans (poll_responding call pollFut _),
        .inr ⟨_, rfl, rfl⟩⟩
  · dsimp only at hstate hcalls
    subst hstate
    exact ⟨_, _, poll_responding call pollFut fut, .inr ⟨_, rfl, hcalls⟩⟩

/-- However many polls are made, also after `Inner` settled, it never faults and calls the
service at most once. -/
theorem run_calls_le_one (stop : Poll β Status → Bool) (k : Nat) (inner : T)
    (request : Request (List (StreamEvent α))) :
    ∃ answers s', Run.run (poll call pollFut) stop k (new inner request) = .ok (answers, s') ∧
      s'.calls.length ≤ 1 := by
  obtain ⟨answers, s', h, hs'⟩ := Run.run_ok CallsOnce (fun _ hs => poll_callsOnce call pollFut hs)
    k (s := new inner request) (.inl ⟨request, rfl, rfl⟩)
  refine ⟨answers, s', h, ?_⟩
  rcases hs' with ⟨_, -, hcalls⟩ | ⟨_, -, hcalls⟩
  · simp [hcalls]
  · exact hcalls.le

/-- Every run from `ResponseFuture::new` returns, and calls the service at most once: with
the request's metadata and a message that only `NotReady`s precede in the stream. -/
theorem run_new_calls (inner : T) (metadata : HeaderMap) (evs : List (StreamEvent α))
    (k : Nat) :
    ∃ answers s', run call pollFut k (new inner ⟨metadata, evs⟩) = .ok (answers, s') ∧
      (s'.calls = [] ∨ ∃ n x rest, evs = List.replicate n .notReady ++ .item x :: rest ∧
        s'.calls = [⟨metadata, x⟩]) := by
  obtain ⟨n, tail, rfl, htail⟩ := exists_notReady_prefix evs
  rcases Nat.lt_or_ge n k with hlt | hle
  · -- the run reaches the first answer that is not `NotReady`
    obtain ⟨j, rfl⟩ : ∃ j, k = n + (j + 1) := ⟨k - n - 1, by omega⟩
    rw [new, run_requesting_notReady]
    match tail, htail with
    | [], _ =>
      rw [run_requesting_nil]
      exact ⟨_, _, rfl, .inl rfl⟩
    | .notReady :: rest, htail => exact absurd rfl (htail rest)
    | .done :: rest, _ =>
      rw [run_requesting_done]
      exact ⟨_, _, rfl, .inl rfl⟩
    | .error e :: rest, _ =>
      rw [run_requesting_error]
      exact ⟨_, _, rfl, .inl rfl⟩
    | .item x :: rest, _ =>
      obtain ⟨answers, fut', hfut⟩ := runFuture_ok pollFut (j + 1) (call inner ⟨metadata, x⟩).2
      rw [run_requesting_item, hfut]
      exact ⟨_, _, rfl, .inr ⟨n, x, rest, rfl, rfl⟩⟩
  · -- the run ends among the `NotReady`s
    obtain ⟨j, rfl⟩ : ∃ j, n = k + j := ⟨n - k, by omega⟩
    have h : run call pollFut (k + 0)
        (new inner ⟨metadata, List.replicate k .notReady ++ (List.replicate j .notReady ++ tail)⟩) =
          _ :=
      run_requesting_notReady call pollFut k 0 _
    rw [Nat.add_zero, ← List.append_assoc, ← List.replicate_add] at h
    exact ⟨_, _, h, .inl rfl⟩

theorem run_new (inner : T) (metadata : HeaderMap) (evs : List (StreamEvent α)) :
    (∀ k, ∃ answers s', run call pollFut k (new inner ⟨metadata, evs⟩) = .ok (answers, s') ∧
      (s'.calls = [] ∨ ∃ n x rest, evs = List.replicate n .notReady ++ .item x :: rest ∧
        s'.calls = [⟨metadata, x⟩])) ∧
    ∀ n rest k,
      (∀ x, evs = List.replicate n .notReady ++ .item x :: rest →
        run call pollFut (n + (k + 1)) (new inner ⟨metadata, evs⟩) =
          (fun r => (List.replicate n (.ok .notReady) ++ r.1,
            ⟨(call inner ⟨metadata, x⟩).1, some (.responding r.2), [⟨metadata, x⟩]⟩)) <$>
            runFuture pollFut (k + 1) (call inner ⟨metadata, x⟩).2) ∧
      (evs = List.replicate n .notReady ++ .done :: rest →
        run call pollFut (n + (k + 1)) (new inner ⟨metadata, evs⟩) =
          .ok (List.replicate n (.ok .notReady) ++ [.error missingRequestMessage],
            ⟨inner, some (.requesting ⟨metadata, rest⟩), []⟩)) ∧
      (∀ e, evs = List.replicate n .notReady ++ .error e :: rest →
        run call pollFut (n + (k + 1)) (new inner ⟨metadata, evs⟩) =
          .ok (List.replicate n (.ok .notReady) ++ [.error e],
            ⟨inner, some (.requesting ⟨metadata, rest⟩), []⟩)) := by
  refine ⟨run_new_calls call pollFut inner metadata evs, fun n rest k => ⟨?_, ?_, ?_⟩⟩
  · -- the message comes first: one call, then the future's own answers
    intro x hevs
    rw [hevs, new, run_requesting_notReady, run_requesting_item]
    cases runFuture pollFut (k + 1) (call inner ⟨metadata, x⟩).2 <;> rfl
  · intro hevs
    rw [hevs, new, run_requesting_notReady, run_requesting_done]
    rfl
  · intro e hevs
    rw [hevs, new, run_requesting_notReady, run_requesting_error]
    rfl

/-- A request stream that yields its message after `n` pauses, and a service whose future
settles after `m` pauses: `Inner` answers `NotReady` `n + m` times and then the future's last
answer, having called the service once, with the message and the request's metadata. -/
theorem run_new_reply (inner : T) (metadata : HeaderMap) (n : Nat) (x : α)
    (rest : List (StreamEvent α)) {m : Nat} {last : Poll β Status} {fut' : F}
    (hsvc : runFuture pollFut (m + 1) (call inner ⟨metadata, x⟩).2 =
      .ok (List.replicate m (.ok .notReady) ++ [last], fut')) :
    run call pollFut (n + (m + 1))
        (new inner ⟨metadata, List.replicate n .notReady ++ .item x :: rest⟩) =
      .ok (List.replicate (n + m) (.ok .notReady) ++ [last],
        ⟨(call inner ⟨metadata, x⟩).1, some (.responding fut'), [⟨metadata, x⟩]⟩) := by
  rw [new, run_requesting_notReady, run_requesting_item, hsvc, List.replicate_add,
    List.append_assoc]
  rfl

end Poll

/-- A service that answers each request with its message, driven over a stream that is not
ready once and then yields 7: one call, with 7, and the answer 7 on the second poll. -/
theorem run_new_echo :
    run (fun (t : Unit) (r : Request Nat) => (t, r.message))
        (fun f => ((.ok (.ready f) : Poll Nat Status), f)) (1 + (0 + 1))
        (new () ⟨Multimap.empty, [.notReady, .item 7]⟩) =
      .ok ([.ok .notReady, .ok (.ready 7)],
        ⟨(), some (.responding 7), [⟨Multimap.empty, 7⟩]⟩) :=
  ((run_new _ _ () Multimap.empty [.notReady, .item 7]).2 1 [] 0).1 7 rfl

end ServerStreaming

/-! ## `unary`: a unary service driven as a server-streaming one -/

namespace Unary

/-- `Once`: a stream of at most one item. -/
structure Once (U : Type) where
  inner : Option U

/-- `Once::map`: a response whose message becomes the one item of a `Once` stream. -/
def Once.map {U : Type} (response : Response U) : Response (Once U) :=
  response.map fun body => ⟨some body⟩

/-- `Stream::poll` for `Once`: `Ok(self.inner.take().into())`. -/
def Once.poll {U : Type} (o : Once U) : Poll (Option U) Status × Once U :=
  (.ok (.ready o.inner), ⟨none⟩)

/-- `Inner`: the unary service, as the service that `server_streaming::Inner` calls. -/
structure Inner (T : Type) where
  inner : T

/-- `InnerFuture`: the unary service's future. -/
structure InnerFuture (F : Type) where
  fut : F

section Unary

variable {T F α U : Type} (callUnary : T → Request α → T × F)
  (pollUnary : F → Poll (Response U) Status × F)

/-- `Service::call` for `Inner`: call the unary service, and wrap its future. -/
def Inner.call (s : Inner T) (request : Request α) : Inner T × InnerFuture F :=
  let (inner, fut) := callUnary s.inner request
  (⟨inner⟩, ⟨fut⟩)

/-- `Future::poll` for `InnerFuture`: `try_ready!` on the unary future, then its response
over a `Once` stream. -/
def InnerFuture.poll (f : InnerFuture F) : Poll (Response (Once U)) Status × InnerFuture F :=
  let (r, fut) := pollUnary f.fut
  (Except.map (Async.map Once.map) r, ⟨fut⟩)

/-- The `Inner` that `unary::ResponseFuture::new` builds, through
`server_streaming::ResponseFuture::new`. -/
def new (inner : T) (request : Request (List (StreamEvent α))) :
    ServerStreaming.Inner (Inner T) (InnerFuture F) α :=
  ServerStreaming.new ⟨inner⟩ request

/-- `InnerFuture` answers as the unary future does, each response put over a `Once`
stream. -/
theorem runFuture_innerFuture (k : Nat) (fut : F) :
    (fun r => (r.1, r.2.fut)) <$> runFuture (InnerFuture.poll pollUnary) k ⟨fut⟩ =
      (fun r => (r.1.map (Except.map (Async.map Once.map)), r.2)) <$>
        runFuture pollUnary k fut := by
  -- the unary future's run simulates the wrapper's, through the wrapped future
  have h := @Run.run_refines Fault (InnerFuture F) F (Poll (Response (Once U)) Status)
    (Poll (Response U) Status) (fun f => .ok (InnerFuture.poll pollUnary f)) settled
    (fun f => .ok (pollUnary f)) settled InnerFuture.fut (fun _ => True)
    (Except.map (Async.map Once.map)) (settled_map _) (fun _ _ => rfl)
    (fun _ _ _ _ _ _ => trivial) k ⟨fut⟩ trivial
  exact h.symm

/-- A unary call whose request stream yields its message after `n` `NotReady`s calls the
unary service once, with that message and the request's metadata, and then answers as the
service's future does, its response over a `Once` stream. -/
theorem run_new_message (inner : T) (metadata : HeaderMap) (n : Nat) (x : α)
    (rest : List (StreamEvent α)) (k : Nat) :
    (fun r => (r.1, r.2.calls)) <$> ServerStreaming.run (Inner.call callUnary)
        (InnerFuture.poll pollUnary) (n + (k + 1))
        (new inner ⟨metadata, List.replicate n .notReady ++ .item x :: rest⟩) =
      (fun r => (List.replicate n (.ok .notReady) ++ r.1.map (Except.map (Async.map Once.map)),
        [⟨metadata, x⟩])) <$> runFuture pollUnary (k + 1) (callUnary inner ⟨metadata, x⟩).2 := by
  rw [new, ServerStreaming.new, ServerStreaming.run_requesting_notReady,
    ServerStreaming.run_requesting_item]
  -- the calls are read off the wrapper's future, whose run is the unary future's
  calc _ = (fun r => (List.replicate n (.ok .notReady) ++ r.1, [⟨metadata, x⟩])) <$>
          ((fun r => (r.1, r.2.fut)) <$> runFuture (InnerFuture.poll pollUnary) (k + 1)
            ⟨(callUnary inner ⟨metadata, x⟩).2⟩) := by
        simp only [Functor.map_map]
        rfl
    _ = _ := by rw [runFuture_innerFuture, Functor.map_map]

end Unary

end Unary

end TowerGrpc
