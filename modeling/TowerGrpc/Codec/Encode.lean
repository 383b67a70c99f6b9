import TowerGrpc.Codec.Buf
import TowerGrpc.Status
import TowerGrpc.Lib.Run

/-!
# `Encode`: framing a stream of messages

The encoder half of `generic/codec.rs`, an HTTP body. Each `poll_data` pulls one item from
the inner stream, reserves five bytes of `buf` for the header, lets the encoder append the
message, writes the header over the first five bytes of `buf` from `buf.len() - 5`, and
splits the whole of `buf` off as the chunk. An error of the stream or the encoder goes
straight out in the client role; in the server role it is kept for the trailers and the
data ends.

`buf` holds `Option UInt8`: a reserved byte that nothing has written is `none`, since
`reserve` does not zero memory. The inner stream is given by its answers, and the encoder
by what one `encode` call does: the bytes it appends and the error it ends with, if any.
-/

namespace TowerGrpc

open Rust Http

inductive Role where
  | client
  | server
  deriving DecidableEq, Repr

/-- One answer of the inner stream's `poll`; an error is the `Status` that
`Status::from_error` makes of it. -/
inductive StreamEvent (α : Type) where
  | item (x : α)
  | done
  | notReady
  | error (e : Status)

abbrev Encoder (α : Type) := α → List UInt8 × Option Status

inductive EncodeInner (α : Type) where
  | ok (inner : List (StreamEvent α))
  | empty
  | err (status : Status)

structure Encode (α : Type) where
  inner : EncodeInner α
  buf : List (Option UInt8)
  role : Role

/-- The four bytes of `put_u32_be`. -/
def be32 (n : Nat) : List UInt8 :=
  [UInt8.ofNat (n / 2 ^ 24), UInt8.ofNat (n / 2 ^ 16), UInt8.ofNat (n / 2 ^ 8), UInt8.ofNat n]

@[simp] theorem length_be32 (n : Nat) : (be32 n).length = 4 := rfl

/-- A gRPC frame: flag byte zero, the big-endian length, the message. -/
def frame (msg : List UInt8) : List UInt8 := 0 :: be32 msg.length ++ msg

namespace Encode

variable {α : Type} (enc : Encoder α)

def request (inner : List (StreamEvent α)) : Encode α := ⟨.ok inner, [], .client⟩

def response (inner : List (StreamEvent α)) : Encode α := ⟨.ok inner, [], .server⟩

def empty : Encode α := ⟨.empty, [], .server⟩

/-- `EncodeInner::poll_encode`, with the inner state and `buf` it leaves. -/
def pollEncode (inner : EncodeInner α) (buf : List (Option UInt8)) :
    M (Poll (Option (List (Option UInt8))) Status × EncodeInner α × List (Option UInt8)) :=
  match inner with
  | .ok [] => .ok (.ok .notReady, inner, buf)
  | .ok (.notReady :: evs) => .ok (.ok .notReady, .ok evs, buf)
  | .ok (.error e :: evs) => .ok (.error e, .ok evs, buf)
  | .ok (.done :: evs) => .ok (.ok (.ready none), .ok evs, buf)
  | .ok (.item x :: evs) =>
    -- `reserve(5)` and `advance_mut(5)`, then the encoder appends
    let buf := buf ++ List.replicate 5 none ++ (enc x).1.map some
    match (enc x).2 with
    | some e => .ok (.error e, .ok evs, buf)
    | none =>
      let len := buf.length - 5
      if len > 2 ^ 32 - 1 then .error .panic
      else
        -- the header goes over `buf[..5]`, then `split_to(len + 5)` takes all of `buf`
        let buf := (0 :: be32 len).map some ++ buf.drop 5
        .ok (.ok (.ready (some (buf.take (len + 5)))), .ok evs, buf.drop (len + 5))
  | _ => .ok (.ok (.ready none), inner, buf)

/-- `Encode::poll_data`. -/
def pollData (e : Encode α) : M (Poll (Option (List (Option UInt8))) Status × Encode α) := do
  let (r, inner, buf) ← pollEncode enc e.inner e.buf
  match r with
  | .ok p => pure (.ok p, { e with inner, buf })
  | .error status =>
    match e.role with
    | .client => pure (.error status, { e with inner, buf })
    | .server => pure (.ok (.ready none), { e with inner := .err status, buf })

/-- `Ok(Some(map?).into())`: the map as trailers, or the error of building it. -/
def trailersOf : Except Status HeaderMap → Poll (Option HeaderMap) Status
  | .ok m => .ok (.ready (some m))
  | .error e => .error e

/-- `Encode::poll_trailers`. -/
def pollTrailers (e : Encode α) : M (Poll (Option HeaderMap) Status) :=
  match e.role, e.inner with
  | .client, _ => .ok (.ok (.ready none))
  | .server, .empty => .ok (.ok (.ready none))
  | .server, .ok _ => trailersOf <$> (Status.new .ok "").toHeaderMap
  | .server, .err status => trailersOf <$> status.toHeaderMap

/-- Whether an answer ends the body for the HTTP layer: after an error it resets the stream
and polls no more. -/
def endsBody {β : Type} : Poll β Status → Bool
  | .error _ => true
  | .ok _ => false

/-- Up to `k` calls of `poll_data`, the way the HTTP layer reads the body: the answers and the
body they leave. -/
def runData (k : Nat) (e : Encode α) :
    M (List (Poll (Option (List (Option UInt8))) Status) × Encode α) :=
  Run.run (pollData enc) endsBody k e

/-! ## The body on whole messages

What `poll_data` is meant to answer, with the buffer abstracted away: the frame of each item
the encoder writes, and an error of the stream or the encoder handled by role. The model
above refines it over every run from an empty buffer (`runData_eq_specRun`). -/

/-- The answer to a `poll_data` that fails with `status`, and the inner state it leaves: a
client sends the error; a server ends the data and keeps the status for the trailers. -/
def failWith (role : Role) (status : Status) (evs : List (StreamEvent α)) :
    Poll (Option (List UInt8)) Status × EncodeInner α :=
  match role with
  | .client => (.error status, .ok evs)
  | .server => (.ok (.ready none), .err status)

def specStep (role : Role) :
    EncodeInner α → M (Poll (Option (List UInt8)) Status × EncodeInner α)
  | .ok [] => .ok (.ok .notReady, .ok [])
  | .ok (.notReady :: evs) => .ok (.ok .notReady, .ok evs)
  | .ok (.done :: evs) => .ok (.ok (.ready none), .ok evs)
  | .ok (.error status :: evs) => .ok (failWith role status evs)
  | .ok (.item x :: evs) =>
    match (enc x).2 with
    | some status => .ok (failWith role status evs)
    | none =>
      -- the length has to fit the header's four bytes
      if (enc x).1.length > 2 ^ 32 - 1 then .error .panic
      else .ok (.ok (.ready (some (frame (enc x).1))), .ok evs)
  | inner => .ok (.ok (.ready none), inner)

def specRun (role : Role) (k : Nat) (inner : EncodeInner α) :
    M (List (Poll (Option (List UInt8)) Status) × EncodeInner α) :=
  Run.run (specStep enc role) endsBody k inner

/-- A chunk of the abstract body as the model's bytes, every one of them written. -/
def liftChunk : Poll (Option (List UInt8)) Status → Poll (Option (List (Option UInt8))) Status
  | .ok (.ready (some c)) => .ok (.ready (some (c.map some)))
  | .ok (.ready none) => .ok (.ready none)
  | .ok .notReady => .ok .notReady
  | .error e => .error e

theorem endsBody_liftChunk (p : Poll (Option (List UInt8)) Status) :
    endsBody (liftChunk p) = endsBody p := by
  rcases p with _ | ⟨_ | _⟩ | _ <;> rfl

/-- The invariant of the model: while the stream is live, `buf` is empty between calls. -/
def Clean (e : Encode α) : Prop := ∀ evs, e.inner = .ok evs → e.buf = []

/-- From an empty `buf`, an item the encoder writes in full comes out as one whole frame,
and `buf` is empty again. -/
theorem pollEncode_item {x : α} {evs : List (StreamEvent α)} (hok : (enc x).2 = none)
    (hlen : (enc x).1.length < 2 ^ 32) :
    pollEncode enc (.ok (.item x :: evs)) [] =
      .ok (.ok (.ready (some ((frame (enc x).1).map some))), .ok evs, []) := by
  have hle : ¬ 4294967295 < (enc x).1.length := by omega
  simp [pollEncode, hok, hle, frame, List.take_append, List.drop_append,
    List.take_of_length_le]

/-- The failed encoder's output stays in `buf`: the reserved header, then what it wrote. -/
theorem pollEncode_item_error {x : α} (evs : List (StreamEvent α)) {status : Status}
    (hx : (enc x).2 = some status) :
    pollEncode enc (.ok (.item x :: evs)) [] =
      .ok (.error status, .ok evs, List.replicate 5 none ++ (enc x).1.map some) := by
  simp [pollEncode, hx]

/-- An error of the stream or the encoder, as `pollData` hands it on. -/
theorem pollData_of_error (role : Role) {inner : EncodeInner α} {buf buf' : List (Option UInt8)}
    {status : Status} {evs : List (StreamEvent α)}
    (h : pollEncode enc inner buf = .ok (.error status, .ok evs, buf')) :
    ∃ buf'', pollData enc ⟨inner, buf, role⟩ =
      .ok (liftChunk (failWith role status evs).1, ⟨(failWith role status evs).2, buf'', role⟩) := by
  cases role <;> exact ⟨buf', by simp [pollData, h, failWith, liftChunk]⟩

/-- One call: from a clean state, `poll_data` ends as `specStep` does, its chunk the
abstract one with every byte written. -/
theorem pollData_refines {e : Encode α} (he : Clean e) :
    (fun r => (liftChunk r.1, r.2)) <$> specStep enc e.role e.inner =
      (fun r => (r.1, r.2.inner)) <$> pollData enc e := by
  obtain ⟨inner, buf, role⟩ := e
  cases inner with
  | ok evs =>
    obtain rfl : buf = [] := he evs rfl
    rcases evs with _ | ⟨_ | _ | _ | status, evs⟩
    · rfl
    · rename_i x
      cases hx : (enc x).2 with
      | none =>
        by_cases hlen : (enc x).1.length < 2 ^ 32
        · have hle : ¬ 4294967295 < (enc x).1.length := by omega
          simp [pollData, pollEncode_item enc hx hlen, specStep, hx, hle, liftChunk]
        · -- a message too long for the header: the `assert!` of both
          have hgt : 4294967295 < (enc x).1.length := by omega
          simp [pollData, pollEncode, specStep, hx, hgt]
      | some status =>
        obtain ⟨buf', hd⟩ := pollData_of_error enc role (pollEncode_item_error enc evs hx)
        simp [specStep, hx, hd]
    · rfl
    · rfl
    · have h : pollEncode enc (.ok (.error status :: evs)) [] = .ok (.error status, .ok evs, []) :=
        rfl
      obtain ⟨buf', hd⟩ := pollData_of_error enc role h
      simp [specStep, hd]
  | empty => rfl
  | err status => rfl

/-- A failure that does not end the body leaves it clean: it is a server's, and the stream is
given up. -/
theorem failWith_clean (role : Role) (status : Status) (evs : List (StreamEvent α))
    (buf : List (Option UInt8)) (hp : endsBody (liftChunk (failWith role status evs).1) = false) :
    Clean ⟨(failWith role status evs).2, buf, role⟩ := by
  intro evs' hinner
  cases role
  · simp [failWith, liftChunk, endsBody] at hp
  · simp [failWith] at hinner

/-- A call that does not end the body leaves it clean. -/
theorem pollData_clean {e e' : Encode α} {p : Poll (Option (List (Option UInt8))) Status}
    (he : Clean e) (h : pollData enc e = .ok (p, e')) (hp : endsBody p = false) : Clean e' := by
  intro evs' hinner'
  obtain ⟨inner, buf, role⟩ := e
  cases inner with
  | ok evs =>
    obtain rfl : buf = [] := he evs rfl
    rcases evs with _ | ⟨_ | _ | _ | status, evs⟩
    · simp [pollData, pollEncode] at h
      rw [← h.2]
    · rename_i x
      cases hx : (enc x).2 with
      | none =>
        by_cases hlen : (enc x).1.length < 2 ^ 32
        · simp [pollData, pollEncode_item enc hx hlen] at h
          rw [← h.2]
        · have hgt : 4294967295 < (enc x).1.length := by omega
          simp [pollData, pollEncode, hx, hgt] at h
      | some status =>
        -- the client sends the error and the run ends; the server gives up the stream
        obtain ⟨buf', hd⟩ := pollData_of_error enc role (pollEncode_item_error enc evs hx)
        rw [hd] at h
        obtain ⟨rfl, rfl⟩ := Prod.mk.inj (Except.ok.inj h)
        exact failWith_clean role status evs buf' hp evs' hinner'
    · simp [pollData, pollEncode] at h
      rw [← h.2]
    · simp [pollData, pollEncode] at h
      rw [← h.2]
    · have h' : pollEncode enc (.ok (.error status :: evs)) [] =
          .ok (.error status, .ok evs, []) := rfl
      obtain ⟨buf', hd⟩ := pollData_of_error enc role h'
      rw [hd] at h
      obtain ⟨rfl, rfl⟩ := Prod.mk.inj (Except.ok.inj h)
      exact failWith_clean role status evs buf' hp evs' hinner'
  | empty =>
    simp [pollData, pollEncode] at h
    rw [← h.2] at hinner'
    cases hinner'
  | err status =>
    simp [pollData, pollEncode] at h
    rw [← h.2] at hinner'
    cases hinner'

theorem pollData_role {e e' : Encode α} {p : Poll (Option (List (Option UInt8))) Status}
    (h : pollData enc e = .ok (p, e')) : e'.role = e.role := by
  obtain ⟨⟨r, inner, buf⟩, -, h⟩ := Rust.bind_eq_ok.mp h
  rcases r with status | r
  · cases hrole : e.role <;> simp only [hrole, Rust.pure_eq_ok, Except.ok.injEq] at h <;>
      rw [← (Prod.mk.inj h).2]
  · simp only [Rust.pure_eq_ok, Except.ok.injEq] at h
    rw [← (Prod.mk.inj h).2]

/-- A run of `poll_data` calls from an empty buffer ends as the body on whole messages does:
with the same fault, or with the same answers, every chunk byte written, and the same inner
state. -/
theorem runData_eq_specRun (inner : EncodeInner α) (role : Role) (k : Nat) :
    (fun r => (r.1.map liftChunk, r.2)) <$> specRun enc role k inner =
      (fun r => (r.1, r.2.inner)) <$> runData enc k ⟨inner, [], role⟩ := by
  refine Run.run_refines Encode.inner (fun e => e.role = role ∧ Clean e) liftChunk
    endsBody_liftChunk ?_ ?_ k (s := ⟨inner, [], role⟩) ⟨rfl, fun _ _ => rfl⟩
  · rintro e ⟨rfl, hclean⟩
    exact pollData_refines enc hclean
  · rintro e p e' ⟨hrole, hclean⟩ h hp
    exact ⟨(pollData_role enc h).trans hrole, pollData_clean enc hclean h hp⟩

/-- The role is never written. -/
theorem runData_role {e e' : Encode α} {k : Nat}
    {as : List (Poll (Option (List (Option UInt8))) Status)}
    (h : runData enc k e = .ok (as, e')) : e'.role = e.role :=
  Run.run_invariant (fun e' => e'.role = e.role)
    (fun _ _ _ hr hd => (pollData_role enc hd).trans hr) rfl h

/-- A run of the body on whole messages gives the run of `poll_data` from an empty buffer:
the same answers with every byte written, and a body with the same inner state and role. -/
theorem runData_of_specRun {inner inner' : EncodeInner α} {role : Role} {k : Nat}
    {as : List (Poll (Option (List UInt8)) Status)}
    (h : specRun enc role k inner = .ok (as, inner')) :
    ∃ e', runData enc k ⟨inner, [], role⟩ = .ok (as.map liftChunk, e') ∧ e'.inner = inner' ∧
      e'.role = role := by
  have href := runData_eq_specRun enc inner role k
  rw [h] at href
  cases hr : runData enc k ⟨inner, [], role⟩ with
  | error f => simp [hr] at href
  | ok r =>
    obtain ⟨as', e'⟩ := r
    simp only [hr, map_ok, Except.ok.injEq, Prod.mk.injEq] at href
    obtain ⟨rfl, rfl⟩ := href
    exact ⟨e', rfl, rfl, runData_role enc hr⟩

/-- A run of `poll_data` from an empty buffer ends in the inner state the body on whole
messages ends in. -/
theorem specRun_of_runData {inner : EncodeInner α} {role : Role} {k : Nat}
    {as : List (Poll (Option (List (Option UInt8))) Status)} {e' : Encode α}
    (h : runData enc k ⟨inner, [], role⟩ = .ok (as, e')) :
    ∃ as', specRun enc role k inner = .ok (as', e'.inner) := by
  have href := runData_eq_specRun enc inner role k
  rw [h] at href
  cases hs : specRun enc role k inner with
  | error f => simp [hs] at href
  | ok r =>
    simp only [hs, map_ok, Except.ok.injEq, Prod.mk.injEq] at href
    exact ⟨r.1, by rw [← href.2]⟩

/-! ## The trailers after a run

`poll_trailers` reads only the role and the inner state, so what it sends after a run follows
from where the body on whole messages ends. A server's body reads the stream one event a call
until the first failure, which it keeps (`KeepsFirstFailure`, an invariant of its steps). -/

/-- The failure an event brings about: the encoder's on an item, or the stream's error. -/
def failure : StreamEvent α → Option Status
  | .item x => (enc x).2
  | .error status => some status
  | _ => none

/-- Where a server's body on whole messages stands after reading part of the stream `evs`:
live over the rest, with no failure in what it read, or holding the stream's first failure. -/
def KeepsFirstFailure (evs : List (StreamEvent α)) : EncodeInner α → Prop
  | .ok rest => ∃ read, evs = read ++ rest ∧ read.filterMap (failure enc) = []
  | .empty => False
  | .err status => (evs.filterMap (failure enc)).head? = some status

/-- What a server's step does with the next event: it keeps a failure, and reads past
anything else. -/
theorem specStep_server_cons {ev : StreamEvent α} {rest : List (StreamEvent α)}
    {p : Poll (Option (List UInt8)) Status} {s' : EncodeInner α}
    (h : specStep enc .server (.ok (ev :: rest)) = .ok (p, s')) :
    s' = match failure enc ev with
      | some status => .err status
      | none => .ok rest := by
  cases ev with
  | item x =>
    cases hx : (enc x).2 with
    | some status =>
      simp only [specStep, hx, failWith, Except.ok.injEq, Prod.mk.injEq] at h
      simp [failure, hx, ← h.2]
    | none =>
      -- an item that is framed, or fails the length assert and ends no run
      by_cases hlen : (enc x).1.length < 2 ^ 32
      · have hle : ¬ (enc x).1.length > 2 ^ 32 - 1 := by omega
        simp only [specStep, hx, hle, if_false, Except.ok.injEq, Prod.mk.injEq] at h
        simp [failure, hx, ← h.2]
      · have hgt : 4294967295 < (enc x).1.length := by omega
        simp [specStep, hx, hgt] at h
  | done => cases h; rfl
  | notReady => cases h; rfl
  | error status => cases h; rfl

/-- Each step of a server's body keeps `KeepsFirstFailure`. -/
theorem specStep_keepsFirstFailure {evs : List (StreamEvent α)} {s s' : EncodeInner α}
    {p : Poll (Option (List UInt8)) Status} (hs : KeepsFirstFailure enc evs s)
    (h : specStep enc .server s = .ok (p, s')) : KeepsFirstFailure enc evs s' := by
  cases s with
  | empty => exact hs.elim
  | err status =>
    cases h
    exact hs
  | ok rest =>
    obtain ⟨read, rfl, hread⟩ := hs
    cases rest with
    | nil =>
      cases h
      exact ⟨read, rfl, hread⟩
    | cons ev rest =>
      rw [specStep_server_cons enc h]
      -- the event read is the first failure, or joins what was read without one
      cases hev : failure enc ev with
      | none => exact ⟨read ++ [ev], by simp, by simp [hread, hev]⟩
      | some status => simp [KeepsFirstFailure, hread, hev]

/-- A server's body on whole messages, run from a live stream, ends live with no failure in
what it read, or holding the stream's first failure. -/
theorem specRun_keepsFirstFailure {evs : List (StreamEvent α)} {k : Nat}
    {as : List (Poll (Option (List UInt8)) Status)} {inner' : EncodeInner α}
    (h : specRun enc .server k (.ok evs) = .ok (as, inner')) :
    KeepsFirstFailure enc evs inner' :=
  Run.run_invariant (KeepsFirstFailure enc evs)
    (fun _ _ _ hs hstep => specStep_keepsFirstFailure enc hs hstep)
    (show KeepsFirstFailure enc evs (.ok evs) from ⟨[], rfl, rfl⟩) h

/-- An empty body stays empty. -/
theorem specRun_empty {role : Role} {k : Nat} {as : List (Poll (Option (List UInt8)) Status)}
    {inner' : EncodeInner α} (h : specRun enc role k .empty = .ok (as, inner')) :
    inner' = .empty :=
  Run.run_invariant (· = .empty) (fun _ _ _ hs hstep => by subst hs; cases hstep; rfl) rfl h

theorem runData_refines (inner : EncodeInner α) (role : Role) (k : Nat) :
    (fun r => (r.1.map liftChunk, r.2)) <$> specRun enc role k inner =
      (fun r => (r.1, r.2.inner)) <$> runData enc k ⟨inner, [], role⟩ ∧
    ∀ as e', runData enc k ⟨inner, [], role⟩ = .ok (as, e') → e'.role = role ∧
      (inner = .empty → pollTrailers e' = .ok (.ok (.ready none))) ∧
      ∀ evs, inner = .ok evs →
        (role = .client → pollTrailers e' = .ok (.ok (.ready none))) ∧
        (role = .server →
          (∃ read rest, evs = read ++ rest ∧ read.filterMap (failure enc) = [] ∧
            e'.inner = .ok rest ∧
            pollTrailers e' = trailersOf <$> (Status.new .ok "").toHeaderMap) ∨
          ∃ status, (evs.filterMap (failure enc)).head? = some status ∧
            pollTrailers e' = trailersOf <$> status.toHeaderMap) := by
  refine ⟨runData_eq_specRun enc inner role k, fun as e' h => ?_⟩
  obtain ⟨inner', buf', role'⟩ := e'
  obtain rfl : role = role' := (runData_role enc h).symm
  obtain ⟨as', hspec⟩ := specRun_of_runData enc h
  refine ⟨rfl, ?_, fun evs hevs => ⟨by rintro rfl; rfl, ?_⟩⟩
  · rintro rfl
    obtain rfl : inner' = .empty := specRun_empty enc hspec
    cases role <;> rfl
  · rintro rfl
    subst hevs
    -- the trailers read the inner state the body on whole messages ends in
    cases inner' with
    | ok rest =>
      obtain ⟨read, hread, hnone⟩ := specRun_keepsFirstFailure enc hspec
      exact .inl ⟨read, rest, hread, hnone, rfl, rfl⟩
    | empty => exact (specRun_keepsFirstFailure enc hspec).elim
    | err status => exact .inr ⟨status, specRun_keepsFirstFailure enc hspec, rfl⟩

/-- A stream of items that all encode within the length limit, then its end: their frames,
then the end of the data. -/
theorem specRun_items (role : Role) {xs : List α}
    (hxs : ∀ x ∈ xs, (enc x).2 = none ∧ (enc x).1.length < 2 ^ 32) (evs : List (StreamEvent α)) :
    specRun enc role (xs.length + 1) (.ok (xs.map .item ++ .done :: evs)) =
      .ok (xs.map (fun x => .ok (.ready (some (frame (enc x).1)))) ++ [.ok (.ready none)],
        .ok evs) := by
  induction xs with
  | nil => rfl
  | cons x xs ih =>
    obtain ⟨hx, hlen⟩ := hxs x (by simp)
    have hle : ¬ 4294967295 < (enc x).1.length := by omega
    have hstep : specStep enc role (.ok ((x :: xs).map .item ++ .done :: evs)) =
        .ok (.ok (.ready (some (frame (enc x).1))), .ok (xs.map .item ++ .done :: evs)) := by
      simp [specStep, hx, hle]
    have ih' := ih (fun y hy => hxs y (by simp [hy]))
    simp only [specRun] at ih' ⊢
    rw [List.length_cons, Run.run_succ_of_continue hstep rfl, ih']
    rfl

/-- A stream that yields items within the length limit, with pauses between them, and then
`tail`: a frame for each item and a pause for each of the stream's pauses, one call per event,
and then the run over `tail`. -/
theorem specRun_pauses (role : Role) {xs : List α}
    (hxs : ∀ x ∈ xs, (enc x).2 = none ∧ (enc x).1.length < 2 ^ 32)
    {evs : List (StreamEvent α)} (hevs : Run.Pauses .notReady evs (xs.map .item))
    (tail : List (StreamEvent α)) (k : Nat) :
    ∃ sent, Run.Pauses (.ok .notReady) sent
        (xs.map (fun x => .ok (.ready (some (frame (enc x).1))))) ∧
      specRun enc role (evs.length + k) (.ok (evs ++ tail)) =
        (fun r => (sent ++ r.1, r.2)) <$> specRun enc role k (.ok tail) := by
  -- induction on the pauses, with the items between them left general
  generalize hr : xs.map StreamEvent.item = r at hevs
  induction hevs generalizing xs with
  | nil =>
    obtain rfl : xs = [] := List.map_eq_nil_iff.mp hr
    refine ⟨[], .nil, ?_⟩
    simp only [List.length_nil, Nat.zero_add, List.nil_append, Prod.mk.eta, id_map']
  | @keep b l r hp ih =>
    obtain ⟨x, xs', rfl, rfl, rfl⟩ := List.map_eq_cons_iff.mp hr
    obtain ⟨hx, hlen⟩ := hxs x (by simp)
    have hle : ¬ 4294967295 < (enc x).1.length := by omega
    have hstep : specStep enc role (.ok (.item x :: (l ++ tail))) =
        .ok (.ok (.ready (some (frame (enc x).1))), .ok (l ++ tail)) := by
      simp [specStep, hx, hle]
    obtain ⟨sent, hsent, hrun⟩ := ih (fun y hy => hxs y (by simp [hy])) rfl
    refine ⟨_ :: sent, .keep hsent, ?_⟩
    rw [List.cons_append, List.length_cons, Nat.add_right_comm, specRun,
      Run.run_succ_of_continue hstep rfl, ← specRun, hrun, Functor.map_map]
    rfl
  | @pause l r hp ih =>
    have hstep : specStep enc role (.ok (.notReady :: (l ++ tail))) =
        .ok (.ok .notReady, .ok (l ++ tail)) := rfl
    obtain ⟨sent, hsent, hrun⟩ := ih hxs hr
    refine ⟨_ :: sent, .pause hsent, ?_⟩
    rw [List.cons_append, List.length_cons, Nat.add_right_comm, specRun,
      Run.run_succ_of_continue hstep rfl, ← specRun, hrun, Functor.map_map]
    rfl

/-- The same on the bytes, with the event that follows the items: from an empty buffer, the
`poll_data` calls send the frames of the items with a pause for each of the stream's, then
the answer to that event, and leave the body in the state that event leaves. -/
theorem runData_pauses (role : Role) {xs : List α}
    (hxs : ∀ x ∈ xs, (enc x).2 = none ∧ (enc x).1.length < 2 ^ 32)
    {evs : List (StreamEvent α)} (hevs : Run.Pauses .notReady evs (xs.map .item))
    {tail : List (StreamEvent α)} {p : Poll (Option (List UInt8)) Status} {inner' : EncodeInner α}
    (hlast : specStep enc role (.ok tail) = .ok (p, inner')) :
    ∃ sent e', runData enc (evs.length + 1) ⟨.ok (evs ++ tail), [], role⟩ = .ok (sent, e') ∧
      Run.Pauses (.ok .notReady) sent
        (xs.map (fun x => .ok (.ready (some ((frame (enc x).1).map some)))) ++ [liftChunk p]) ∧
      e'.inner = inner' ∧ e'.role = role := by
  obtain ⟨sent, hsent, hrun⟩ := specRun_pauses enc role hxs hevs tail 1
  have hone : specRun enc role 1 (.ok tail) = .ok ([p], inner') := Run.run_one hlast
  rw [hone] at hrun
  obtain ⟨e', hdata, hinner, hrole⟩ := runData_of_specRun enc hrun
  refine ⟨_, e', hdata, ?_, hinner, hrole⟩
  rw [List.map_append]
  refine Run.Pauses.append ?_ (.refl _)
  simpa [liftChunk, Function.comp_def] using hsent.map liftChunk

/-- An encoder that fails on `0` after writing one byte, and writes `2` for anything else. -/
def failOnZero : Encoder Nat := fun x =>
  if x = 0 then ([1], some (Status.new .internal "")) else ([2], none)

theorem pollData_client_after_error :
    (pollData failOnZero (request [.item 0, .item 1]) >>= fun r =>
      (fun r' => (r.1, r'.1)) <$> pollData failOnZero r.2) =
    .ok (.error (Status.new .internal ""),
      .ok (.ready (some (some 0 :: (be32 7).map some ++ some 1 :: List.replicate 5 none ++
        [some 2])))) := by
  rfl

end Encode

end TowerGrpc
