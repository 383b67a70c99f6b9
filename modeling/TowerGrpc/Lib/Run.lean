import TowerGrpc.Lib.Rust

/-!
# Runs of a polled machine

A polled machine answers each call and moves to its next state, or fails. `run` makes up to
`k` calls and ends early after an answer that `stop` picks (an error, the end of a stream).

A machine refines an abstract one through an abstraction function `abs` when each step
from a state the invariant allows ends as the abstract step ends from the state's
abstraction: with the same fault, or with the same answer, seen through `f`, and the next
state, seen through `abs`. `run_refines` lifts that from one step to whole runs, and
`run_spec`, the invariant rule, lifts what each step keeps and what each answer has.

A machine may also answer "not yet" any number of times between the answers that matter.
`Pauses q l r` says that the answers `l` are the answers `r` with pauses `q` put in anywhere,
and `run_pauses` proves it of whole runs from one step: from a state indexed by the answers
still to come and a bound on the pauses still to come, each step pauses within the bound or
gives the next answer, and the run stops right after the last one.
-/

namespace Run

open Rust

variable {ε σ τ β γ : Type}

/-- Up to `k` calls of `step` from `s`, ending after the first answer that `stop` picks: the
answers, and the state after the last call. -/
def run (step : σ → Except ε (β × σ)) (stop : β → Bool) : Nat → σ → Except ε (List β × σ)
  | 0, s => .ok ([], s)
  | k + 1, s => do
    let (b, s) ← step s
    if stop b then pure ([b], s)
    else (fun r => (b :: r.1, r.2)) <$> run step stop k s

section Unfold

variable {step : σ → Except ε (β × σ)} {stop : β → Bool} {k : Nat} {s s' : σ} {b : β}

@[simp] theorem run_zero (s : σ) : run step stop 0 s = .ok ([], s) := rfl

theorem run_succ_of_stop (h : step s = .ok (b, s')) (hb : stop b = true) :
    run step stop (k + 1) s = .ok ([b], s') := by
  simp [run, h, hb]

theorem run_succ_of_continue (h : step s = .ok (b, s')) (hb : stop b = false) :
    run step stop (k + 1) s = (fun r => (b :: r.1, r.2)) <$> run step stop k s' := by
  simp [run, h, hb]

theorem run_succ_of_error {e : ε} (h : step s = .error e) :
    run step stop (k + 1) s = .error e := by
  simp [run, h]

/-- A run of one call gives that call's answer, whether it stops the run or not. -/
theorem run_one (h : step s = .ok (b, s')) : run step stop 1 s = .ok ([b], s') := by
  cases hb : stop b
  · rw [run_succ_of_continue h hb]
    rfl
  · exact run_succ_of_stop h hb

/-- A run depends on its first state only through the first step. -/
theorem run_succ_congr {s₁ s₂ : σ} (h : step s₁ = step s₂) :
    run step stop (k + 1) s₁ = run step stop (k + 1) s₂ := by
  simp only [run, h]

end Unfold

section Refinement

variable {step : σ → Except ε (β × σ)} {stop : β → Bool} {stepA : τ → Except ε (γ × τ)}
  {stopA : γ → Bool}

/-- An answer of the abstract step, seen through `f` and `abs`, is an answer of the
concrete step. -/
theorem exists_of_map_eq {abs : σ → τ} {f : γ → β} {s : σ} {c : γ} {t : τ}
    (h : (fun r => (f r.1, r.2)) <$> (Except.ok (c, t) : Except ε (γ × τ)) =
      (fun r => (r.1, abs r.2)) <$> step s) :
    ∃ s', step s = .ok (f c, s') ∧ abs s' = t := by
  cases hs : step s with
  | error e => simp [hs] at h
  | ok r =>
    obtain ⟨b, s'⟩ := r
    simp only [hs, map_ok, Except.ok.injEq, Prod.mk.injEq] at h
    exact ⟨s', by rw [h.1], h.2.symm⟩

/-- Forward simulation of runs. From each state `Inv` allows, a step ends as the abstract
step ends from the state's abstraction: with the same fault, or with the answer seen
through `f` and the next state through `abs`; and it keeps `Inv` unless its answer ends the
run. Then every run ends as the abstract run does, answer for answer. -/
theorem run_refines (abs : σ → τ) (Inv : σ → Prop) (f : γ → β)
    (hstop : ∀ c, stop (f c) = stopA c)
    (hstep : ∀ s, Inv s →
      (fun r => (f r.1, r.2)) <$> stepA (abs s) = (fun r => (r.1, abs r.2)) <$> step s)
    (hinv : ∀ s b s', Inv s → step s = .ok (b, s') → stop b = false → Inv s')
    (k : Nat) {s : σ} (hs : Inv s) :
    (fun r => (r.1.map f, r.2)) <$> run stepA stopA k (abs s) =
      (fun r => (r.1, abs r.2)) <$> run step stop k s := by
  induction k generalizing s with
  | zero => rfl
  | succ k ih =>
    have h := hstep s hs
    cases hA : stepA (abs s) with
    | error e =>
      -- the same fault ends both runs
      have hC : step s = .error e := by
        rw [hA] at h
        cases hC : step s <;> simp_all
      rw [run_succ_of_error hA, run_succ_of_error hC]
      rfl
    | ok r =>
      obtain ⟨c, t⟩ := r
      rw [hA] at h
      obtain ⟨s', hC, habs⟩ := exists_of_map_eq h
      cases hc : stopA c
      · have hb : stop (f c) = false := by rw [hstop, hc]
        have ih' := ih (hinv s (f c) s' hs hC hb)
        rw [habs] at ih'
        rw [run_succ_of_continue hA hc, run_succ_of_continue hC hb]
        cases hr : run stepA stopA k t <;> cases hr' : run step stop k s' <;>
          simp_all
      · have hb : stop (f c) = true := by rw [hstop, hc]
        rw [run_succ_of_stop hA hc, run_succ_of_stop hC hb]
        simp [habs]

/-- Invariant rule for runs. A property `P` every step keeps holds after the run, and a
property `Q` every step's answer has, from a state `P` allows, holds of every answer. -/
theorem run_spec (P : σ → Prop) (Q : β → Prop)
    (hstep : ∀ s b s', P s → step s = .ok (b, s') → Q b ∧ P s')
    {k : Nat} {s s' : σ} {bs : List β} (hs : P s) (h : run step stop k s = .ok (bs, s')) :
    (∀ b ∈ bs, Q b) ∧ P s' := by
  induction k generalizing s bs with
  | zero =>
    cases h
    simpa using hs
  | succ k ih =>
    cases hst : step s with
    | error e =>
      rw [run_succ_of_error hst] at h
      cases h
    | ok r =>
      obtain ⟨b, s₁⟩ := r
      obtain ⟨hb, hs₁⟩ := hstep s b s₁ hs hst
      cases hstop : stop b
      · rw [run_succ_of_continue hst hstop] at h
        cases hr : run step stop k s₁ with
        | error e =>
          rw [hr] at h
          cases h
        | ok r =>
          rw [hr] at h
          cases h
          obtain ⟨hbs, hs'⟩ := ih hs₁ hr
          exact ⟨List.forall_mem_cons.mpr ⟨hb, hbs⟩, hs'⟩
      · -- the run ends after this one answer
        rw [run_succ_of_stop hst hstop] at h
        cases h
        exact ⟨by simpa using hb, hs₁⟩

/-- A run returns when every step from a state `P` allows returns, to a state `P` allows. -/
theorem run_ok (P : σ → Prop) (hstep : ∀ s, P s → ∃ b s', step s = .ok (b, s') ∧ P s')
    (k : Nat) {s : σ} (hs : P s) : ∃ bs s', run step stop k s = .ok (bs, s') ∧ P s' := by
  induction k generalizing s with
  | zero => exact ⟨[], s, rfl, hs⟩
  | succ k ih =>
    obtain ⟨b, s₁, h₁, hs₁⟩ := hstep s hs
    cases hstop : stop b
    · obtain ⟨bs, s', hr, hs'⟩ := ih hs₁
      refine ⟨b :: bs, s', ?_, hs'⟩
      rw [run_succ_of_continue h₁ hstop, hr]
      rfl
    · exact ⟨[b], s₁, run_succ_of_stop h₁ hstop, hs₁⟩

/-- A property every step keeps holds after a run. -/
theorem run_invariant (P : σ → Prop) (hstep : ∀ s b s', P s → step s = .ok (b, s') → P s')
    {k : Nat} {s s' : σ} {bs : List β} (hs : P s) (h : run step stop k s = .ok (bs, s')) :
    P s' :=
  (run_spec P (fun _ => True) (fun s b s' hs h => ⟨trivial, hstep s b s' hs h⟩) hs h).2

theorem run_answers (P : σ → Prop) (Q : β → Prop)
    (hstep : ∀ s b s', P s → step s = .ok (b, s') → Q b ∧ P s')
    {k : Nat} {s s' : σ} {bs : List β} (hs : P s) (h : run step stop k s = .ok (bs, s')) :
    ∀ b ∈ bs, Q b :=
  (run_spec P Q hstep hs h).1

end Refinement

/-! ## Runs that pause -/

section Pauses

/-- `l` is `r` with any number of `q`s put in anywhere. -/
inductive Pauses (q : β) : List β → List β → Prop
  | nil : Pauses q [] []
  | keep {b : β} {l r : List β} : Pauses q l r → Pauses q (b :: l) (b :: r)
  | pause {l r : List β} : Pauses q l r → Pauses q (q :: l) r

variable {q : β}

theorem Pauses.refl : ∀ l : List β, Pauses q l l
  | [] => .nil
  | _ :: l => .keep (Pauses.refl l)

theorem Pauses.append {l₁ r₁ l₂ r₂ : List β} (h₁ : Pauses q l₁ r₁)
    (h₂ : Pauses q l₂ r₂) :
    Pauses q (l₁ ++ l₂) (r₁ ++ r₂) := by
  induction h₁ with
  | nil => exact h₂
  | keep _ ih => exact .keep ih
  | pause _ ih => exact .pause ih

theorem Pauses.map (f : β → γ) {l r : List β} (h : Pauses q l r) :
    Pauses (f q) (l.map f) (r.map f) := by
  induction h with
  | nil => exact .nil
  | keep _ ih => exact .keep ih
  | pause _ ih => exact .pause ih

/-- Before the first answer that is not a pause, a paused run has only pauses. -/
theorem Pauses.exists_replicate {b : β} {r : List β} (hb : b ≠ q) :
    ∀ {l : List β}, Pauses q l (b :: r) →
      ∃ n rest, l = List.replicate n q ++ b :: rest ∧ Pauses q rest r
  | [], h => by cases h
  | _ :: l, h => by
    cases h with
    | keep h => exact ⟨0, l, rfl, h⟩
    | pause h =>
      obtain ⟨n, rest, rfl, hrest⟩ := Pauses.exists_replicate hb h
      exact ⟨n + 1, rest, rfl, hrest⟩

variable {step : σ → Except ε (β × σ)} {stop : β → Bool}

/-- The rule for runs that pause. `P out n s` says that from `s` the machine still has the
answers `out` to give, with at most `n` pauses `q` among them. When each step from such a
state either pauses, with fewer pauses left, or gives the next answer, stopping the run
exactly when it is the last, then every run long enough for the pauses and the answers gives
`out`, paused. -/
theorem run_pauses (q : β) (P : List β → Nat → σ → Prop) (hq : stop q = false)
    (hstep : ∀ out n s, P out n s → out ≠ [] → ∃ b s', step s = .ok (b, s') ∧
      ((b = q ∧ ∃ n', n' < n ∧ P out n' s') ∨
        (∃ out', out = b :: out' ∧ (stop b = true ↔ out' = []) ∧
          (out' ≠ [] → ∃ n', n' ≤ n ∧ P out' n' s'))))
    {k : Nat} {out : List β} {n : Nat} {s : σ} (hs : P out n s) (hout : out ≠ [])
    (hk : n + out.length ≤ k) :
    ∃ answers s', run step stop k s = .ok (answers, s') ∧ Pauses q answers out := by
  -- induction on the calls left, which the pauses and the answers to come never exceed
  induction k generalizing out n s with
  | zero => exact absurd (List.length_eq_zero_iff.mp (by omega)) hout
  | succ k ih =>
    obtain ⟨b, s₁, h₁, hpause | hnext⟩ := hstep out n s hs hout
    · obtain ⟨hbq, n', hn', hs₁⟩ := hpause
      rw [hbq] at h₁
      obtain ⟨answers, s', hr, hp⟩ := ih hs₁ hout (by omega)
      refine ⟨q :: answers, s', ?_, .pause hp⟩
      rw [run_succ_of_continue h₁ hq, hr]
      rfl
    · obtain ⟨out', rfl, hstop, hrest⟩ := hnext
      by_cases hend : out' = []
      · subst hend
        exact ⟨[b], s₁, run_succ_of_stop h₁ (hstop.mpr rfl), .keep .nil⟩
      · have hb : stop b = false := by
          cases h : stop b
          · rfl
          · exact absurd (hstop.mp h) hend
        obtain ⟨n', hn', hs₁⟩ := hrest hend
        obtain ⟨answers, s', hr, hp⟩ := ih hs₁ hend (by simp at hk; omega)
        refine ⟨b :: answers, s', ?_, .keep hp⟩
        rw [run_succ_of_continue h₁ hb, hr]
        rfl

end Pauses

end Run
