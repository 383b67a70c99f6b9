import Mathlib.Logic.Basic

/-!
# Outcomes of Rust code

The vocabulary every model of this development shares. A call of modelled Rust code returns
a value, panics, or never returns (`Fault`); `Rust.M` is the monad of such calls. A
futures-0.1 `poll` answers `Ready` or `NotReady` (`Async`), or fails with the future's error
(`Poll`).
-/

namespace Rust

/-- The two ways a call ends without returning: a panic (`assert!`, `unwrap` on an error,
an index out of bounds, `unreachable!`), or a loop that repeats its state for ever. -/
inductive Fault where
  | panic
  | diverge
  deriving DecidableEq, Repr

/-- A call of Rust code that returns an `α` or ends in a `Fault`. -/
abbrev M (α : Type) := Except Fault α

@[simp] theorem pure_eq_ok {ε α : Type} (a : α) : (pure a : Except ε α) = .ok a := rfl

@[simp] theorem ok_bind {ε α β : Type} (a : α) (f : α → Except ε β) :
    (Except.ok a >>= f) = f a := rfl

@[simp] theorem error_bind {ε α β : Type} (e : ε) (f : α → Except ε β) :
    (Except.error e >>= f) = .error e := rfl

@[simp] theorem map_ok {ε α β : Type} (f : α → β) (a : α) :
    (f <$> (Except.ok a : Except ε α)) = .ok (f a) := rfl

@[simp] theorem map_error {ε α β : Type} (f : α → β) (e : ε) :
    (f <$> (Except.error e : Except ε α)) = .error e := rfl

/-- A bind returns only when both of its halves return. -/
theorem bind_eq_ok {ε α β : Type} {x : Except ε α} {f : α → Except ε β} {b : β} :
    (x >>= f) = .ok b ↔ ∃ a, x = .ok a ∧ f a = .ok b := by
  cases x <;> simp

/-- A bind faults when its first half does, or when its first half returns and the second
faults. -/
theorem bind_eq_error {ε α β : Type} {x : Except ε α} {f : α → Except ε β} {e : ε} :
    (x >>= f) = .error e ↔ x = .error e ∨ ∃ a, x = .ok a ∧ f a = .error e := by
  cases x <;> simp

/-- A computation whose `toBool` is `true` returns. Where the result type has no decidable
equality, `decide` evaluates the `Bool` and this lemma gives back the result. -/
theorem exists_eq_ok_of_toBool {ε α : Type} {x : Except ε α} (h : x.toBool = true) :
    ∃ a, x = .ok a := by
  cases x with
  | error e => simp [Except.toBool] at h
  | ok a => exact ⟨a, rfl⟩

theorem exists_ok_and_of_toBool {ε α : Type} {x : Except ε α} {P : α → Prop}
    (h : x.toBool = true) (hP : ∀ a, x = .ok a → P a) : ∃ a, x = .ok a ∧ P a := by
  obtain ⟨a, hx⟩ := exists_eq_ok_of_toBool h
  exact ⟨a, hx, hP a hx⟩

/-- `futures::Async`. -/
inductive Async (α : Type) where
  | ready (a : α)
  | notReady
  deriving DecidableEq, Repr

/-- Whether a poll has its answer: a caller polls again only after `NotReady`. -/
def Async.isReady {α : Type} : Async α → Bool
  | .ready _ => true
  | .notReady => false

/-- `Async::map`. -/
def Async.map {α β : Type} (f : α → β) : Async α → Async β
  | .ready a => .ready (f a)
  | .notReady => .notReady

/-- `futures::Poll<T, E>`, that is `Result<Async<T>, E>`. -/
abbrev Poll (α ε : Type) := Except ε (Async α)

end Rust
