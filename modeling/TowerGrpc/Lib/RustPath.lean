import Mathlib.Data.List.Basic
import Mathlib.Data.List.Induction

/-!
# Rust module paths

The part of Rust's name resolution that a path written in a module goes through: a leading
`::` and a crate's name, leading `super`s that climb to the parent module, and then names,
each looked up in the module reached so far among what it declares, what its `use`
declarations import, and what its glob imports bring, in that order. A module is named by
its path from the crate root; an item of another crate by `""` and its path there, as a
leading `::` writes it. Visibility is not modelled: every lookup below happens from the
module itself or a descendant of it.

`step` is one step of resolution with the rest left to a resolver it is given, and `resolve`
iterates it a bounded number of times, so that it is a function; a path resolves when some
bound lets it (`Resolves`), and a larger bound changes nothing (`resolve_mono`). `valid` is
the grammar of the paths a `use` declaration and a type take.
-/

namespace RustPath

/-- A crate, as far as its paths see it: what each module declares (items and modules), the
paths of its `use` declarations, each importing its last segment, and its glob imports
`use p::*`, each a path and the names it brings. -/
structure Crate where
  decls : List String → List String
  uses : List String → List (List String)
  globs : List String → List (List String × List String)

/-- Where resolution is in a path: at its start, past a leading `super`, or at its names. -/
inductive Mode where
  | start
  | relative
  | names
  deriving DecidableEq

/-- Resolves a path, in a mode, written in a module, to the path of what it names. -/
abbrev Resolver := Mode → List String → List String → Option (List String)

/-- `r'` resolves every path that `r` resolves, to the same place. -/
def Refines (r r' : Resolver) : Prop := ∀ md m p t, r md m p = some t → r' md m p = some t

variable (c : Crate)

/-- Look `name` up in module `m`, the paths of its imports resolved by `r`. -/
def lookupWith (r : Resolver) (m : List String) (name : String) : Option (List String) :=
  if name ∈ c.decls m then some (m ++ [name])
  else
    match (c.uses m).find? (fun u => u.getLast? == some name) with
    | some u => r .start m u
    | none =>
      match (c.globs m).find? (fun g => name ∈ g.2) with
      | some g => (r .start m g.1).map (· ++ [name])
      | none => none

/-- One step of resolution, the rest of the path left to `r`. -/
def step (r : Resolver) : Resolver
  | .start, _, "" :: rest => if rest = [] then none else some ("" :: rest)
  | .start, m, p => r .relative m p
  | .relative, m, "super" :: rest => if m = [] then none else r .relative m.dropLast rest
  | .relative, m, p => r .names m p
  | .names, m, [] => some m
  | .names, m, name :: rest => (lookupWith c r m name).bind (r .names · rest)

/-- Resolution in at most `fuel` steps. -/
def resolve : Nat → Resolver
  | 0 => fun _ _ _ => none
  | fuel + 1 => step c (resolve fuel)

theorem resolve_succ (fuel : Nat) : resolve c (fuel + 1) = step c (resolve c fuel) := rfl

/-- `p`, written in module `m`, names `t`. -/
def Resolves (m p t : List String) : Prop := ∃ fuel, resolve c fuel .start m p = some t

/-! ## One step, by mode and first segment -/

variable {c}

section Step

variable {r : Resolver} {m : List String}

theorem step_start_absolute (rest : List String) :
    step c r .start m ("" :: rest) = if rest = [] then none else some ("" :: rest) := by
  simp [step]

theorem step_start {p : List String} (hp : ∀ rest, p ≠ "" :: rest) :
    step c r .start m p = r .relative m p := by
  rcases p with _ | ⟨s, rest⟩
  · rfl
  · simp [step]

theorem step_relative_super (rest : List String) :
    step c r .relative m ("super" :: rest) =
      if m = [] then none else r .relative m.dropLast rest := by
  simp [step]

theorem step_relative {p : List String} (hp : ∀ rest, p ≠ "super" :: rest) :
    step c r .relative m p = r .names m p := by
  rcases p with _ | ⟨s, rest⟩
  · rfl
  · simp [step]

theorem step_names_nil : step c r .names m [] = some m := rfl

theorem step_names_cons (name : String) (rest : List String) :
    step c r .names m (name :: rest) = (lookupWith c r m name).bind (r .names · rest) := rfl

end Step

/-! ## Resolution grows with its bound -/

theorem lookupWith_mono {r r' : Resolver} (hr : Refines r r') {m : List String} {name : String}
    {t : List String} (h : lookupWith c r m name = some t) : lookupWith c r' m name = some t := by
  unfold lookupWith at h ⊢
  split_ifs at h ⊢
  · exact h
  · cases hu : (c.uses m).find? (fun u => u.getLast? == some name) with
    | some u =>
      rw [hu] at h
      exact hr _ _ _ _ h
    | none =>
      cases hg : (c.globs m).find? (fun g => name ∈ g.2) with
      | some g =>
        rw [hu, hg] at h
        obtain ⟨t₀, h₀, rfl⟩ := Option.map_eq_some_iff.mp h
        dsimp only
        rw [hr _ _ _ _ h₀]
        rfl
      | none =>
        rw [hu, hg] at h
        cases h

/-- A step refines another when the resolvers it leaves the rest to do. -/
theorem step_mono {r r' : Resolver} (hr : Refines r r') : Refines (step c r) (step c r') := by
  intro md m p t h
  cases md with
  | start =>
    by_cases hp : ∃ rest, p = "" :: rest
    · obtain ⟨rest, rfl⟩ := hp
      rw [step_start_absolute] at h ⊢
      exact h
    · have hp' : ∀ rest, p ≠ "" :: rest := fun rest h => hp ⟨rest, h⟩
      rw [step_start hp'] at h ⊢
      exact hr _ _ _ _ h
  | relative =>
    by_cases hp : ∃ rest, p = "super" :: rest
    · obtain ⟨rest, rfl⟩ := hp
      rw [step_relative_super] at h ⊢
      split_ifs at h ⊢
      exact hr _ _ _ _ h
    · have hp' : ∀ rest, p ≠ "super" :: rest := fun rest h => hp ⟨rest, h⟩
      rw [step_relative hp'] at h ⊢
      exact hr _ _ _ _ h
  | names =>
    rcases p with _ | ⟨name, rest⟩
    · exact h
    · rw [step_names_cons] at h ⊢
      obtain ⟨t₀, h₀, h₁⟩ := Option.bind_eq_some_iff.mp h
      exact Option.bind_eq_some_iff.mpr ⟨t₀, lookupWith_mono hr h₀, hr _ _ _ _ h₁⟩

theorem resolve_mono (fuel : Nat) : Refines (resolve c fuel) (resolve c (fuel + 1)) := by
  induction fuel with
  | zero => intro _ _ _ _ h; cases h
  | succ fuel ih => exact step_mono ih

theorem resolve_mono_le {fuel fuel' : Nat} (hle : fuel ≤ fuel') {md : Mode}
    {m p t : List String} (h : resolve c fuel md m p = some t) :
    resolve c fuel' md m p = some t := by
  obtain ⟨k, rfl⟩ := Nat.exists_eq_add_of_le hle
  induction k with
  | zero => exact h
  | succ k ih => exact resolve_mono _ _ _ _ _ (ih (by omega))

/-! ## Looking a name up -/

section Lookup

variable {r : Resolver} {m : List String} {name : String}

theorem lookupWith_decl (h : name ∈ c.decls m) : lookupWith c r m name = some (m ++ [name]) := by
  simp [lookupWith, h]

theorem lookupWith_use {u : List String} (hd : name ∉ c.decls m)
    (hu : (c.uses m).find? (fun u => u.getLast? == some name) = some u) :
    lookupWith c r m name = r .start m u := by
  simp [lookupWith, hd, hu]

/-- A name that a module neither declares, imports nor brings by a glob is not found. -/
theorem lookupWith_none (hd : name ∉ c.decls m) (hu : ∀ u ∈ c.uses m, u.getLast? ≠ some name)
    (hg : ∀ g ∈ c.globs m, name ∉ g.2) : lookupWith c r m name = none := by
  have hfu : (c.uses m).find? (fun u => u.getLast? == some name) = none :=
    List.find?_eq_none.mpr fun u hu' => by simpa using hu u hu'
  have hfg : (c.globs m).find? (fun g => name ∈ g.2) = none :=
    List.find?_eq_none.mpr fun g hg' => by simpa using hg g hg'
  simp [lookupWith, hd, hfu, hfg]

end Lookup

/-! ## Paths as they resolve -/

/-- An identifier that is not a path keyword. -/
def isName (s : String) : Bool :=
  s != "" && s != "super" && s != "self" && s != "crate" &&
    s.toList.all fun ch => ch.isAlphanum || ch == '_'

section Paths

variable {m : List String}

theorem resolve_start {fuel : Nat} {p : List String} (hp : ∀ rest, p ≠ "" :: rest) :
    resolve c (fuel + 1) .start m p = resolve c fuel .relative m p :=
  step_start hp

theorem resolve_relative {fuel : Nat} {p : List String} (hp : ∀ rest, p ≠ "super" :: rest) :
    resolve c (fuel + 1) .relative m p = resolve c fuel .names m p :=
  step_relative hp

/-- Climbing: `super`s as many as the modules below `m` lead back to `m`. -/
theorem resolve_supers (fuel : Nat) (s p : List String) :
    resolve c (fuel + s.length) .relative (m ++ s) (List.replicate s.length "super" ++ p) =
      resolve c fuel .relative m p := by
  induction s using List.reverseRecOn generalizing fuel with
  | nil => simp
  | append_singleton s x ih =>
    have hne : m ++ (s ++ [x]) ≠ [] := by simp
    have hstep : resolve c (fuel + s.length + 1) .relative (m ++ (s ++ [x]))
        ("super" :: (List.replicate s.length "super" ++ p)) =
          resolve c (fuel + s.length) .relative (m ++ s) (List.replicate s.length "super" ++ p) := by
      rw [resolve_succ,
        step_relative_super, if_neg hne, ← List.append_assoc, List.dropLast_concat]
    rw [List.length_append, List.length_singleton, ← Nat.add_assoc, List.replicate_succ,
      List.cons_append, hstep, ih]

/-- A path written `s.length` modules below `m` with as many `super`s before it names what
the path names in `m`. -/
theorem resolves_supers (s : List String) {p t : List String} (hp : ∀ rest, p ≠ "" :: rest) :
    Resolves c (m ++ s) (List.replicate s.length "super" ++ p) t ↔ Resolves c m p t := by
  -- the `super`s are not a leading `::`
  have hq : ∀ rest, List.replicate s.length "super" ++ p ≠ "" :: rest := by
    intro rest h
    rcases s with _ | ⟨x, s⟩
    · exact hp rest h
    · simp [List.replicate_succ] at h
  have key : ∀ fuel, resolve c (fuel + 1 + s.length) .start (m ++ s)
      (List.replicate s.length "super" ++ p) = resolve c (fuel + 1) .start m p := by
    intro fuel
    rw [Nat.add_right_comm, resolve_start hq, resolve_start hp, resolve_supers]
  constructor
  · rintro ⟨fuel, h⟩
    exact ⟨fuel + 1, (key fuel).symm.trans (resolve_mono_le (by omega) h)⟩
  · rintro ⟨fuel, h⟩
    exact ⟨fuel + 1 + s.length, (key fuel).trans (resolve_mono_le (by omega) h)⟩

/-- A name that a module imports names what the import's path names. -/
theorem resolves_use {x : String} {u t : List String} (hx : isName x = true)
    (hd : x ∉ c.decls m) (hu : (c.uses m).find? (fun u => u.getLast? == some x) = some u) :
    Resolves c m [x] t ↔ Resolves c m u t := by
  have hx' : x ≠ "" ∧ x ≠ "super" := by simp_all [isName]
  have key : ∀ fuel, resolve c (fuel + 4) .start m [x] = resolve c (fuel + 1) .start m u := by
    intro fuel
    rw [resolve_start (by simp [hx'.1]), resolve_relative (by simp [hx'.2]),
      resolve_succ, step_names_cons,
      lookupWith_use hd hu]
    cases resolve c (fuel + 1) .start m u <;> rfl
  constructor
  · rintro ⟨fuel, h⟩
    exact ⟨fuel + 1, (key fuel).symm.trans (resolve_mono_le (by omega) h)⟩
  · rintro ⟨fuel, h⟩
    exact ⟨fuel + 4, (key fuel).trans (resolve_mono_le (by omega) h)⟩

/-- Each name of a path is declared in the module that the names before it lead to from
`m`. -/
def DeclaredFrom (c : Crate) : List String → List String → Prop
  | _, [] => True
  | m, x :: xs => x ∈ c.decls m ∧ DeclaredFrom c (m ++ [x]) xs

/-- Names declared one in the other name the item at their end. -/
theorem resolve_names_declared : ∀ (xs : List String) {m : List String},
    DeclaredFrom c m xs → resolve c (xs.length + 1) .names m xs = some (m ++ xs)
  | [], _, _ => by simp [resolve_succ, step_names_nil]
  | x :: xs, m, ⟨hx, hxs⟩ => by
    rw [List.length_cons, resolve_succ, step_names_cons, lookupWith_decl hx, Option.bind_some,
      resolve_names_declared xs hxs]
    simp

theorem resolves_declared {x : String} (hx : isName x = true) {xs : List String}
    (hd : DeclaredFrom c m (x :: xs)) : Resolves c m (x :: xs) (m ++ x :: xs) := by
  have hx' : x ≠ "" ∧ x ≠ "super" := by simp_all [isName]
  refine ⟨xs.length + 4, ?_⟩
  rw [resolve_start (by simp [hx'.1]), resolve_relative (by simp [hx'.2])]
  exact resolve_names_declared (x :: xs) hd

/-- A name that a module neither declares, imports nor brings by a glob resolves to nothing,
whatever follows it. -/
theorem resolve_unfound {x : String} (hx : isName x = true) (hd : x ∉ c.decls m)
    (hu : ∀ u ∈ c.uses m, u.getLast? ≠ some x) (hg : ∀ g ∈ c.globs m, x ∉ g.2)
    (rest : List String) (fuel : Nat) : resolve c fuel .start m (x :: rest) = none := by
  have hx' : x ≠ "" ∧ x ≠ "super" := by simp_all [isName]
  -- past the first two steps the lookup of `x` finds nothing
  rcases fuel with _ | _ | _ | fuel
  · rfl
  · rw [resolve_start (by simp [hx'.1])]
    rfl
  · rw [resolve_start (by simp [hx'.1]), resolve_relative (by simp [hx'.2])]
    rfl
  · rw [resolve_start (by simp [hx'.1]), resolve_relative (by simp [hx'.2]), resolve_succ,
      step_names_cons, lookupWith_none hd hu hg]
    rfl

end Paths

/-! ## The grammar of paths -/

/-- The paths that Rust's grammar takes for a `use` declaration or a type: a leading `::`, or
leading `super`s, and then one name or more. -/
def valid : List String → Bool
  | "" :: rest => rest != [] && rest.all isName
  | p => let rest := p.dropWhile (· == "super"); rest != [] && rest.all isName

theorem valid_of_ne {p : List String} (hp : ∀ rest, p ≠ "" :: rest) :
    valid p = (p.dropWhile (· == "super") != [] && (p.dropWhile (· == "super")).all isName) := by
  rcases p with _ | ⟨s, rest⟩
  · rfl
  · simp [valid]

theorem dropWhile_supers (l : Nat) {p : List String} (hp : ∀ rest, p ≠ "super" :: rest) :
    (List.replicate l "super" ++ p).dropWhile (· == "super") = p := by
  induction l with
  | zero =>
    rcases p with _ | ⟨s, rest⟩
    · rfl
    · have hs : s ≠ "super" := fun h => hp rest (by rw [h])
      simp [hs]
  | succ l ih => simpa [List.replicate_succ, List.dropWhile_cons] using ih

theorem valid_supers_name (l : Nat) {x : String} (hx : isName x = true) :
    valid (List.replicate l "super" ++ [x]) = true := by
  have hx' : x ≠ "" ∧ x ≠ "super" := by simp_all [isName]
  have hp : ∀ rest, List.replicate l "super" ++ [x] ≠ "" :: rest := by
    intro rest h
    rcases l with _ | l <;> simp_all [List.replicate_succ]
  rw [valid_of_ne hp, dropWhile_supers l (by simp [hx'.2])]
  simp [hx]

/-- A `::` after a `super` is not a path. -/
theorem valid_supers_absolute (l : Nat) (rest : List String) :
    valid (List.replicate (l + 1) "super" ++ "" :: rest) = false := by
  have hp : ∀ rest', List.replicate (l + 1) "super" ++ "" :: rest ≠ "" :: rest' := by
    simp [List.replicate_succ]
  rw [valid_of_ne hp, dropWhile_supers (l + 1) (by simp)]
  simp [isName]

end RustPath
