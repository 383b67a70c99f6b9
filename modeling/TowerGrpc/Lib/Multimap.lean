import Mathlib.Data.List.Basic

/-!
# Insertion-ordered multimaps

A map from keys to one or more values, kept as the list of its (key, value) entries in the
order they were added: the shape of `http::HeaderMap`. `insert` replaces every value of a
key by one value where the key's first entry stood, `append` adds a value after the others,
`remove` drops them all. The membership lemmas say which entries an operation can leave, and
from them each operation keeps an invariant of every entry (`All`).
-/

/-- A multimap by the list of its entries, oldest first. -/
structure Multimap (κ ν : Type) where
  entries : List (κ × ν)
  deriving DecidableEq, Repr

namespace Multimap

variable {κ ν : Type} [DecidableEq κ]

def empty : Multimap κ ν := ⟨[]⟩

def containsKey (m : Multimap κ ν) (k : κ) : Bool := m.entries.any (·.1 == k)

/-- The first value of a key. -/
def get (m : Multimap κ ν) (k : κ) : Option ν := (m.entries.find? (·.1 == k)).map (·.2)

/-- All values of a key, oldest first. -/
def getAll (m : Multimap κ ν) (k : κ) : List ν := (m.entries.filter (·.1 == k)).map (·.2)

def replaceAll : List (κ × ν) → κ → ν → List (κ × ν)
  | [], k, v => [(k, v)]
  | e :: rest, k, v =>
    if e.1 = k then (k, v) :: rest.filter (·.1 != k) else e :: replaceAll rest k v

/-- Make `v` the only value of `k`; the first old value comes back. -/
def insert (m : Multimap κ ν) (k : κ) (v : ν) : Option ν × Multimap κ ν :=
  (m.get k, ⟨replaceAll m.entries k v⟩)

/-- Add a value to a key; whether the key held values before comes back. -/
def append (m : Multimap κ ν) (k : κ) (v : ν) : Bool × Multimap κ ν :=
  (m.containsKey k, ⟨m.entries ++ [(k, v)]⟩)

/-- Drop every value of a key; the first of them comes back. -/
def remove (m : Multimap κ ν) (k : κ) : Option ν × Multimap κ ν :=
  (m.get k, ⟨m.entries.filter (·.1 != k)⟩)

/-- Rewrite the first value of a key in place. -/
def modifyFirst (m : Multimap κ ν) (k : κ) (f : ν → ν) : Multimap κ ν :=
  ⟨go m.entries⟩
where
  go : List (κ × ν) → List (κ × ν)
    | [] => []
    | e :: rest => if e.1 = k then (e.1, f e.2) :: rest else e :: go rest

/-- Rewrite every value, knowing its key. -/
def modifyEach (m : Multimap κ ν) (f : κ → ν → ν) : Multimap κ ν :=
  ⟨m.entries.map fun e => (e.1, f e.1 e.2)⟩

/-! ## Which entries an operation leaves -/

theorem mem_replaceAll {l : List (κ × ν)} {k : κ} {v : ν} {e : κ × ν}
    (h : e ∈ replaceAll l k v) : e ∈ l ∨ e = (k, v) := by
  induction l with
  | nil => simp_all [replaceAll]
  | cons x rest ih =>
    unfold replaceAll at h
    split_ifs at h
    · simp only [List.mem_cons, List.mem_filter] at h
      rcases h with h | ⟨h, -⟩
      · exact .inr h
      · exact .inl (List.mem_cons_of_mem _ h)
    · rcases List.mem_cons.mp h with h | h
      · exact .inl (h ▸ List.mem_cons_self)
      · exact (ih h).imp (List.mem_cons_of_mem _) id

theorem mem_insert {m : Multimap κ ν} {k : κ} {v : ν} {e : κ × ν}
    (h : e ∈ (m.insert k v).2.entries) : e ∈ m.entries ∨ e = (k, v) :=
  mem_replaceAll h

theorem mem_append {m : Multimap κ ν} {k : κ} {v : ν} {e : κ × ν}
    (h : e ∈ (m.append k v).2.entries) : e ∈ m.entries ∨ e = (k, v) := by
  simpa [append] using h

theorem mem_remove {m : Multimap κ ν} {k : κ} {e : κ × ν}
    (h : e ∈ (m.remove k).2.entries) : e ∈ m.entries ∧ e.1 ≠ k := by
  simpa [remove] using h

theorem mem_modifyFirst_go {k : κ} {f : ν → ν} {e : κ × ν} {l : List (κ × ν)}
    (h : e ∈ modifyFirst.go k f l) : e ∈ l ∨ ∃ x ∈ l, x.1 = k ∧ e = (k, f x.2) := by
  induction l with
  | nil => simp [modifyFirst.go] at h
  | cons x rest ih =>
    unfold modifyFirst.go at h
    split_ifs at h with hx
    · rcases List.mem_cons.mp h with h | h
      · exact .inr ⟨x, List.mem_cons_self, hx, by rw [h, hx]⟩
      · exact .inl (List.mem_cons_of_mem _ h)
    · rcases List.mem_cons.mp h with h | h
      · exact .inl (h ▸ List.mem_cons_self)
      · rcases ih h with h | ⟨y, hy, hk, he⟩
        · exact .inl (List.mem_cons_of_mem _ h)
        · exact .inr ⟨y, List.mem_cons_of_mem _ hy, hk, he⟩

theorem mem_modifyFirst {m : Multimap κ ν} {k : κ} {f : ν → ν} {e : κ × ν}
    (h : e ∈ (m.modifyFirst k f).entries) :
    e ∈ m.entries ∨ ∃ x ∈ m.entries, x.1 = k ∧ e = (k, f x.2) :=
  mem_modifyFirst_go h

omit [DecidableEq κ] in
theorem mem_modifyEach {m : Multimap κ ν} {f : κ → ν → ν} {e : κ × ν}
    (h : e ∈ (m.modifyEach f).entries) : ∃ x ∈ m.entries, e = (x.1, f x.1 x.2) := by
  simpa [modifyEach, eq_comm] using h

/-! ## Invariants of every entry -/

/-- Every entry satisfies `P`. -/
def All (P : κ → ν → Prop) (m : Multimap κ ν) : Prop := ∀ e ∈ m.entries, P e.1 e.2

section All

variable {P : κ → ν → Prop} {m : Multimap κ ν}

omit [DecidableEq κ] in
theorem all_empty : (empty : Multimap κ ν).All P := by
  simp [All, empty]

theorem All.insert (h : m.All P) {k : κ} {v : ν} (hkv : P k v) : (m.insert k v).2.All P := by
  intro e he
  rcases mem_insert he with he | rfl
  · exact h e he
  · exact hkv

theorem All.append (h : m.All P) {k : κ} {v : ν} (hkv : P k v) : (m.append k v).2.All P := by
  intro e he
  rcases mem_append he with he | rfl
  · exact h e he
  · exact hkv

theorem All.remove (h : m.All P) (k : κ) : (m.remove k).2.All P :=
  fun e he => h e (mem_remove he).1

theorem All.modifyFirst (h : m.All P) {k : κ} {f : ν → ν} (hf : ∀ v, P k v → P k (f v)) :
    (m.modifyFirst k f).All P := by
  intro e he
  rcases mem_modifyFirst he with he | ⟨x, hx, hk, rfl⟩
  · exact h e he
  · apply hf
    rw [← hk]
    exact h x hx

omit [DecidableEq κ] in
theorem All.modifyEach (h : m.All P) {f : κ → ν → ν} (hf : ∀ k v, P k v → P k (f k v)) :
    (m.modifyEach f).All P := by
  intro e he
  obtain ⟨x, hx, rfl⟩ := mem_modifyEach he
  exact hf x.1 x.2 (h x hx)

end All

/-! ## Lookups -/

theorem get_eq_some {m : Multimap κ ν} {k : κ} {v : ν} (h : m.get k = some v) :
    (k, v) ∈ m.entries := by
  unfold get at h
  obtain ⟨e, he, rfl⟩ := Option.map_eq_some_iff.mp h
  have hk := List.find?_some he
  simp only [beq_iff_eq] at hk
  rw [← hk]
  exact List.mem_of_find?_eq_some he

theorem mem_getAll {m : Multimap κ ν} {k : κ} {v : ν} :
    v ∈ m.getAll k ↔ (k, v) ∈ m.entries := by
  simp [getAll, and_comm]

theorem find?_filter_ne (l : List (κ × ν)) {k k' : κ} (h : k' ≠ k) :
    (l.filter (·.1 != k)).find? (·.1 == k') = l.find? (·.1 == k') := by
  induction l with
  | nil => rfl
  | cons e rest ih =>
    by_cases he : e.1 = k
    · have hne : e.1 ≠ k' := fun h' => h (h'.symm.trans he)
      rw [List.filter_cons_of_neg (by simp [he]), ih, List.find?_cons_of_neg (by simpa using hne)]
    · rw [List.filter_cons_of_pos (by simpa using he)]
      by_cases he' : e.1 = k'
      · rw [List.find?_cons_of_pos (by simpa using he'),
          List.find?_cons_of_pos (by simpa using he')]
      · rw [List.find?_cons_of_neg (by simpa using he'),
          List.find?_cons_of_neg (by simpa using he'), ih]

/-- After `insert`, a key's first value is the new one, and every other key's is as before. -/
theorem get_insert (m : Multimap κ ν) (k k' : κ) (v : ν) :
    (m.insert k v).2.get k' = if k' = k then some v else m.get k' := by
  obtain ⟨l⟩ := m
  simp only [insert, get]
  induction l with
  | nil =>
    by_cases h : k' = k
    · simp [replaceAll, h]
    · simp [replaceAll, h, Ne.symm h]
  | cons e rest ih =>
    by_cases he : e.1 = k
    · -- the key's first entry takes the new value, its later entries go
      rw [replaceAll, if_pos he]
      by_cases h : k' = k
      · rw [List.find?_cons_of_pos (by simp [h]), if_pos h]
        rfl
      · have hne : e.1 ≠ k' := fun h' => h (h'.symm.trans he)
        rw [List.find?_cons_of_neg (by simpa using Ne.symm h), find?_filter_ne rest h, if_neg h,
          List.find?_cons_of_neg (by simpa using hne)]
    · rw [replaceAll, if_neg he]
      by_cases he' : e.1 = k'
      · have hk : k' ≠ k := fun h => he (he'.trans h)
        rw [List.find?_cons_of_pos (by simpa using he'), if_neg hk,
          List.find?_cons_of_pos (by simpa using he')]
      · rw [List.find?_cons_of_neg (by simpa using he'), ih,
          List.find?_cons_of_neg (by simpa using he')]

/-! ## The values of each key

What a multimap means is, for each key, the list of its values in order (`getAll`). Each
operation changes that list for its own key alone: `insert` makes it the one new value,
`append` adds the value at its end, `remove` empties it, `modifyFirst` rewrites its head, and
`modifyEach` rewrites each value. -/

@[simp] theorem getAll_empty (k : κ) : (empty : Multimap κ ν).getAll k = [] := rfl

theorem get_eq_head?_getAll (m : Multimap κ ν) (k : κ) : m.get k = (m.getAll k).head? := by
  simp [get, getAll, List.head?_map, List.head?_filter]

theorem containsKey_eq (m : Multimap κ ν) (k : κ) :
    m.containsKey k = !(m.getAll k).isEmpty := by
  obtain ⟨l⟩ := m
  simp only [containsKey, getAll, List.isEmpty_map]
  induction l with
  | nil => rfl
  | cons e rest ih => by_cases h : e.1 = k <;> simp [h, ih]

theorem getAll_insert (m : Multimap κ ν) (k k' : κ) (v : ν) :
    (m.insert k v).2.getAll k' = if k' = k then [v] else m.getAll k' := by
  obtain ⟨l⟩ := m
  simp only [insert, getAll]
  induction l with
  | nil =>
    by_cases h : k' = k
    · simp [replaceAll, h]
    · simp [replaceAll, h, Ne.symm h]
  | cons e rest ih =>
    by_cases he : e.1 = k
    · -- the key's first entry takes the new value, its later entries go
      rw [replaceAll, if_pos he]
      by_cases h : k' = k
      · subst h
        simp [List.filter_filter]
      · have hrest : (rest.filter (·.1 != k)).filter (·.1 == k') = rest.filter (·.1 == k') := by
          rw [List.filter_filter]
          apply List.filter_congr
          intro x _
          by_cases hx : x.1 = k' <;> simp [hx, h]
        have hne : e.1 ≠ k' := fun h' => h (h'.symm.trans he)
        simp [hrest, h, Ne.symm h, hne]
    · rw [replaceAll, if_neg he]
      by_cases he' : e.1 = k'
      · have hk : k' ≠ k := fun h => he (he'.trans h)
        simp [he', hk, ih]
      · simp [he', ih]

theorem getAll_append (m : Multimap κ ν) (k k' : κ) (v : ν) :
    (m.append k v).2.getAll k' = if k' = k then m.getAll k' ++ [v] else m.getAll k' := by
  by_cases h : k' = k
  · simp [append, getAll, h]
  · simp [append, getAll, h, Ne.symm h]

theorem getAll_remove (m : Multimap κ ν) (k k' : κ) :
    (m.remove k).2.getAll k' = if k' = k then [] else m.getAll k' := by
  simp only [remove, getAll, List.filter_filter]
  split_ifs with h
  · subst h
    simp [List.filter_eq_nil_iff]
  · congr 1
    apply List.filter_congr
    intro x _
    by_cases hx : x.1 = k' <;> simp [hx, h]

theorem getAll_modifyFirst (m : Multimap κ ν) (k k' : κ) (f : ν → ν) :
    (m.modifyFirst k f).getAll k' =
      if k' = k then (m.getAll k').modifyHead f else m.getAll k' := by
  obtain ⟨l⟩ := m
  simp only [modifyFirst, getAll]
  induction l with
  | nil => split_ifs <;> rfl
  | cons e rest ih =>
    unfold modifyFirst.go
    by_cases he : e.1 = k
    · rw [if_pos he]
      by_cases h : k' = k
      · subst h
        simp [he]
      · have hne : e.1 ≠ k' := fun h' => h (h'.symm.trans he)
        simp [h, hne]
    · rw [if_neg he]
      by_cases he' : e.1 = k'
      · have hk : k' ≠ k := fun h => he (he'.trans h)
        simp [he', hk, ih]
      · simp [he', ih]

theorem getAll_modifyEach (m : Multimap κ ν) (f : κ → ν → ν) (k : κ) :
    (m.modifyEach f).getAll k = (m.getAll k).map (f k) := by
  obtain ⟨l⟩ := m
  simp only [modifyEach, getAll]
  induction l with
  | nil => rfl
  | cons e rest ih =>
    by_cases h : e.1 = k
    · subst h
      simp [ih]
    · simp [h, ih]

end Multimap
