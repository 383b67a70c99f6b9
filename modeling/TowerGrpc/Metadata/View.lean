import TowerGrpc.Metadata.Map
import Mathlib.Logic.Function.Basic

/-!
# What a metadata map means

To its users a metadata map means the values under each name, oldest first: a `View`. Each
public operation changes the values under the one name its key stands for (`View.step`):
`insert` makes the new value the only one, `append` adds it at the end, `remove` empties the
name, a write through `get_mut` rewrites the first value; an entry is vacant when the name has
no value; `iter_mut` rewrites values in place, and `clear` empties every name.

The map of the source keeps a list of entries, in the order they were added, with the ghost
encodings beside the values. Over every run of operations it refines its view (`run_view`),
a fault where the view faults, and `get` and `get_all` read the view (`get_eq_view`,
`getAll_eq_view`): what a user observes of a map after any run is what the abstract
operations say.
-/

namespace TowerGrpc

namespace Metadata

open Rust Http

/-- What a metadata map means: the values under each name, oldest first. -/
abbrev View := HeaderName → List HeaderValue

namespace View

variable (v : View) (name : HeaderName)

/-- The new value is the only one under the name. -/
def insert (val : HeaderValue) : View := Function.update v name [val]

/-- The new value comes after the others. -/
def append (val : HeaderValue) : View := Function.update v name (v name ++ [val])

/-- No value is left under the name. -/
def remove : View := Function.update v name []

/-- The first value under the name, if there is one, is the new one. -/
def setFirst (val : HeaderValue) : View :=
  Function.update v name ((v name).modifyHead fun _ => val)

/-- Each value may be rewritten, by the value `f` gives for its name under the encoding the
name is given. -/
def iterMutSet (f : (ve : Encoding) → HeaderName → Option (MetadataValue ve)) : View :=
  fun name => (v name).map fun old =>
    match f (MetadataMap.classify name) name with
    | some val => val.inner
    | none => old

variable {ve : Encoding}

/-- What a caller's use of an `OccupiedEntry` does to the values under its name. -/
def occupied : OccupiedOp ve → View
  | .insert val => v.insert name val.inner
  | .set val => v.setFirst name val.inner
  | .append val => v.append name val.inner
  | .remove => v.remove name
  | .keep => v

/-- What a caller's use of a `VacantEntry` does: an `insert` is the name's first value. -/
def vacant : VacantOp ve → View
  | .insert val => v.append name val.inner
  | .insertEntry val next => occupied (v.append name val.inner) name next
  | .keep => v

/-- One operation on the values, by the name its key stands for. -/
def step : Op → M View
  | .insert _ key val => (fun name => v.insert name val.inner) <$> key.name
  | .append _ key val => (fun name => v.append name val.inner) <$> key.name
  | .getMut _ key val =>
    pure (match key.name? with
      | some name => v.setFirst name val.inner
      | none => v)
  | .entry _ key onVacant onOccupied =>
    pure (match key.name? with
      | some name => if (v name).isEmpty then v.vacant name onVacant else v.occupied name onOccupied
      | none => v)
  | .iterMut f => pure (v.iterMutSet f)
  | .remove _ key =>
    pure (match key.name? with
      | some name => v.remove name
      | none => v)
  | .clear => pure fun _ => []

/-- A run of operations on the values. -/
def run (ops : List Op) : M View := ops.foldlM step v

end View

namespace MetadataMap

/-- The view of a map: its values under each name, without the ghost encodings. -/
def view (m : MetadataMap) : View := fun name => (m.headers.getAll name).map (·.2)

variable (m : MetadataMap) (name : HeaderName) {ve : Encoding}

/-! ## The operations on the entries, seen through the view -/

@[simp] theorem view_new : new.view = fun _ => [] := rfl

theorem containsKey_view : m.headers.containsKey name = !(m.view name).isEmpty := by
  simp [view, Multimap.containsKey_eq]

theorem view_insert (stored : Stored) :
    (⟨(m.headers.insert name stored).2⟩ : MetadataMap).view = m.view.insert name stored.2 := by
  funext name'
  by_cases h : name' = name <;> simp [view, View.insert, Multimap.getAll_insert, h]

theorem view_append (stored : Stored) :
    (⟨(m.headers.append name stored).2⟩ : MetadataMap).view = m.view.append name stored.2 := by
  funext name'
  by_cases h : name' = name <;> simp [view, View.append, Multimap.getAll_append, h]

theorem view_remove : (⟨(m.headers.remove name).2⟩ : MetadataMap).view = m.view.remove name := by
  funext name'
  by_cases h : name' = name <;> simp [view, View.remove, Multimap.getAll_remove, h]

theorem view_setFirst (val : MetadataValue ve) :
    (m.setFirst ve name val).view = m.view.setFirst name val.inner := by
  funext name'
  by_cases h : name' = name
  · -- the first stored value of the name is replaced, and with it the first value
    subst h
    simp only [view, setFirst, View.setFirst, Multimap.getAll_modifyFirst, if_pos,
      Function.update_self]
    cases m.headers.getAll name' <;> rfl
  · simp [view, setFirst, View.setFirst, Multimap.getAll_modifyFirst, h]

theorem view_iterMutSet (f : (ve : Encoding) → HeaderName → Option (MetadataValue ve)) :
    (m.iterMutSet f).view = m.view.iterMutSet f := by
  funext name'
  simp only [view, iterMutSet, View.iterMutSet, Multimap.getAll_modifyEach, List.map_map]
  congr 1
  funext stored
  simp only [Function.comp_apply]
  cases f (classify name') name' <;> rfl

theorem view_occupied (e : OccupiedEntry ve) (op : OccupiedOp ve) :
    (op.apply m e).view = m.view.occupied e.name op := by
  cases op with
  | insert val => exact view_insert m e.name _
  | set val => exact view_setFirst m e.name val
  | append val => exact view_append m e.name _
  | remove => exact view_remove m e.name
  | keep => rfl

theorem view_vacant (e : VacantEntry ve) (op : VacantOp ve) :
    (op.apply m e).view = m.view.vacant e.name op := by
  cases op with
  | insert val => exact view_append m e.name _
  | insertEntry val next =>
    -- the occupied entry `insert_entry` hands out stands for the same name
    simp only [VacantOp.apply, VacantEntry.insertEntry, View.vacant]
    rw [view_occupied, view_append]
  | keep => rfl

/-- One operation, seen through the view: it does what the abstract operation does, and
faults where it faults. -/
theorem step_view (op : Op) : view <$> m.step op = m.view.step op := by
  cases op with
  | insert ve key val =>
    cases hn : key.name with
    | error e => simp [step, insert, View.step, hn]
    | ok name => simp [step, insert, View.step, hn, view_insert]
  | append ve key val =>
    cases hn : key.name with
    | error e => simp [step, append, View.step, hn]
    | ok name => simp [step, append, View.step, hn, view_append]
  | getMut ve key val =>
    simp only [step, getMutSet, View.step, Rust.pure_eq_ok, map_ok]
    split <;> simp_all [view_setFirst]
  | entry ve key onVacant onOccupied =>
    simp only [step, View.step]
    -- the entry is vacant exactly when the name holds no value
    cases hn : key.name? with
    | none => simp [entry, hn]
    | some name =>
      by_cases hc : m.headers.containsKey name
      · have hne : (m.view name).isEmpty = false := by
          simpa [containsKey_view] using hc
        simp [entry, hn, hc, hne, view_occupied]
      · have he : (m.view name).isEmpty = true := by
          simpa [containsKey_view] using hc
        simp [entry, hn, hc, he, view_vacant]
  | iterMut f => simp [step, View.step, view_iterMutSet]
  | remove ve key =>
    simp only [step, remove, View.step, Rust.pure_eq_ok, map_ok]
    split <;> simp_all [view_remove]
  | clear => rfl

/-- Every run of operations refines the run of the abstract operations on the map's view:
the same fault, or a map whose view is the abstract run's. -/
theorem run_view (ops : List Op) : view <$> m.run ops = m.view.run ops := by
  induction ops generalizing m with
  | nil => rfl
  | cons op ops ih =>
    simp only [run, View.run, List.foldlM_cons]
    have hstep := step_view m op
    cases hs : m.step op with
    | error e =>
      rw [hs] at hstep
      rw [← hstep]
      rfl
    | ok m' =>
      rw [hs] at hstep
      rw [← hstep]
      exact ih m'

/-! ## The queries read the view -/

/-- `get`: the first value under the name the key stands for. -/
theorem get_eq_view (key : AsKey ve) :
    m.get ve key = (key.name?.bind fun name => (m.view name).head?).map (⟨·⟩) := by
  cases hn : key.name? <;>
    simp [get, view, hn, Multimap.get_eq_head?_getAll, List.head?_map, Function.comp_def]

/-- `get_all`: every value under the name the key stands for. -/
theorem getAll_eq_view (key : AsKey ve) :
    m.getAll ve key =
      match key.name? with
      | some name => (m.view name).map (⟨·⟩)
      | none => [] := by
  unfold getAll
  split <;> simp_all [view]

end MetadataMap

end Metadata

end TowerGrpc
