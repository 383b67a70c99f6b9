import TowerGrpc.Metadata.Key
import TowerGrpc.Metadata.Value

/-!
# The metadata map

`metadata/map.rs`. A `MetadataMap` wraps an untyped `http::HeaderMap`; every accessor retypes
the names and values it hands out by the encoding parameter of the call. The map is well
typed when each value stored under a name was supplied as a `MetadataValue` of an encoding
that is valid for the name (`Typed`).

To say so the model keeps, beside each stored value, the encoding it was supplied as: ghost
data that the code does not store and that `intoHeaders` forgets. The public operations, with
what a caller does with the references and entries they hand out, are the steps of a state
machine (`Op`, `step`, `run`).

Two entry points break the typing (`entry_breaks_typing`): a `&str` key is checked for its
`-bin` suffix before the header map folds its case, so `entry("x-Bin")` hands out a
`VacantEntry<Ascii>` for `x-bin`; and `VacantEntry::insert_entry` returns an
`OccupiedEntry<Ascii>` whatever the entry's encoding. A run that keys by valid keys and
lower-case strings, and takes `insert_entry` only on ASCII entries, keeps the map typed
(`run_typed`).
-/

namespace TowerGrpc

namespace Metadata

open Rust Http Utf8

/-- A stored value: the header value, and the encoding it was supplied as. -/
abbrev Stored := Encoding × HeaderValue

structure MetadataMap where
  headers : Multimap HeaderName Stored

/-- The keys `IntoMetadataKey` takes (`insert`, `append`): a `MetadataKey` or a reference to
one, or a `&'static str`. -/
inductive IntoKey (ve : Encoding) where
  | key (k : MetadataKey ve)
  | static (s : String)

/-- The keys `AsMetadataKey` takes (`get`, `get_mut`, `get_all`, `entry`, `remove`): a
`MetadataKey` or a reference to one, or a `&str`, `String` or `&String`, all of which look up
the same way. -/
inductive AsKey (ve : Encoding) where
  | key (k : MetadataKey ve)
  | str (s : List UInt8)

/-- A `VacantEntry<VE>`: the name it stands for. -/
structure VacantEntry (ve : Encoding) where
  name : HeaderName

/-- An `OccupiedEntry<VE>`: the name it stands for. -/
structure OccupiedEntry (ve : Encoding) where
  name : HeaderName

inductive Entry (ve : Encoding) where
  | vacant (e : VacantEntry ve)
  | occupied (e : OccupiedEntry ve)

/-- `VacantEntry::key`: the name, retyped as a `MetadataKey<VE>` unchecked. -/
def VacantEntry.key {ve : Encoding} (e : VacantEntry ve) : MetadataKey ve := ⟨e.name⟩

/-- `OccupiedEntry::key`. -/
def OccupiedEntry.key {ve : Encoding} (e : OccupiedEntry ve) : MetadataKey ve := ⟨e.name⟩

/-- `Entry::key`. -/
def Entry.key {ve : Encoding} : Entry ve → MetadataKey ve
  | vacant e => e.key
  | occupied e => e.key

namespace IntoKey

/-- The name a key inserts under: a `&'static str` goes through `MetadataKey::from_static`. -/
def name {ve : Encoding} : IntoKey ve → M HeaderName
  | key k => pure k.inner
  | static s => (·.inner) <$> MetadataKey.fromStatic ve s

end IntoKey

namespace AsKey

/-- The name a key acts on, or none when it finds nothing (and `entry` fails): a string is
checked by `is_valid_key` as it is given, then parsed by the header map, which folds its
case. Each of the five methods of a `Sealed` impl starts this way. -/
def name? {ve : Encoding} : AsKey ve → Option HeaderName
  | key k => some k.inner
  | str s => if !ve.isValidKey s then none else HeaderName.fromBytes s

end AsKey

namespace MetadataMap

variable (m : MetadataMap) (ve : Encoding)

def new : MetadataMap := ⟨Multimap.empty⟩

/-- `MetadataMap::into_headers`: the header map, without the ghost encodings. -/
def intoHeaders : HeaderMap := ⟨m.headers.entries.map fun e => (e.1, e.2.2)⟩

/-- Every value was supplied under an encoding valid for its name. -/
def Typed : Prop := m.headers.All fun name stored => stored.1.isValidKey name.bytes = true

/-! ## The operations -/

/-- `get` and `get_bin`: the first value under the key's name, read as a `MetadataValue<VE>`. -/
def get (key : AsKey ve) : Option (MetadataValue ve) :=
  (key.name?.bind m.headers.get).map fun stored => ⟨stored.2⟩

/-- `get_all` and `get_all_bin`: every value under the key's name. -/
def getAll (key : AsKey ve) : List (MetadataValue ve) :=
  match key.name? with
  | some name => (m.headers.getAll name).map fun stored => ⟨stored.2⟩
  | none => []

/-- `generic_entry`, for `entry` and `entry_bin`: `None` for `InvalidMetadataKey`. -/
def entry (key : AsKey ve) : Option (Entry ve) :=
  key.name?.map fun name =>
    if m.headers.containsKey name then .occupied ⟨name⟩ else .vacant ⟨name⟩

/-- `insert` and `insert_bin`: the value replaces every value under the name, and the first
of them comes back. -/
def insert (key : IntoKey ve) (val : MetadataValue ve) :
    M (Option (MetadataValue ve) × MetadataMap) := do
  let name ← key.name
  let (old, headers) := m.headers.insert name (ve, val.inner)
  pure (old.map fun stored => ⟨stored.2⟩, ⟨headers⟩)

/-- `append` and `append_bin`: whether the name held values before comes back. -/
def append (key : IntoKey ve) (val : MetadataValue ve) : M (Bool × MetadataMap) := do
  let name ← key.name
  let (had, headers) := m.headers.append name (ve, val.inner)
  pure (had, ⟨headers⟩)

/-- `remove` and `remove_bin`: every value under the key's name goes, the first comes back. -/
def remove (key : AsKey ve) : Option (MetadataValue ve) × MetadataMap :=
  match key.name? with
  | some name =>
    let (old, headers) := m.headers.remove name
    (old.map fun stored => ⟨stored.2⟩, ⟨headers⟩)
  | none => (none, m)

/-- `clear`. -/
def clear : MetadataMap := new

/-- A write through a `&mut MetadataValue<VE>` for the first value under `name`, as `get_mut`,
`Entry::or_insert`, `VacantEntry::insert` and `OccupiedEntry::get_mut` and `into_mut` hand
them out. -/
def setFirst (name : HeaderName) (val : MetadataValue ve) : MetadataMap :=
  ⟨m.headers.modifyFirst name fun _ => (ve, val.inner)⟩

/-- `get_mut` and `get_bin_mut`, and a write through the reference they return. -/
def getMutSet (key : AsKey ve) (val : MetadataValue ve) : MetadataMap :=
  match key.name? with
  | some name => m.setFirst ve name val
  | none => m

/-- The encoding `iter`, `iter_mut`, `keys`, `values` and `values_mut` give a stored name. -/
def classify (name : HeaderName) : Encoding :=
  if Encoding.ascii.isValidKey name.bytes then .ascii else .binary

/-- Writes through the references `iter_mut` or `values_mut` hand out: an entry may get a new
value of the encoding its name is given. -/
def iterMutSet (f : (ve : Encoding) → HeaderName → Option (MetadataValue ve)) : MetadataMap :=
  ⟨m.headers.modifyEach fun name stored =>
    match f (classify name) name with
    | some val => (classify name, val.inner)
    | none => stored⟩

end MetadataMap

namespace VacantEntry

variable {ve : Encoding} (m : MetadataMap) (e : VacantEntry ve)

/-- `VacantEntry::insert`. -/
def insert (val : MetadataValue ve) : MetadataMap :=
  ⟨(m.headers.append e.name (ve, val.inner)).2⟩

/-- `VacantEntry::insert_entry`: the occupied entry it returns is typed `Ascii`, whatever the
vacant entry's encoding. -/
def insertEntry (val : MetadataValue ve) : MetadataMap × OccupiedEntry .ascii :=
  (⟨(m.headers.append e.name (ve, val.inner)).2⟩, ⟨e.name⟩)

end VacantEntry

/-- What a caller does with an `OccupiedEntry<VE>`: make a value its only one (`insert`,
`insert_mult`), write its first value through `get_mut` or `into_mut`, `append`, `remove` it
(or `remove_entry`, `remove_entry_mult`), or leave it. -/
inductive OccupiedOp (ve : Encoding) where
  | insert (val : MetadataValue ve)
  | set (val : MetadataValue ve)
  | append (val : MetadataValue ve)
  | remove
  | keep

/-- What a caller does with a `VacantEntry<VE>`: `insert` (or `or_insert`), `insert_entry` and
go on with the occupied entry it returns, or leave it. -/
inductive VacantOp (ve : Encoding) where
  | insert (val : MetadataValue ve)
  | insertEntry (val : MetadataValue ve) (next : OccupiedOp .ascii)
  | keep

namespace OccupiedOp

def apply {ve : Encoding} (m : MetadataMap) (e : OccupiedEntry ve) : OccupiedOp ve → MetadataMap
  | insert val => ⟨(m.headers.insert e.name (ve, val.inner)).2⟩
  | set val => m.setFirst ve e.name val
  | append val => ⟨(m.headers.append e.name (ve, val.inner)).2⟩
  | remove => ⟨(m.headers.remove e.name).2⟩
  | keep => m

end OccupiedOp

namespace VacantOp

def apply {ve : Encoding} (m : MetadataMap) (e : VacantEntry ve) : VacantOp ve → MetadataMap
  | insert val => e.insert m val
  | insertEntry val next =>
    let (m', o) := e.insertEntry m val
    next.apply m' o
  | keep => m

end VacantOp

/-- One public operation on the map, with what the caller does with what it hands out. -/
inductive Op where
  | insert (ve : Encoding) (key : IntoKey ve) (val : MetadataValue ve)
  | append (ve : Encoding) (key : IntoKey ve) (val : MetadataValue ve)
  | getMut (ve : Encoding) (key : AsKey ve) (val : MetadataValue ve)
  | entry (ve : Encoding) (key : AsKey ve) (onVacant : VacantOp ve) (onOccupied : OccupiedOp ve)
  | iterMut (f : (ve : Encoding) → HeaderName → Option (MetadataValue ve))
  | remove (ve : Encoding) (key : AsKey ve)
  | clear

namespace MetadataMap

def step (m : MetadataMap) : Op → M MetadataMap
  | .insert ve key val => Prod.snd <$> m.insert ve key val
  | .append ve key val => Prod.snd <$> m.append ve key val
  | .getMut ve key val => pure (m.getMutSet ve key val)
  | .entry ve key onVacant onOccupied =>
    match m.entry ve key with
    | some (.vacant e) => pure (onVacant.apply m e)
    | some (.occupied e) => pure (onOccupied.apply m e)
    | none => pure m
  | .iterMut f => pure (m.iterMutSet f)
  | .remove ve key => pure (m.remove ve key).2
  | .clear => pure clear

/-- A run of operations from `m`. -/
def run (m : MetadataMap) (ops : List Op) : M MetadataMap := ops.foldlM step m

end MetadataMap

/-! ## Keys a run may use -/

namespace IntoKey

/-- A `MetadataKey` must be valid; a `&'static str` is checked by `from_static`. -/
def Good {ve : Encoding} : IntoKey ve → Prop
  | key k => k.Valid
  | static _ => True

theorem valid_of_name {ve : Encoding} {key : IntoKey ve} (hk : key.Good) {name : HeaderName}
    (h : key.name = .ok name) : ve.isValidKey name.bytes = true := by
  cases key with
  | key k =>
    cases h
    exact hk
  | static s =>
    cases hs : MetadataKey.fromStatic ve s with
    | error e => simp [IntoKey.name, hs] at h
    | ok k =>
      simp only [IntoKey.name, hs, map_ok, Except.ok.injEq] at h
      subst h
      exact MetadataKey.valid_of_fromStatic hs

end IntoKey

namespace AsKey

/-- A `MetadataKey` must be valid; a string must be in the lower case the header map folds
it to, so that the suffix `is_valid_key` checks is the stored name's. -/
def Good {ve : Encoding} : AsKey ve → Prop
  | key k => k.Valid
  | str s => s.map headerChars = s

theorem valid_of_name? {ve : Encoding} {key : AsKey ve} (hk : key.Good) {name : HeaderName}
    (h : key.name? = some name) : ve.isValidKey name.bytes = true := by
  cases key with
  | key k =>
    cases h
    exact hk
  | str s =>
    simp only [AsKey.name?] at h
    split at h
    · cases h
    · rename_i hv
      have hfold : name.bytes = s := (HeaderName.bytes_fromBytes h).trans hk
      simpa [hfold] using hv

end AsKey

namespace VacantOp

/-- `insert_entry` only on an `Ascii` entry, where the `OccupiedEntry<Ascii>` it returns is
the right type. -/
def Good {ve : Encoding} : VacantOp ve → Prop
  | insertEntry _ _ => ve = .ascii
  | _ => True

end VacantOp

namespace Op

def Good : Op → Prop
  | insert _ key _ => key.Good
  | append _ key _ => key.Good
  | getMut _ key _ => key.Good
  | entry _ key onVacant _ => key.Good ∧ onVacant.Good
  | iterMut _ => True
  | remove _ _ => True
  | clear => True

end Op

/-! ## The typing over runs -/

namespace MetadataMap

variable {m : MetadataMap} {ve : Encoding} {name : HeaderName}

theorem typed_new : new.Typed := Multimap.all_empty

theorem Typed.setFirst (h : m.Typed) (hv : ve.isValidKey name.bytes = true)
    (val : MetadataValue ve) : (m.setFirst ve name val).Typed :=
  Multimap.All.modifyFirst h fun _ _ => hv

theorem isValidKey_classify (name : HeaderName) :
    (classify name).isValidKey name.bytes = true := by
  unfold classify
  split
  · assumption
  · rename_i h
    simpa [Encoding.isValidKey_ascii] using h

theorem Typed.iterMutSet (h : m.Typed)
    (f : (ve : Encoding) → HeaderName → Option (MetadataValue ve)) :
    (m.iterMutSet f).Typed := by
  apply Multimap.All.modifyEach h
  intro name stored hstored
  -- each new value comes with the encoding `classify` gives its name
  split
  · exact isValidKey_classify name
  · exact hstored

theorem OccupiedOp.apply_typed (h : m.Typed) {e : OccupiedEntry ve}
    (hv : ve.isValidKey e.name.bytes = true) (op : OccupiedOp ve) : (op.apply m e).Typed := by
  cases op with
  | insert val => exact Multimap.All.insert h hv
  | set val => exact h.setFirst hv val
  | append val => exact Multimap.All.append h hv
  | remove => exact Multimap.All.remove h _
  | keep => exact h

theorem VacantOp.apply_typed (h : m.Typed) {e : VacantEntry ve}
    (hv : ve.isValidKey e.name.bytes = true) {op : VacantOp ve} (hop : op.Good) :
    (op.apply m e).Typed := by
  cases op with
  | insert val => exact Multimap.All.append h hv
  | insertEntry val next =>
    -- `Good` keeps `insert_entry` to `Ascii` entries, so the returned entry's type is right
    cases hop
    exact OccupiedOp.apply_typed (Multimap.All.append h hv) hv next
  | keep => exact h

theorem entry_name {key : AsKey ve} {en : Entry ve} (h : m.entry ve key = some en) :
    key.name? = some en.key.inner := by
  unfold entry at h
  cases hk : key.name? with
  | none => simp [hk] at h
  | some name =>
    simp only [hk, Option.map_some, Option.some.injEq] at h
    subst h
    by_cases hc : m.headers.containsKey name <;>
      simp [hc, Entry.key, VacantEntry.key, OccupiedEntry.key]

/-- One step from a typed map, by a good operation, leaves it typed. -/
theorem step_typed (h : m.Typed) {op : Op} (hop : op.Good) {m' : MetadataMap}
    (hs : m.step op = .ok m') : m'.Typed := by
  cases op with
  | insert ve key val =>
    cases hn : key.name with
    | error e => simp [step, insert, hn] at hs
    | ok name =>
      simp only [step, insert, hn, ok_bind, pure_eq_ok, map_ok, Except.ok.injEq] at hs
      subst hs
      exact Multimap.All.insert h (IntoKey.valid_of_name hop hn)
  | append ve key val =>
    cases hn : key.name with
    | error e => simp [step, append, hn] at hs
    | ok name =>
      simp only [step, append, hn, ok_bind, pure_eq_ok, map_ok, Except.ok.injEq] at hs
      subst hs
      exact Multimap.All.append h (IntoKey.valid_of_name hop hn)
  | getMut ve key val =>
    cases hs
    unfold getMutSet
    split
    · rename_i name hn
      exact h.setFirst (AsKey.valid_of_name? hop hn) val
    · exact h
  | entry ve key onVacant onOccupied =>
    obtain ⟨hkey, hvac⟩ := hop
    simp only [step] at hs
    split at hs
    · rename_i e he
      cases hs
      exact VacantOp.apply_typed h (AsKey.valid_of_name? hkey (entry_name he)) hvac
    · rename_i e he
      cases hs
      exact OccupiedOp.apply_typed h (AsKey.valid_of_name? hkey (entry_name he)) _
    · cases hs
      exact h
  | iterMut f =>
    cases hs
    exact h.iterMutSet f
  | remove ve key =>
    cases hs
    unfold remove
    split
    · exact Multimap.All.remove h _
    · exact h
  | clear =>
    cases hs
    exact typed_new

/-- A run of good operations from a typed map leaves it typed. -/
theorem run_typed (h : m.Typed) {ops : List Op} (hops : ∀ op ∈ ops, op.Good) {m' : MetadataMap}
    (hr : m.run ops = .ok m') : m'.Typed := by
  induction ops generalizing m with
  | nil =>
    cases hr
    exact h
  | cons op ops ih =>
    obtain ⟨m₁, hs, hr⟩ := bind_eq_ok.mp hr
    exact ih (step_typed h (hops op (by simp)) hs) (fun op' hop' => hops op' (by simp [hop'])) hr

set_option maxRecDepth 4000 in
theorem run_typed_example :
    ∃ m', new.run [.insert .ascii (.static "x-host") ⟨⟨asBytes "example.com", false⟩⟩,
      .entry .binary (.str (asBytes "x-trace-bin")) (.insert ⟨⟨asBytes "AQI", false⟩⟩) .keep,
      .remove .ascii (.str (asBytes "x-host"))] = .ok m' ∧ m'.Typed := by
  -- the run returns, by evaluation, and its operations are good
  refine Rust.exists_ok_and_of_toBool (by decide) fun m' hr => run_typed typed_new ?_ hr
  simp only [List.mem_cons, List.not_mem_nil, or_false]
  rintro op (rfl | rfl | rfl)
  · trivial
  · have hlower : (AsKey.str (asBytes "x-trace-bin") : AsKey .binary).Good := by
      simp only [AsKey.Good]
      decide
    exact ⟨hlower, trivial⟩
  · trivial

/-! ## Where the typing breaks -/

/-- A string key is checked before its case is folded: under an encoding the string is valid
for, `get`, `get_mut`, `get_all`, `entry` and `remove` act on the name it folds to, valid for
that encoding or not. -/
theorem name?_str {s : List UInt8} (hv : ve.isValidKey s = true)
    (h : HeaderName.fromBytes s = some name) : (AsKey.str s : AsKey ve).name? = some name := by
  simp [AsKey.name?, hv, h]

/-- Two ways to store a value of the wrong encoding from a new map: an `Ascii` entry for a
string that is `-bin` once its case is folded, whose handed-out key is then not valid; and
`insert_entry` on a `Binary` entry, whose returned `OccupiedEntry<Ascii>` writes an ASCII value
under the binary name. -/
theorem entry_breaks_typing :
    (∀ (s : List UInt8) (name : HeaderName) (val : MetadataValue .ascii),
      HeaderName.fromBytes s = some name → Encoding.ascii.isValidKey s = true →
      Encoding.binary.isValidKey name.bytes = true →
      (∃ en, new.entry .ascii (.str s) = some en ∧ ¬ en.key.Valid) ∧
      ∃ m', new.step (.entry .ascii (.str s) (.insert val) .keep) = .ok m' ∧ ¬ m'.Typed) ∧
    (∀ (k : MetadataKey .binary) (bval : MetadataValue .binary) (aval : MetadataValue .ascii),
      k.Valid →
      ∃ m', new.step (.entry .binary (.key k) (.insertEntry bval (.insert aval)) .keep) = .ok m' ∧
        ¬ m'.Typed) := by
  -- a map whose one entry is `(name, stored)` is typed only if `stored` fits `name`
  have hsingle : ∀ (name : HeaderName) (stored : Stored),
      (⟨⟨[(name, stored)]⟩⟩ : MetadataMap).Typed →
        stored.1.isValidKey name.bytes = true := by
    intro name stored h
    exact h (name, stored) (by simp)
  constructor
  · intro s name val hname hs hbin
    have hascii : Encoding.ascii.isValidKey name.bytes = false := by
      simp [Encoding.isValidKey_ascii, hbin]
    have hentry : new.entry .ascii (.str s) = some (.vacant ⟨name⟩) := by
      simp [entry, name?_str hs hname, new, Multimap.empty, Multimap.containsKey]
    have hkey : ¬ (Entry.vacant ⟨name⟩ : Entry .ascii).key.Valid := by
      simp [MetadataKey.Valid, Entry.key, VacantEntry.key, hascii]
    have hstep : new.step (.entry .ascii (.str s) (.insert val) .keep) =
        .ok ⟨⟨[(name, (.ascii, val.inner))]⟩⟩ := by
      simp only [step, hentry]
      simp [VacantOp.apply, VacantEntry.insert, new, Multimap.empty, Multimap.append]
    refine ⟨⟨_, hentry, hkey⟩, _, hstep, fun h => ?_⟩
    have := hsingle _ _ h
    simp_all
  · intro k bval aval hk
    have hentry : new.entry .binary (.key k) = some (.vacant ⟨k.inner⟩) := by
      simp [entry, AsKey.name?, new, Multimap.empty, Multimap.containsKey]
    have hascii : Encoding.ascii.isValidKey k.inner.bytes = false := by
      simp [Encoding.isValidKey_ascii, show Encoding.binary.isValidKey k.inner.bytes = true from hk]
    have hstep : new.step (.entry .binary (.key k) (.insertEntry bval (.insert aval)) .keep) =
        .ok ⟨⟨[(k.inner, (.ascii, aval.inner))]⟩⟩ := by
      simp only [step, hentry]
      simp [VacantOp.apply, VacantEntry.insertEntry, OccupiedOp.apply, new, Multimap.empty,
        Multimap.append, Multimap.insert, Multimap.replaceAll]
    refine ⟨_, hstep, fun h => ?_⟩
    have := hsingle _ _ h
    simp_all

theorem entry_breaks_typing_mixed_case :
    (∃ en, new.entry .ascii (.str (asBytes "x-Bin")) = some en ∧ ¬ en.key.Valid) ∧
    ∃ m', new.step (.entry .ascii (.str (asBytes "x-Bin")) (.insert ⟨⟨asBytes "v", false⟩⟩) .keep) =
      .ok m' ∧ ¬ m'.Typed := by
  -- the name folds to the binary name "x-bin"
  have hsome : (HeaderName.fromBytes (asBytes "x-Bin")).isSome :=
    HeaderName.fromBytes_isSome (by decide) (by decide)
  obtain ⟨name, hname⟩ := Option.isSome_iff_exists.mp hsome
  exact entry_breaks_typing.1 _ _ _ hname (by decide)
    (by rw [HeaderName.bytes_fromBytes hname]; decide)

end MetadataMap

end Metadata

end TowerGrpc
