import TowerGrpc.Lib.Rust
import TowerGrpc.Lib.RustPath

/-!
# Type paths in the generated code

tower-grpc-build gets each method's input and output type from prost-build as the Rust
path of the type from the package's module: a bare name, a nested `a::B`, a `super::` path
into another package, `::prost_types::T` for a well-known type, or `()`. The code it
generates lives in modules below the package's: `client` and `server` one level down,
`server::<service>` two and `server::<service>::methods` three. It imports a type with
`import_type` or `super_import`, which put `level` `super`s before the path and import its
last segment, and writes a reference to it with `unqualified`, which leaves a path that does
not start with `super` as it is. A path is modelled as the segments `split("::")` cuts it
into.

The two agree on bare names, `super::` paths and `()`, in every generated module; also in
the methods module, whose imports go one level short and reach the server module's own
(`references_resolve`). They disagree on the other two shapes
(`generated_paths_break`): an absolute path's import is `use super::::prost_types::T;`,
which is not a path, and a nested path's reference `a::B` starts with `a`, which the client
module never imports.
-/

namespace TowerGrpc.Build

open Rust RustPath

/-- A Rust type path as `split("::")` cuts it: its segments, of which there is one at
least. -/
structure TypePath where
  segs : List String
  ne_nil : segs ≠ []

/-- `is_imported_type`: whether the path's first segment, which `.next().unwrap()` reads, is
`super`. -/
def isImportedType (ty : TypePath) : Bool := ty.segs.head ty.ne_nil == "super"

/-- `is_native_type`. -/
def isNativeType (ty : TypePath) : Bool := ty.segs == ["()"]

/-- `should_import`. -/
def shouldImport (ty : TypePath) : Bool := !isImportedType ty && !isNativeType ty

/-- `super_import`: `level` `super`s before the path, and its last segment taken off as the
name to import. Its two `assert!`s panic on a `super` path and on `()`. -/
def superImport (ty : TypePath) (level : Nat) : M (List String × String) :=
  if isImportedType ty then .error .panic
  else if isNativeType ty then .error .panic
  else
    let v := List.replicate level "super" ++ ty.segs
    -- `v.pop()` finds a last segment: `v` holds the path's
    .ok (v.dropLast, v.getLast (by simp [v, ty.ne_nil]))

/-- The proto type whose Rust type `unqualified` writes as `()`. -/
def emptyProto : String := ".google.protobuf.Empty"

/-- `unqualified`: the text of a reference to a type, `level` modules below the package's. -/
def unqualified (ty : TypePath) (protoTy : String) (level : Nat) : List String :=
  if protoTy = emptyProto then ["()"]
  else if !isImportedType ty then ty.segs
  else List.replicate level "super" ++ ty.segs

/-- `ImportType::import_type`: the path of the `use` declaration it adds to a scope, if it
adds one; `scope.import(path, ty)` writes `use path::ty;`. -/
def importType (ty : TypePath) (level : Nat) : M (Option (List String)) :=
  if !isImportedType ty && !isNativeType ty then do
    let (path, name) ← superImport ty level
    pure (some (path ++ [name]))
  else pure none

/-- `super_import` of a type that `should_import` picks returns: the path with `level`
`super`s before it, cut before its last segment. -/
theorem superImport_eq {ty : TypePath} (h : shouldImport ty = true) (level : Nat) :
    ∃ path name, superImport ty level = .ok (path, name) ∧
      path ++ [name] = List.replicate level "super" ++ ty.segs := by
  have hi : isImportedType ty = false := by simp_all [shouldImport]
  have hn : isNativeType ty = false := by simp_all [shouldImport]
  have hv : List.replicate level "super" ++ ty.segs ≠ [] := by simp [ty.ne_nil]
  exact ⟨_, _, by simp [superImport, hi, hn], List.dropLast_append_getLast hv⟩

/-- `import_type` never panics: it imports the path with `level` `super`s before it when
`should_import` picks the type, and nothing otherwise. -/
theorem importType_eq (ty : TypePath) (level : Nat) :
    importType ty level =
      .ok (if shouldImport ty then some (List.replicate level "super" ++ ty.segs) else none) := by
  by_cases h : shouldImport ty = true
  · obtain ⟨path, name, hsup, hpath⟩ := superImport_eq h level
    have h' : (!isImportedType ty && !isNativeType ty) = true := h
    simp [importType, h', hsup, hpath, h]
  · have h' : ¬ (!isImportedType ty && !isNativeType ty) = true := h
    simp [importType, h', h]

/-! ## What the generators emit -/

/-- What prost-build hands the generators of a method. -/
structure Method where
  inputType : TypePath
  outputType : TypePath
  inputProtoType : String
  outputProtoType : String
  clientStreaming : Bool
  serverStreaming : Bool

/-- A service: the name of its trait, and its methods. -/
structure Service where
  name : String
  methods : List Method

/-- `lower_name`: each upper-case letter lowered, with `_` before it unless it comes
first. -/
def lowerName (name : String) : String :=
  String.ofList (go 0 name.toList)
where
  go : Nat → List Char → List Char
    | _, [] => []
    | i, ch :: rest =>
      (if ch.isUpper then (if i ≠ 0 then ['_'] else []) ++ [ch.toLower] else [ch]) ++
        go (i + 1) rest

def clientModule (pkg : List String) : List String := pkg ++ ["client"]

def serverModule (pkg : List String) : List String := pkg ++ ["server"]

/-- The module `define` opens for the service's futures and bodies. -/
def supportModule (pkg : List String) (svc : Service) : List String :=
  serverModule pkg ++ [lowerName svc.name]

def methodsModule (pkg : List String) (svc : Service) : List String :=
  supportModule pkg svc ++ ["methods"]

def generatedModules (pkg : List String) (svc : Service) : List (List String) :=
  [clientModule pkg, serverModule pkg, supportModule pkg svc, methodsModule pkg svc]

/-- `::tower_grpc::codegen::client`, which the client module glob-imports, and the names it
brings (`codegen.rs`). -/
def codegenClient : List String := ["", "tower_grpc", "codegen", "client"]

def codegenClientNames : List String := ["grpc", "http", "futures", "tower"]

/-- `::tower_grpc::codegen::server`, which the server modules glob-import, and the names it
brings. -/
def codegenServer : List String := ["", "tower_grpc", "codegen", "server"]

def codegenServerNames : List String := ["grpc", "futures", "http", "tower", "tower_hyper"]

/-- The `use` path `import_type` adds, if any. -/
def useOf (ty : TypePath) (level : Nat) : List (List String) :=
  match importType ty level with
  | .ok (some u) => [u]
  | _ => []

/-- The `use` path a `super_import` adds, if it returns. -/
def superUse (ty : TypePath) (level : Nat) : List (List String) :=
  match superImport ty level with
  | .ok (path, name) => [path ++ [name]]
  | .error _ => []

/-- `import_message_types`: the client imports each input and output at level 1. -/
def clientUses (svc : Service) : List (List String) :=
  svc.methods.flatMap fun m => useOf m.inputType 1 ++ useOf m.outputType 1

/-- `define_service_trait`: the server module imports each input and output that
`should_import` picks, by `super_import` at level 1. -/
def serverUses (svc : Service) : List (List String) :=
  svc.methods.flatMap fun m => [m.inputType, m.outputType].flatMap fun ty =>
    if shouldImport ty then superUse ty 1 else []

/-- `define`, `define_response_body`: the support module imports the service trait and each
input that `should_import` picks, by `super_import` at level 2. -/
def supportUses (svc : Service) : List (List String) :=
  ["super", svc.name] :: svc.methods.flatMap fun m =>
    if shouldImport m.inputType then superUse m.inputType 2 else []

/-- `define`: the methods module imports the service trait, each input, and each output of a
method whose response does not stream, by `import_type` at level 2. -/
def methodsUses (svc : Service) : List (List String) :=
  ["super", "super", svc.name] :: svc.methods.flatMap fun m =>
    useOf m.inputType 2 ++ if m.serverStreaming then [] else useOf m.outputType 2

/-- The crate holding the code generated for `svc` into the package module `pkg`: the
generated modules hold the generators' `use` declarations and glob imports, and everything
else is as in `base`, which also holds what the generated modules declare. -/
def generate (base : Crate) (pkg : List String) (svc : Service) : Crate where
  decls := base.decls
  uses m :=
    if m = clientModule pkg then clientUses svc
    else if m = serverModule pkg then serverUses svc
    else if m = supportModule pkg svc then supportUses svc
    else if m = methodsModule pkg svc then methodsUses svc
    else base.uses m
  globs m :=
    if m = clientModule pkg then [(codegenClient, codegenClientNames)]
    else if m ∈ [serverModule pkg, supportModule pkg svc, methodsModule pkg svc] then
      [(codegenServer, codegenServerNames)]
    else base.globs m

/-- A type reference the generators write: in which module, to which type, and at which
level. -/
structure Reference where
  module : List String
  ty : TypePath
  protoTy : String
  level : Nat

/-- The references to a method's types: the client's request and response (`client.rs`), the
service trait's (`define_service_trait`), the support module's request in `Kind`
(`response_fut_kind`), and the method struct's request and, unless it streams, response
(`define_service_method`); a streaming request writes its type inside `grpc::Streaming`. -/
def methodReferences (pkg : List String) (svc : Service) (m : Method) : List Reference :=
  [⟨clientModule pkg, m.inputType, m.inputProtoType, 1⟩,
    ⟨clientModule pkg, m.outputType, m.outputProtoType, 1⟩,
    ⟨serverModule pkg, m.outputType, m.outputProtoType, 1⟩,
    ⟨serverModule pkg, m.inputType, m.inputProtoType, 1⟩,
    ⟨supportModule pkg svc, m.inputType, m.inputProtoType, 2⟩,
    ⟨methodsModule pkg svc, m.inputType, m.inputProtoType, 3⟩] ++
  if m.serverStreaming then [] else [⟨methodsModule pkg svc, m.outputType, m.outputProtoType, 3⟩]

def references (pkg : List String) (svc : Service) : List Reference :=
  svc.methods.flatMap (methodReferences pkg svc)

/-! ## What a reference names -/

/-- What a type reference names: the unit type, or an item. -/
inductive Denotation where
  | unit
  | item (path : List String)

/-- The type reference `ref`, written in module `m`, names `d`. -/
def Denotes (c : Crate) (m ref : List String) (d : Denotation) : Prop :=
  if ref = ["()"] then d = .unit else ∃ t, d = .item t ∧ Resolves c m ref t

/-- The type paths on which the generators' imports and references agree, for the package
module `pkg` and the service `svc` of the crate `c`: `()` for `.google.protobuf.Empty`, a path
that starts with `super`, and a bare name that the package declares, that differs from the
service's name (which the support and methods modules import), and that no generated module
declares. -/
inductive Supported (c : Crate) (pkg : List String) (svc : Service) : TypePath → String → Prop
  | unit {ty : TypePath} : ty.segs = ["()"] → Supported c pkg svc ty emptyProto
  | relative {ty : TypePath} {protoTy : String} : protoTy ≠ emptyProto →
      isImportedType ty = true → Supported c pkg svc ty protoTy
  | bare {ty : TypePath} {protoTy : String} {x : String} : protoTy ≠ emptyProto →
      ty.segs = [x] → isName x = true → x ∈ c.decls pkg → x ≠ svc.name →
      (∀ G ∈ generatedModules pkg svc, x ∉ c.decls G) → Supported c pkg svc ty protoTy

/-! ## The `use` paths of the generated modules -/

section Uses

variable {ty : TypePath} {level : Nat}

theorem useOf_eq (ty : TypePath) (level : Nat) :
    useOf ty level =
      if shouldImport ty then [List.replicate level "super" ++ ty.segs] else [] := by
  unfold useOf
  rw [importType_eq]
  split_ifs <;> rfl

/-- Where the server module and the support module call `super_import` themselves, the
`use` paths are what `import_type` would emit. -/
theorem superUse_eq (ty : TypePath) (level : Nat) :
    (if shouldImport ty then superUse ty level else []) = useOf ty level := by
  rw [useOf_eq]
  split_ifs with h
  · obtain ⟨path, name, hsup, hpath⟩ := superImport_eq h level
    rw [superUse, hsup]
    exact congrArg (fun u => [u]) hpath
  · rfl

theorem serverUses_eq (svc : Service) : serverUses svc = clientUses svc := by
  simp [serverUses, clientUses, superUse_eq]

theorem supportUses_eq (svc : Service) :
    supportUses svc = ["super", svc.name] :: svc.methods.flatMap fun m => useOf m.inputType 2 := by
  simp [supportUses, superUse_eq]

theorem isName_ne_unit {x : String} (hx : isName x = true) : x ≠ "()" := by
  rintro rfl
  exact absurd hx (by decide)

theorem isName_ne_super {x : String} (hx : isName x = true) : x ≠ "super" := by
  rintro rfl
  simp [isName] at hx

/-- A bare name is imported by its name. -/
theorem mem_useOf {x : String} (hty : ty.segs = [x]) (hx : isName x = true) :
    List.replicate level "super" ++ [x] ∈ useOf ty level := by
  have himp : shouldImport ty = true := by
    simp [shouldImport, isImportedType, isNativeType, hty, isName_ne_super hx, isName_ne_unit hx]
  simp [useOf_eq, himp, hty]

/-- A supported type is imported, if at all, by a bare name. -/
theorem useOf_bare {c : Crate} {pkg : List String} {svc : Service} {protoTy : String}
    (h : Supported c pkg svc ty protoTy) :
    ∀ u ∈ useOf ty level, ∃ y, u = List.replicate level "super" ++ [y] ∧ isName y = true := by
  intro u hu
  rw [useOf_eq] at hu
  split_ifs at hu with himp
  · obtain rfl := List.mem_singleton.mp hu
    cases h with
    | unit hty => simp [shouldImport, isNativeType, hty] at himp
    | relative _ himp' => simp [shouldImport, himp'] at himp
    | bare _ hty hx => exact ⟨_, by rw [hty], hx⟩
  · cases hu

/-- Among imports of bare names at one level, the import of `x` is found by its name. -/
theorem find_supers {l : Nat} {x : String} :
    ∀ {us : List (List String)}, (∀ u ∈ us, ∃ y, u = List.replicate l "super" ++ [y]) →
      List.replicate l "super" ++ [x] ∈ us →
      us.find? (fun u => u.getLast? == some x) = some (List.replicate l "super" ++ [x])
  | [], _, hx => by simp at hx
  | u :: us, hus, hx => by
    obtain ⟨y, rfl⟩ := hus u List.mem_cons_self
    by_cases hy : y = x
    · subst hy
      simp
    · have hx' : List.replicate l "super" ++ [x] ∈ us := by
        simpa [Ne.symm hy] using hx
      rw [List.find?_cons_of_neg (by simp [hy])]
      exact find_supers (fun u hu => hus u (List.mem_cons_of_mem _ hu)) hx'

end Uses

section Generated

variable (base : Crate) (pkg : List String) (svc : Service)

theorem generate_uses_client :
    (generate base pkg svc).uses (clientModule pkg) = clientUses svc := by
  simp [generate]

theorem generate_uses_server :
    (generate base pkg svc).uses (serverModule pkg) = clientUses svc := by
  simp [generate, clientModule, serverModule, serverUses_eq]

theorem generate_uses_support :
    (generate base pkg svc).uses (supportModule pkg svc) = supportUses svc := by
  simp [generate, clientModule, serverModule, supportModule]

theorem generate_uses_methods :
    (generate base pkg svc).uses (methodsModule pkg svc) = methodsUses svc := by
  simp [generate, clientModule, serverModule, supportModule, methodsModule]

theorem generate_globs_client :
    (generate base pkg svc).globs (clientModule pkg) = [(codegenClient, codegenClientNames)] := by
  simp [generate]

theorem generate_decls : (generate base pkg svc).decls = base.decls := rfl

theorem supportModule_eq : supportModule pkg svc = pkg ++ ["server", lowerName svc.name] := by
  simp [supportModule, serverModule]

theorem methodsModule_eq :
    methodsModule pkg svc = serverModule pkg ++ [lowerName svc.name, "methods"] := by
  simp [methodsModule, supportModule]

theorem methodsModule_eq_pkg :
    methodsModule pkg svc = pkg ++ ["server", lowerName svc.name, "methods"] := by
  simp [methodsModule, supportModule, serverModule]

end Generated

/-! ## Resolution in the generated modules -/

/-- Every method's input and output is `Supported`. -/
def AllSupported (base : Crate) (pkg : List String) (svc : Service) : Prop :=
  ∀ m ∈ svc.methods, Supported base pkg svc m.inputType m.inputProtoType ∧
    Supported base pkg svc m.outputType m.outputProtoType

section Resolution

variable {base : Crate} {pkg : List String} {svc : Service} (hall : AllSupported base pkg svc)
  {m : Method} (hm : m ∈ svc.methods) {x : String} (hxn : isName x = true)

include hall in
theorem clientUses_bare :
    ∀ u ∈ clientUses svc, ∃ y, u = List.replicate 1 "super" ++ [y] ∧ isName y = true := by
  intro u hu
  obtain ⟨m, hm, hu⟩ := List.mem_flatMap.mp hu
  rcases List.mem_append.mp hu with hu | hu
  · exact useOf_bare (hall m hm).1 u hu
  · exact useOf_bare (hall m hm).2 u hu

include hall hm hxn in
/-- The client and server modules find the import of a method's bare type by its name. -/
theorem find_clientUses {ty : TypePath} (hty : ty = m.inputType ∨ ty = m.outputType)
    (hx : ty.segs = [x]) :
    (clientUses svc).find? (fun u => u.getLast? == some x) =
      some (List.replicate 1 "super" ++ [x]) := by
  refine find_supers (fun u hu => (clientUses_bare hall u hu).imp fun _ h => h.1) ?_
  refine List.mem_flatMap.mpr ⟨m, hm, ?_⟩
  rcases hty with rfl | rfl
  · exact List.mem_append_left _ (mem_useOf hx hxn)
  · exact List.mem_append_right _ (mem_useOf hx hxn)

include hall hm hxn in
/-- The support module finds the import of a method's bare input, past the service's. -/
theorem find_supportUses (hx : m.inputType.segs = [x]) (hne : x ≠ svc.name) :
    (supportUses svc).find? (fun u => u.getLast? == some x) =
      some (List.replicate 2 "super" ++ [x]) := by
  rw [supportUses_eq, List.find?_cons_of_neg (by simp [Ne.symm hne])]
  refine find_supers ?_ (List.mem_flatMap.mpr ⟨m, hm, mem_useOf hx hxn⟩)
  intro u hu
  obtain ⟨m', hm', hu⟩ := List.mem_flatMap.mp hu
  exact (useOf_bare (hall m' hm').1 u hu).imp fun _ h => h.1

include hall hm hxn in
/-- The methods module finds the import of a method's bare input, or output when the
response does not stream, past the service's. -/
theorem find_methodsUses {ty : TypePath}
    (hty : ty = m.inputType ∨ ty = m.outputType ∧ m.serverStreaming = false)
    (hx : ty.segs = [x]) (hne : x ≠ svc.name) :
    (methodsUses svc).find? (fun u => u.getLast? == some x) =
      some (List.replicate 2 "super" ++ [x]) := by
  rw [methodsUses, List.find?_cons_of_neg (by simp [Ne.symm hne])]
  refine find_supers ?_ (List.mem_flatMap.mpr ⟨m, hm, ?_⟩)
  · intro u hu
    obtain ⟨m', hm', hu⟩ := List.mem_flatMap.mp hu
    rcases List.mem_append.mp hu with hu | hu
    · exact (useOf_bare (hall m' hm').1 u hu).imp fun _ h => h.1
    · split_ifs at hu
      · cases hu
      · exact (useOf_bare (hall m' hm').2 u hu).imp fun _ h => h.1
  · rcases hty with rfl | ⟨rfl, hss⟩
    · exact List.mem_append_left _ (mem_useOf hx hxn)
    · refine List.mem_append_right _ ?_
      rw [hss, if_neg Bool.false_ne_true]
      exact mem_useOf hx hxn

theorem ne_extern_of_isName (hxn : isName x = true) : ∀ rest, [x] ≠ "" :: rest := by
  intro rest h
  simp [← (List.cons.inj h).1, isName] at hxn

include hall hm hxn in
/-- In the client and server modules a bare name resolves through its import, one level up,
to the package's item. -/
theorem resolves_levelOne {G : List String} (hG : G = clientModule pkg ∨ G = serverModule pkg)
    {ty : TypePath} (hty : ty = m.inputType ∨ ty = m.outputType) (hx : ty.segs = [x])
    (hd : x ∉ base.decls G) (t : List String) :
    Resolves (generate base pkg svc) G [x] t ↔ Resolves (generate base pkg svc) pkg [x] t := by
  have huses : (generate base pkg svc).uses G = clientUses svc := by
    rcases hG with rfl | rfl
    · exact generate_uses_client base pkg svc
    · exact generate_uses_server base pkg svc
  rw [resolves_use (c := generate base pkg svc) hxn hd
    (by rw [huses]; exact find_clientUses hall hm hxn hty hx)]
  rcases hG with rfl | rfl
  · exact resolves_supers ["client"] (ne_extern_of_isName hxn)
  · exact resolves_supers ["server"] (ne_extern_of_isName hxn)

include hall hm hxn in
/-- In the support module a bare input resolves through its import, two levels up. -/
theorem resolves_support (hx : m.inputType.segs = [x]) (hne : x ≠ svc.name)
    (hd : x ∉ base.decls (supportModule pkg svc)) (t : List String) :
    Resolves (generate base pkg svc) (supportModule pkg svc) [x] t ↔
      Resolves (generate base pkg svc) pkg [x] t := by
  rw [resolves_use (c := generate base pkg svc) hxn hd
      (by rw [generate_uses_support]; exact find_supportUses hall hm hxn hx hne),
    supportModule_eq]
  exact resolves_supers ["server", lowerName svc.name] (ne_extern_of_isName hxn)

include hall hm hxn in
/-- In the methods module a bare type's import goes two levels up, one short of the package,
to the server module, whose own import of the name leads on to the package's item. -/
theorem resolves_methods {ty : TypePath}
    (hty : ty = m.inputType ∨ ty = m.outputType ∧ m.serverStreaming = false)
    (hx : ty.segs = [x]) (hne : x ≠ svc.name) (hdm : x ∉ base.decls (methodsModule pkg svc))
    (hds : x ∉ base.decls (serverModule pkg)) (t : List String) :
    Resolves (generate base pkg svc) (methodsModule pkg svc) [x] t ↔
      Resolves (generate base pkg svc) pkg [x] t := by
  rw [resolves_use (c := generate base pkg svc) hxn hdm
      (by rw [generate_uses_methods]; exact find_methodsUses hall hm hxn hty hx hne),
    methodsModule_eq]
  have hty' : ty = m.inputType ∨ ty = m.outputType := hty.imp_right fun h => h.1
  exact (resolves_supers [lowerName svc.name, "methods"] (ne_extern_of_isName hxn)).trans
    (resolves_levelOne hall hm hxn (.inr rfl) hty' hx hds t)

end Resolution

/-! ## Every reference the generators write -/

theorem segs_of_imported {ty : TypePath} (h : isImportedType ty = true) :
    ∃ rest, ty.segs = "super" :: rest := by
  obtain ⟨segs, hne⟩ := ty
  cases segs with
  | nil => exact absurd rfl hne
  | cons s rest =>
    have hs : s = "super" := by simpa [isImportedType] using h
    subst hs
    exact ⟨rest, rfl⟩

/-- The last segment of an import is the type's. -/
theorem getLast?_of_mem_useOf {ty : TypePath} {level : Nat} {u : List String}
    (hu : u ∈ useOf ty level) : u.getLast? = ty.segs.getLast? := by
  rw [useOf_eq] at hu
  split_ifs at hu
  · obtain rfl := List.mem_singleton.mp hu
    exact List.getLast?_append_of_ne_nil _ ty.ne_nil
  · cases hu

section References

variable {base : Crate} {pkg : List String} {svc : Service}

/-- A reference written in a module `s.length` levels below the package's, to a supported
type, names what the type names in the package, once a bare name resolves there through the
module's imports. -/
theorem denotes_of_bare {G s : List String} (hG : G = pkg ++ s) {level : Nat}
    (hl : level = s.length) {ty : TypePath} {protoTy : String}
    (hsup : Supported base pkg svc ty protoTy)
    (hbare : ∀ x, ty.segs = [x] → isName x = true → x ≠ svc.name →
      (∀ G' ∈ generatedModules pkg svc, x ∉ base.decls G') → ∀ t,
        Resolves (generate base pkg svc) G [x] t ↔ Resolves (generate base pkg svc) pkg [x] t)
    (d : Denotation) :
    Denotes (generate base pkg svc) G (unqualified ty protoTy level) d ↔
      Denotes (generate base pkg svc) pkg ty.segs d := by
  subst hG hl
  cases hsup with
  | unit hty => simp [Denotes, unqualified, hty]
  | relative hproto himp =>
    -- `unqualified` puts a `super` for each level before a `super` path
    obtain ⟨rest, hrest⟩ := segs_of_imported himp
    have hq : List.replicate s.length "super" ++ ty.segs ≠ ["()"] := by
      rcases s with _ | ⟨y, s⟩ <;> simp [hrest, List.replicate_succ]
    have hne : ∀ r, ty.segs ≠ "" :: r := by simp [hrest]
    have hty : ty.segs ≠ ["()"] := by simp [hrest]
    simp only [Denotes, unqualified, if_neg hproto, himp, Bool.not_true, Bool.false_eq_true,
      if_false, if_neg hq, if_neg hty]
    exact exists_congr fun t => and_congr_right fun _ => resolves_supers s hne
  | bare hproto hty hxn _ hne hgen =>
    have hnimp : isImportedType ty = false := by
      simp [isImportedType, hty, isName_ne_super hxn]
    have hunit : ¬ [_] = ["()"] := fun h => isName_ne_unit hxn (List.singleton_inj.mp h)
    simp only [Denotes, unqualified, if_neg hproto, hnimp, Bool.not_false, if_true, hty,
      if_neg hunit]
    exact exists_congr fun t => and_congr_right fun _ => hbare _ hty hxn hne hgen t

theorem not_mem_generated {x : String} (hgen : ∀ G ∈ generatedModules pkg svc, x ∉ base.decls G) :
    x ∉ base.decls (supportModule pkg svc) ∧ x ∉ base.decls (methodsModule pkg svc) ∧
      x ∉ base.decls (serverModule pkg) :=
  ⟨hgen _ (by simp [generatedModules]), hgen _ (by simp [generatedModules]),
    hgen _ (by simp [generatedModules])⟩

variable (hall : AllSupported base pkg svc) {m : Method} (hm : m ∈ svc.methods)

include hall hm in
/-- A client or server reference to a method's type names what the type names in the
package. -/
theorem denotes_levelOne {G : List String} (hG : G = clientModule pkg ∨ G = serverModule pkg)
    {ty : TypePath} {protoTy : String} (hty : ty = m.inputType ∨ ty = m.outputType)
    (hsup : Supported base pkg svc ty protoTy) (d : Denotation) :
    Denotes (generate base pkg svc) G (unqualified ty protoTy 1) d ↔
      Denotes (generate base pkg svc) pkg ty.segs d := by
  have hgen : G ∈ generatedModules pkg svc := by
    rcases hG with rfl | rfl <;> simp [generatedModules]
  obtain ⟨s, hGs, hs⟩ : ∃ s, G = pkg ++ s ∧ 1 = s.length := by
    rcases hG with rfl | rfl
    · exact ⟨["client"], rfl, rfl⟩
    · exact ⟨["server"], rfl, rfl⟩
  exact denotes_of_bare hGs hs hsup (fun _ hx hxn _ hnot t =>
    resolves_levelOne hall hm hxn hG hty hx (hnot G hgen) t) d

include hall hm in
/-- A methods-module reference to a method's input, or to its output when the response does
not stream, names what the type names in the package. -/
theorem denotes_methods {ty : TypePath} {protoTy : String}
    (hty : ty = m.inputType ∨ ty = m.outputType ∧ m.serverStreaming = false)
    (hsup : Supported base pkg svc ty protoTy) (d : Denotation) :
    Denotes (generate base pkg svc) (methodsModule pkg svc) (unqualified ty protoTy 3) d ↔
      Denotes (generate base pkg svc) pkg ty.segs d :=
  denotes_of_bare (methodsModule_eq_pkg _ _) rfl hsup (fun _ hx hxn hne hnot t =>
    resolves_methods hall hm hxn hty hx hne (not_mem_generated hnot).2.1
      (not_mem_generated hnot).2.2 t) d

include hall hm in
theorem denotes_methodReferences :
    ∀ r ∈ methodReferences pkg svc m, ∀ d,
      Denotes (generate base pkg svc) r.module (unqualified r.ty r.protoTy r.level) d ↔
        Denotes (generate base pkg svc) pkg r.ty.segs d := by
  intro r hr d
  obtain ⟨hin, hout⟩ := hall m hm
  -- by the module the reference is written in
  simp only [methodReferences, List.mem_append, List.mem_cons, List.not_mem_nil,
    or_false] at hr
  rcases hr with (rfl | rfl | rfl | rfl | rfl | rfl) | hr
  · exact denotes_levelOne hall hm (.inl rfl) (.inl rfl) hin d
  · exact denotes_levelOne hall hm (.inl rfl) (.inr rfl) hout d
  · exact denotes_levelOne hall hm (.inr rfl) (.inr rfl) hout d
  · exact denotes_levelOne hall hm (.inr rfl) (.inl rfl) hin d
  · exact denotes_of_bare (supportModule_eq _ _) rfl hin (fun _ hx hxn hne hnot t =>
      resolves_support hall hm hxn hx hne (not_mem_generated hnot).1 t) d
  · exact denotes_methods hall hm (.inl rfl) hin d
  · -- the response of a method whose response does not stream
    split_ifs at hr with hss
    · cases hr
    · obtain rfl := List.mem_singleton.mp hr
      exact denotes_methods hall hm (.inr ⟨rfl, by simpa using hss⟩) hout d

/-- The imports of a supported type are paths. -/
theorem valid_of_mem_useOf {ty : TypePath} {protoTy : String} {level : Nat} {u : List String}
    (hsup : Supported base pkg svc ty protoTy) (hu : u ∈ useOf ty level) : valid u = true := by
  obtain ⟨y, rfl, hy⟩ := useOf_bare hsup u hu
  exact valid_supers_name level hy

include hall in
/-- Every `use` path the generators write is a path: an import of a bare name, or of the
service trait. -/
theorem valid_generatedUses (hsvc : isName svc.name = true) :
    ∀ G ∈ generatedModules pkg svc, ∀ u ∈ (generate base pkg svc).uses G, valid u = true := by
  intro G hG u hu
  have hclient : ∀ u ∈ clientUses svc, valid u = true := fun u hu => by
    obtain ⟨y, rfl, hy⟩ := clientUses_bare hall u hu
    exact valid_supers_name 1 hy
  simp only [generatedModules, List.mem_cons, List.not_mem_nil, or_false] at hG
  rcases hG with rfl | rfl | rfl | rfl
  · rw [generate_uses_client] at hu
    exact hclient u hu
  · rw [generate_uses_server] at hu
    exact hclient u hu
  · rw [generate_uses_support, supportUses_eq] at hu
    rcases List.mem_cons.mp hu with rfl | hu
    · exact valid_supers_name 1 hsvc
    · obtain ⟨m, hm, hu⟩ := List.mem_flatMap.mp hu
      exact valid_of_mem_useOf (hall m hm).1 hu
  · rw [generate_uses_methods, methodsUses] at hu
    rcases List.mem_cons.mp hu with rfl | hu
    · exact valid_supers_name 2 hsvc
    · obtain ⟨m, hm, hu⟩ := List.mem_flatMap.mp hu
      rcases List.mem_append.mp hu with hu | hu
      · exact valid_of_mem_useOf (hall m hm).1 hu
      · split_ifs at hu
        · cases hu
        · exact valid_of_mem_useOf (hall m hm).2 hu

/-- Every type reference the generators write, in whichever module, names what its type
names in the package module, and every `use` path they write is a path, for services whose
method types are all `Supported`. -/
theorem references_resolve (base : Crate) (pkg : List String) (svc : Service)
    (hsvc : isName svc.name = true) (hall : AllSupported base pkg svc) :
    (∀ r ∈ references pkg svc, ∀ d,
      Denotes (generate base pkg svc) r.module (unqualified r.ty r.protoTy r.level) d ↔
        Denotes (generate base pkg svc) pkg r.ty.segs d) ∧
    ∀ G ∈ generatedModules pkg svc, ∀ u ∈ (generate base pkg svc).uses G, valid u = true := by
  refine ⟨fun r hr => ?_, valid_generatedUses hall hsvc⟩
  obtain ⟨m, hm, hr⟩ := List.mem_flatMap.mp hr
  exact denotes_methodReferences hall hm r hr

end References

/-- The service `Greeter` of the package `hello`, whose method takes the package's
`HelloRequest` and returns `super::common::Reply`. -/
def greeterMethod : Method :=
  ⟨⟨["HelloRequest"], List.cons_ne_nil _ _⟩, ⟨["super", "common", "Reply"], List.cons_ne_nil _ _⟩,
    ".hello.HelloRequest", ".common.Reply", false, false⟩

def greeter : Service := ⟨"Greeter", [greeterMethod]⟩

def greeterCrate : Crate where
  decls p := if p = ["hello"] then ["HelloRequest", "client", "server"] else []
  uses _ := []
  globs _ := []

theorem greeterCrate_supported : AllSupported greeterCrate ["hello"] greeter := by
  intro m hm
  obtain rfl := List.mem_singleton.mp hm
  exact ⟨.bare (by decide) rfl (by decide) (by decide) (by decide) (by decide),
    .relative (by decide) rfl⟩

theorem references_resolve_greeter :
    (∀ r ∈ references ["hello"] greeter, ∀ d,
      Denotes (generate greeterCrate ["hello"] greeter) r.module
          (unqualified r.ty r.protoTy r.level) d ↔
        Denotes (generate greeterCrate ["hello"] greeter) ["hello"] r.ty.segs d) ∧
    ∀ G ∈ generatedModules ["hello"] greeter, ∀ u ∈ (generate greeterCrate ["hello"] greeter).uses G,
      valid u = true :=
  references_resolve greeterCrate ["hello"] greeter (by decide) greeterCrate_supported

/-! ## Where they break -/

/-- `import_type` imports an absolute path `::krate::…` as `use super::::krate::…;` at every
level the generators use, which is not a path. -/
theorem importType_absolute (segs : List String) {level : Nat} (hl : 0 < level) :
    importType ⟨"" :: segs, List.cons_ne_nil _ _⟩ level =
        .ok (some (List.replicate level "super" ++ "" :: segs)) ∧
      valid (List.replicate level "super" ++ "" :: segs) = false := by
  constructor
  · -- an absolute path is neither a `super` path nor `()`, so `import_type` imports it
    rw [importType_eq]
    simp [shouldImport, isImportedType, isNativeType]
  · obtain ⟨l, rfl⟩ := Nat.exists_eq_add_of_lt hl
    exact valid_supers_absolute (0 + l) segs

/-- No import of the client module ends in `a` when no method's type does. -/
theorem clientUses_getLast?_ne {svc : Service} {a : String}
    (hlast : ∀ m ∈ svc.methods, ∀ ty ∈ [m.inputType, m.outputType], ty.segs.getLast? ≠ some a) :
    ∀ u ∈ clientUses svc, u.getLast? ≠ some a := by
  intro u hu
  obtain ⟨m, hm, hu⟩ := List.mem_flatMap.mp hu
  rcases List.mem_append.mp hu with hu | hu
  · rw [getLast?_of_mem_useOf hu]
    exact hlast m hm _ (by simp)
  · rw [getLast?_of_mem_useOf hu]
    exact hlast m hm _ (by simp)

section Nested

variable {base : Crate} {pkg : List String} {svc : Service} {m : Method} {a b : String}
  (hab : m.inputType.segs = [a, b]) (ha : isName a = true)

include hab ha in
/-- In the package module a nested path `a::b` names the item `b` of the module `a`. -/
theorem denotes_nested (hpkg : a ∈ base.decls pkg) (hb : b ∈ base.decls (pkg ++ [a])) :
    Denotes (generate base pkg svc) pkg m.inputType.segs (.item (pkg ++ [a, b])) := by
  have hab' : [a, b] ≠ ["()"] := by simp
  simp only [Denotes, hab, if_neg hab']
  exact ⟨_, rfl, resolves_declared ha ⟨hpkg, hb, trivial⟩⟩

include hab ha in
/-- In the client module the reference to a nested path `a::b` is `a::b` itself, which
names nothing when nothing there is named `a`: the client declares no `a`, imports none, and
its glob import brings none. -/
theorem not_denotes_nested_client (hproto : m.inputProtoType ≠ emptyProto)
    (hcl : a ∉ base.decls (clientModule pkg)) (hglob : a ∉ codegenClientNames)
    (hlast : ∀ m' ∈ svc.methods, ∀ ty ∈ [m'.inputType, m'.outputType], ty.segs.getLast? ≠ some a)
    (d : Denotation) :
    ¬ Denotes (generate base pkg svc) (clientModule pkg)
      (unqualified m.inputType m.inputProtoType 1) d := by
  intro hd
  have hnimp : isImportedType m.inputType = false := by
    simp [isImportedType, hab, isName_ne_super ha]
  have hab' : [a, b] ≠ ["()"] := by simp
  simp only [Denotes, unqualified, if_neg hproto, hnimp, Bool.not_false, if_true, hab,
    if_neg hab'] at hd
  obtain ⟨t, -, fuel, hres⟩ := hd
  have hg : ∀ g ∈ (generate base pkg svc).globs (clientModule pkg), a ∉ g.2 := by
    rw [generate_globs_client]
    simpa using hglob
  rw [resolve_unfound (c := generate base pkg svc) ha hcl
    (by rw [generate_uses_client]; exact clientUses_getLast?_ne hlast) hg] at hres
  cases hres

end Nested

theorem generated_paths_break :
    (∀ (segs : List String) (level : Nat), 0 < level →
      importType ⟨"" :: segs, List.cons_ne_nil _ _⟩ level =
        .ok (some (List.replicate level "super" ++ "" :: segs)) ∧
      valid (List.replicate level "super" ++ "" :: segs) = false) ∧
    ∀ (base : Crate) (pkg : List String) (svc : Service) (m : Method) (a b : String),
      m ∈ svc.methods → m.inputType.segs = [a, b] → m.inputProtoType ≠ emptyProto →
      isName a = true → a ∈ base.decls pkg → b ∈ base.decls (pkg ++ [a]) →
      a ∉ base.decls (clientModule pkg) → a ∉ codegenClientNames →
      (∀ m' ∈ svc.methods, ∀ ty ∈ [m'.inputType, m'.outputType], ty.segs.getLast? ≠ some a) →
      Denotes (generate base pkg svc) pkg m.inputType.segs (.item (pkg ++ [a, b])) ∧
      ∀ d, ¬ Denotes (generate base pkg svc) (clientModule pkg)
        (unqualified m.inputType m.inputProtoType 1) d :=
  ⟨fun segs _ hl => importType_absolute segs hl,
    fun _ _ _ _ _ _ _ hab hproto ha hpkg hb hcl hglob hlast =>
      ⟨denotes_nested hab ha hpkg hb, not_denotes_nested_client hab ha hproto hcl hglob hlast⟩⟩

/-- The generated client of a package `hello` whose service `Greeter` takes the nested type
`outer::Inner`. -/
def nestedMethod : Method :=
  ⟨⟨["outer", "Inner"], List.cons_ne_nil _ _⟩, ⟨["HelloReply"], List.cons_ne_nil _ _⟩,
    ".hello.Outer.Inner", ".hello.HelloReply", false, false⟩

def nestedService : Service := ⟨"Greeter", [nestedMethod]⟩

def nestedCrate : Crate where
  decls p :=
    if p = ["hello"] then ["outer", "HelloReply", "client", "server"]
    else if p = ["hello", "outer"] then ["Inner"] else []
  uses _ := []
  globs _ := []

/-- `::prost_types::Timestamp` is imported as `use super::::prost_types::Timestamp;`, and the
client's reference to `outer::Inner` names nothing. -/
theorem generated_paths_break_timestamp :
    (importType ⟨["", "prost_types", "Timestamp"], List.cons_ne_nil _ _⟩ 1 =
        .ok (some ["super", "", "prost_types", "Timestamp"]) ∧
      valid ["super", "", "prost_types", "Timestamp"] = false) ∧
    ∀ d, ¬ Denotes (generate nestedCrate ["hello"] nestedService) (clientModule ["hello"])
      (unqualified nestedMethod.inputType nestedMethod.inputProtoType 1) d :=
  ⟨generated_paths_break.1 ["prost_types", "Timestamp"] 1 (by decide),
    (generated_paths_break.2 nestedCrate ["hello"] nestedService nestedMethod "outer" "Inner"
      (List.mem_singleton.mpr rfl) rfl (by decide) (by decide) (by decide) (by decide)
      (by decide) (by decide) (by decide)).2⟩

end TowerGrpc.Build
