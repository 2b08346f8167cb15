import IntrospectSdl.Sdl.PrintError

/-! # References

The references of a schema, in the order in which they are checked, and the check: each name has to
be declared, a root has to be an object and an implemented type an interface. -/

namespace IntrospectSdl.Sdl

/-- A name that refers to a type, and where it stands. -/
structure Reference where
  name : String
  site : Site
deriving DecidableEq, Repr

/-- The references of a field: its own type, then those of its arguments. -/
def fieldReferences (type : String) (f : Field) : List Reference :=
  ⟨f.type.innermost, .field type f.name⟩ ::
    f.arguments.map fun a => ⟨a.type.innermost, .argument type f.name a.name⟩

/-- The references of a type that has interfaces and fields. -/
def compositeReferences (type : String) (interfaces : List String) (fields : List Field) :
    List Reference :=
  interfaces.map (fun name => ⟨name, .interfaces type⟩) ++ fields.flatMap (fieldReferences type)

/-- The references of a type. -/
def typeReferences (t : TypeDefinition) : List Reference :=
  match t.body with
  | .object interfaces fields | .interface interfaces fields =>
    compositeReferences t.name interfaces fields
  | .union members => members.map fun name => ⟨name, .members t.name⟩
  | .inputObject _ fields => fields.map fun f => ⟨f.type.innermost, .inputField t.name f.name⟩
  | .scalar _ | .enum _ => []

/-- The references of a directive. -/
def directiveReferences (d : Directive) : List Reference :=
  d.arguments.map fun a => ⟨a.type.innermost, .directiveArgument d.name a.name⟩

/-- The references of the root types. -/
def rootReferences (s : Schema) : List Reference :=
  Operation.all.filterMap fun operation =>
    (s.root operation).map fun name => ⟨name, .root operation⟩

/-- All references of a schema. -/
def references (s : Schema) : List Reference :=
  rootReferences s ++ s.types.toList.flatMap typeReferences ++
    s.directives.flatMap directiveReferences

/-- Checks one reference. -/
def checkReference (types : TypeTable) (r : Reference) : Except PrintError Unit :=
  match types.find? r.name with
  | none => .error (.unresolved r.name r.site)
  | some t =>
    match r.site with
    | .root operation =>
      if t.kind = .object then .ok () else .error (.rootNotObject operation r.name)
    | .interfaces type =>
      if t.kind = .interface then .ok () else .error (.notInterface type r.name)
    | _ => .ok ()

/-- Checks all references and reports the first that fails. -/
def checkReferences (s : Schema) : Except PrintError Unit :=
  (references s).forM (checkReference s.types)

end IntrospectSdl.Sdl
