import IntrospectSdl.Introspection.Import

/-! # Import: the violations of a payload

What is wrong with a payload can be listed without importing it (`violations`): each name and each
reference is looked at by itself, whatever was found before it. Names of types are declared by the
first type that has them. A reference has at most one violation, which is that of its outermost
faulty wrapping, or else of its end. -/

namespace IntrospectSdl.Proofs.Import.Violations

open IntrospectSdl.Introspection

/-! ### Names and references -/

/-- Types whose names earlier types have. -/
def duplicates : List String → List TypeRecord → List ImportError
  | _, [] => []
  | earlier, t :: types =>
    (if t.name ∈ earlier then [.duplicateType t.name] else []) ++
      duplicates (t.name :: earlier) types

/-- The kind of the first type of a name. -/
def declaredKind (types : List TypeRecord) (name : String) : Option TypeKind :=
  (types.find? (·.name == name)).map TypeRecord.kind

section

variable (kindOf : String → Option TypeKind)

/-- A name that should be that of a type of one kind. -/
def nameViolations (site : Site) (wanted : TypeKind) (name : String) : List ImportError :=
  match kindOf name with
  | none => [.unknownType name site]
  | some found => if found = wanted then [] else [.wrongKind site wanted name found]

/-- The links of a reference that wrap another, from the outside. A link to a named type is the end
of the reference. -/
def wrappings : TypeRefRecord → List TypeRefRecord
  | .last (.type _) _ | .around (.type _) _ _ => []
  | .last .list name => [.last .list name]
  | .last .nonNull name => [.last .nonNull name]
  | .around .list name ofType => .around .list name ofType :: wrappings ofType
  | .around .nonNull name ofType => .around .nonNull name ofType :: wrappings ofType

/-- The name at the end of a reference. -/
def innermostName : TypeRefRecord → Option String
  | .last _ name | .around (.type _) name _ => name
  | .around .list _ ofType | .around .nonNull _ ofType => innermostName ofType

/-- What is wrong with a wrapping, whatever is inside. -/
def wrappingViolation (site : Site) : TypeRefRecord → Option ImportError
  | .last .list _ => some (.listWithoutItem site)
  | .last .nonNull _ => some (.nonNullWithoutType site)
  | .around .nonNull _ ofType => if ofType.kind = .nonNull then some (.doubleNonNull site) else none
  | .last (.type _) _ | .around (.type _) _ _ | .around .list _ _ => none

/-- The kinds of types that cannot be used so. -/
def forbidden : Usage → List TypeKind
  | .output => [.inputObject]
  | .input => [.object, .interface, .union]

/-- What is wrong with the name at the end of a reference. -/
def innermostViolation (usage : Usage) (site : Site) : Option String → Option ImportError
  | none => some (.unnamedType site)
  | some name =>
    match kindOf name with
    | none => some (.unknownType name site)
    | some found =>
      if found ∈ forbidden usage then some (.wrongUsage site usage name found) else none

/-- What is wrong with a reference: its outermost faulty wrapping, or else its end. -/
def refViolation (usage : Usage) (site : Site) (r : TypeRefRecord) : Option ImportError :=
  ((wrappings r).findSome? (wrappingViolation site)).or
    (innermostViolation kindOf usage site (innermostName r))

/-! ### Definitions -/

/-- Arguments or input fields of which the types are wrong. -/
def inputViolations (site : String → Site) (values : List InputValueRecord) : List ImportError :=
  values.flatMap fun v => (refViolation kindOf .input (site v.name) v.type).toList

/-- Arguments of a field, and then the type of the field itself. -/
def fieldViolations (type : String) (f : FieldRecord) : List ImportError :=
  inputViolations kindOf (.argument type f.name ·) f.args ++
    (refViolation kindOf .output (.field type f.name) f.type).toList

/-- Interfaces or members, and then fields. -/
def typeViolations (t : TypeRecord) : List ImportError :=
  match t.body with
  | .scalar _ | .enum _ => []
  | .object fields interfaces =>
    interfaces.flatMap (nameViolations kindOf (.interfaces t.name) .interface) ++
      fields.flatMap (fieldViolations kindOf t.name)
  | .interface fields interfaces =>
    (interfaces.getD []).flatMap (nameViolations kindOf (.interfaces t.name) .interface) ++
      fields.flatMap (fieldViolations kindOf t.name)
  | .union members => members.flatMap (nameViolations kindOf (.members t.name) .object)
  | .inputObject fields _ => inputViolations kindOf (.inputField t.name ·) fields

/-- A text that is the name of no location. -/
def locationViolations (directive location : String) : List ImportError :=
  if location ∈ Location.all.map Location.name then [] else [.unknownLocation location directive]

/-- Locations, and then arguments. -/
def directiveViolations (d : DirectiveRecord) : List ImportError :=
  d.locations.flatMap (locationViolations d.name) ++
    inputViolations kindOf (.directiveArgument d.name ·) d.args

/-- A root type that is no object. -/
def rootViolations (operation : Operation) (name : Option String) : List ImportError :=
  name.toList.flatMap (nameViolations kindOf (.root operation) .object)

end

/-- **All violations of a payload**, in order. -/
def violations (p : Payload) : List ImportError :=
  let s := p.data.schema
  let kindOf := declaredKind s.types
  duplicates [] s.types ++ rootViolations kindOf .query s.queryType ++
    rootViolations kindOf .mutation s.mutationType ++
    rootViolations kindOf .subscription s.subscriptionType ++
    s.types.flatMap (typeViolations kindOf) ++
    (s.directives.getD []).flatMap (directiveViolations kindOf)

end IntrospectSdl.Proofs.Import.Violations
