import Std.Data.ExtTreeMap
import IntrospectSdl.Introspection.Payload
import IntrospectSdl.Introspection.ImportError

/-! # From a payload to a schema

A payload becomes a schema if every reference in it resolves: to a declared type, of a kind that can
stand there. The first violation is reported. Types are looked at in order, interfaces before fields
and the arguments of a field before its own type; directives come last, locations before arguments.
-/

namespace IntrospectSdl.Introspection

/-- The kinds of the declared types. -/
abbrev Kinds := Std.ExtTreeMap String TypeKind

/-- Adds a type to the declared ones, unless there is one of its name. -/
def declare (kinds : Kinds) (t : TypeRecord) : Except ImportError Kinds :=
  if kinds.contains t.name then .error (.duplicateType t.name) else .ok (kinds.insert t.name t.kind)

/-- The kinds of all types of a payload, each of which may be declared only once. -/
def declareAll (types : List TypeRecord) : Except ImportError Kinds := types.foldlM declare ∅

/-- A member is deprecated if it says so or has a reason. -/
def deprecation (isDeprecated : Bool) (reason : Option String) : Option Deprecation :=
  if isDeprecated || reason.isSome then some ⟨reason⟩ else none

section

variable (kinds : Kinds)

/-- The kind of a type that is referred to. -/
def resolve (site : Site) (name : String) : Except ImportError TypeKind :=
  match kinds[name]? with
  | some kind => .ok kind
  | none => .error (.unknownType name site)

/-- A name that has to refer to a type of one kind. -/
def importName (site : Site) (wanted : TypeKind) (name : String) : Except ImportError String := do
  let found ← resolve kinds site name
  if found = wanted then return name else .error (.wrongKind site wanted name found)

/-- The name at the end of a chain. -/
def importInnermost (usage : Usage) (site : Site) (name : Option String) :
    Except ImportError TypeRef := do
  match name with
  | none => .error (.unnamedType site)
  | some name =>
    let found ← resolve kinds site name
    if usage.allows found then return .named name else .error (.wrongUsage site usage name found)

/-- A type reference. What may not be null is not wrapped so again, and whatever a link to a named
type holds is the end of the chain. -/
def importRef (usage : Usage) (site : Site) : TypeRefRecord → Except ImportError TypeRef
  | .last .list _ => .error (.listWithoutItem site)
  | .last .nonNull _ => .error (.nonNullWithoutType site)
  | .last (.type _) name | .around (.type _) name _ => importInnermost kinds usage site name
  | .around .list _ ofType => return .list (← importRef usage site ofType)
  | .around .nonNull _ ofType => do
    if ofType.kind = .nonNull then .error (.doubleNonNull site)
    else return .nonNull (← importRef usage site ofType)

/-- An argument or an input field. -/
def importInputValue (site : Site) (v : InputValueRecord) : Except ImportError InputValue := do
  let type ← importRef kinds .input site v.type
  return ⟨v.name, v.description, type, v.defaultValue,
    deprecation (v.isDeprecated.getD false) v.deprecationReason⟩

/-- A field of a type. -/
def importField (type : String) (f : FieldRecord) : Except ImportError Field := do
  let arguments ← f.args.mapM fun a => importInputValue kinds (.argument type f.name a.name) a
  let ref ← importRef kinds .output (.field type f.name) f.type
  return ⟨f.name, f.description, arguments, ref, deprecation f.isDeprecated f.deprecationReason⟩

/-- An enumeration value. -/
def importEnumValue (v : EnumValueRecord) : EnumValue :=
  ⟨v.name, v.description, deprecation v.isDeprecated v.deprecationReason⟩

/-- What a type consists of. -/
def importBody (type : String) : TypeRecordBody → Except ImportError TypeBody
  | .scalar url => return .scalar url
  | .object fields interfaces => do
    let interfaces ← interfaces.mapM (importName kinds (.interfaces type) .interface)
    return .object interfaces (← fields.mapM (importField kinds type))
  | .interface fields interfaces => do
    let interfaces ← (interfaces.getD []).mapM (importName kinds (.interfaces type) .interface)
    return .interface interfaces (← fields.mapM (importField kinds type))
  | .union possibleTypes =>
    return .union (← possibleTypes.mapM (importName kinds (.members type) .object))
  | .enum values => return .enum (values.map importEnumValue)
  | .inputObject fields isOneOf => do
    let fields ← fields.mapM fun f => importInputValue kinds (.inputField type f.name) f
    return .inputObject (isOneOf.getD false) fields

/-- A type. -/
def importType (t : TypeRecord) : Except ImportError TypeDefinition :=
  return ⟨t.name, t.description, ← importBody kinds t.name t.body⟩

/-- A location of a directive. -/
def importLocation (directive location : String) : Except ImportError Location :=
  match Location.ofName? location with
  | some l => .ok l
  | none => .error (.unknownLocation location directive)

/-- A directive. -/
def importDirective (d : DirectiveRecord) : Except ImportError Directive := do
  let locations ← d.locations.mapM (importLocation d.name)
  let arguments ← d.args.mapM fun a => importInputValue kinds (.directiveArgument d.name a.name) a
  return ⟨d.name, d.description, arguments, d.isRepeatable.getD false, locations⟩

/-- A root type. -/
def importRoot (operation : Operation) (name : Option String) :
    Except ImportError (Option String) :=
  name.mapM (importName kinds (.root operation) .object)

end

/-- The schema of a payload. -/
def Payload.toSchema (p : Payload) : Except ImportError Schema := do
  let record := p.data.schema
  let kinds ← declareAll record.types
  let query ← importRoot kinds .query record.queryType
  let mutation ← importRoot kinds .mutation record.mutationType
  let subscription ← importRoot kinds .subscription record.subscriptionType
  let types ← record.types.mapM (importType kinds)
  let directives ← (record.directives.getD []).mapM (importDirective kinds)
  return ⟨record.description, query, mutation, subscription, .ofList types, directives⟩

end IntrospectSdl.Introspection
