import IntrospectSdl.Introspection.Payload

/-! # Names of kinds

The names under which payloads speak of the kinds of types and of references. -/

namespace IntrospectSdl

/-- The name of a kind of types in payloads. -/
def TypeKind.payloadName : TypeKind → String
  | .scalar => "SCALAR"
  | .object => "OBJECT"
  | .interface => "INTERFACE"
  | .union => "UNION"
  | .enum => "ENUM"
  | .inputObject => "INPUT_OBJECT"

/-- All kinds of types. -/
def TypeKind.all : List TypeKind := [.scalar, .object, .interface, .union, .enum, .inputObject]

/-- The kind of types of a name. -/
def TypeKind.ofPayloadName? (name : String) : Option TypeKind :=
  TypeKind.all.find? (·.payloadName == name)

@[simp] theorem TypeKind.ofPayloadName?_payloadName (k : TypeKind) :
    ofPayloadName? k.payloadName = some k := by cases k <;> decide

namespace Introspection.RefKind

/-- The name of a kind of references in payloads. -/
def payloadName : RefKind → String
  | .type kind => kind.payloadName
  | .list => "LIST"
  | .nonNull => "NON_NULL"

/-- All kinds of references. -/
def all : List RefKind := TypeKind.all.map .type ++ [.list, .nonNull]

/-- The kind of references of a name. -/
def ofPayloadName? (name : String) : Option RefKind := all.find? (·.payloadName == name)

@[simp] theorem ofPayloadName?_payloadName (k : RefKind) :
    ofPayloadName? k.payloadName = some k := by
  cases k with
  | type kind => cases kind <;> decide
  | list => decide
  | nonNull => decide

end Introspection.RefKind

end IntrospectSdl
