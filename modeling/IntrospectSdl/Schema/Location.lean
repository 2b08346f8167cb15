/-! # Directive locations

The nineteen places at which a directive can be used, and their names. -/

namespace IntrospectSdl

/-- A place at which a directive can be used. -/
inductive Location where
  | query
  | mutation
  | subscription
  | field
  | fragmentDefinition
  | fragmentSpread
  | inlineFragment
  | variableDefinition
  | schema
  | scalar
  | object
  | fieldDefinition
  | argumentDefinition
  | interface
  | union
  | enum
  | enumValue
  | inputObject
  | inputFieldDefinition
deriving DecidableEq, Repr

namespace Location

/-- The name of the location. -/
def name : Location → String
  | .query => "QUERY"
  | .mutation => "MUTATION"
  | .subscription => "SUBSCRIPTION"
  | .field => "FIELD"
  | .fragmentDefinition => "FRAGMENT_DEFINITION"
  | .fragmentSpread => "FRAGMENT_SPREAD"
  | .inlineFragment => "INLINE_FRAGMENT"
  | .variableDefinition => "VARIABLE_DEFINITION"
  | .schema => "SCHEMA"
  | .scalar => "SCALAR"
  | .object => "OBJECT"
  | .fieldDefinition => "FIELD_DEFINITION"
  | .argumentDefinition => "ARGUMENT_DEFINITION"
  | .interface => "INTERFACE"
  | .union => "UNION"
  | .enum => "ENUM"
  | .enumValue => "ENUM_VALUE"
  | .inputObject => "INPUT_OBJECT"
  | .inputFieldDefinition => "INPUT_FIELD_DEFINITION"

/-- All locations. -/
def all : List Location :=
  [.query, .mutation, .subscription, .field, .fragmentDefinition, .fragmentSpread, .inlineFragment,
    .variableDefinition, .schema, .scalar, .object, .fieldDefinition, .argumentDefinition,
    .interface, .union, .enum, .enumValue, .inputObject, .inputFieldDefinition]

/-- The location of a name. -/
def ofName? (name : String) : Option Location := all.find? (·.name == name)

theorem mem_all (l : Location) : l ∈ all := by cases l <;> decide

@[simp] theorem ofName?_name (l : Location) : ofName? l.name = some l := by cases l <;> decide

theorem name_of_ofName? {name : String} {l : Location} (h : ofName? name = some l) :
    l.name = name := by
  simpa using List.find?_some h

/-- What is said about a name that no location has. -/
def unknownText (name : String) : String := s!"unknown directive location `{name}`"

end Location

end IntrospectSdl
