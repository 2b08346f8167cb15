import IntrospectSdl.Schema.Definition

/-! # Introspection payloads

What a service answers to an introspection query, record by record. Some keys may be absent or null
because older services do not know them; a payload keeps that apart from an empty list and from
`false`. Where a payload refers to a type by name alone, the name stands here. -/

namespace IntrospectSdl.Introspection

/-- What a type reference says it refers to: a type of some kind, or a wrapping. -/
inductive RefKind where
  | type (kind : TypeKind)
  | list
  | nonNull
deriving DecidableEq, Repr

/-- A type reference as a chain of wrappings, each with a kind and perhaps a name. -/
inductive TypeRefRecord where
  | last (kind : RefKind) (name : Option String)
  | around (kind : RefKind) (name : Option String) (ofType : TypeRefRecord)
deriving DecidableEq, Repr

/-- The kind of the outermost link. -/
def TypeRefRecord.kind : TypeRefRecord → RefKind
  | .last kind _ | .around kind _ _ => kind

/-- A chain with one more link around what may follow it. -/
def TypeRefRecord.link (kind : RefKind) (name : Option String) :
    Option TypeRefRecord → TypeRefRecord
  | none => .last kind name
  | some ofType => .around kind name ofType

/-- An argument, or a field of an input object. -/
structure InputValueRecord where
  name : String
  description : Option String
  type : TypeRefRecord
  defaultValue : Option String
  isDeprecated : Option Bool
  deprecationReason : Option String
deriving DecidableEq, Repr

/-- A field of an object or an interface. -/
structure FieldRecord where
  name : String
  description : Option String
  args : List InputValueRecord
  type : TypeRefRecord
  isDeprecated : Bool
  deprecationReason : Option String
deriving DecidableEq, Repr

/-- A value of an enumeration. -/
structure EnumValueRecord where
  name : String
  description : Option String
  isDeprecated : Bool
  deprecationReason : Option String
deriving DecidableEq, Repr

/-- What a type consists of, by its kind. -/
inductive TypeRecordBody where
  | scalar (specifiedByURL : Option String)
  | object (fields : List FieldRecord) (interfaces : List String)
  | interface (fields : List FieldRecord) (interfaces : Option (List String))
  | union (possibleTypes : List String)
  | enum (enumValues : List EnumValueRecord)
  | inputObject (inputFields : List InputValueRecord) (isOneOf : Option Bool)
deriving DecidableEq, Repr

/-- The kind of a type with this body. -/
def TypeRecordBody.kind : TypeRecordBody → TypeKind
  | .scalar _ => .scalar
  | .object _ _ => .object
  | .interface _ _ => .interface
  | .union _ => .union
  | .enum _ => .enum
  | .inputObject _ _ => .inputObject

/-- A named type. -/
structure TypeRecord where
  name : String
  description : Option String
  body : TypeRecordBody
deriving DecidableEq, Repr

/-- The kind of the type. -/
def TypeRecord.kind (t : TypeRecord) : TypeKind := t.body.kind

/-- A directive. -/
structure DirectiveRecord where
  name : String
  description : Option String
  isRepeatable : Option Bool
  locations : List String
  args : List InputValueRecord
deriving DecidableEq, Repr

/-- A schema. -/
structure SchemaRecord where
  description : Option String
  queryType : Option String
  mutationType : Option String
  subscriptionType : Option String
  types : List TypeRecord
  directives : Option (List DirectiveRecord)
deriving DecidableEq, Repr

/-- The data of an answer. -/
structure Data where
  schema : SchemaRecord
deriving DecidableEq, Repr

/-- An answer to an introspection query. -/
structure Payload where
  data : Data
deriving DecidableEq, Repr

end IntrospectSdl.Introspection
