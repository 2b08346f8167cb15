import IntrospectSdl.Schema.TypeRef
import IntrospectSdl.Schema.Location

/-! # Definitions

What a type system consists of: types of six kinds with their members, and directives. Members keep
the order in which they were declared. -/

namespace IntrospectSdl

/-- A mark that something should no longer be used, with a reason if one was given. -/
structure Deprecation where
  reason : Option String
deriving DecidableEq, Repr

/-- An argument, or a field of an input object. -/
structure InputValue where
  name : String
  description : Option String
  type : TypeRef
  /-- The default value as a literal, such as `"abc"` or `[1, 2]`. -/
  defaultValue : Option String
  deprecation : Option Deprecation
deriving DecidableEq, Repr

/-- A field of an object or an interface. -/
structure Field where
  name : String
  description : Option String
  arguments : List InputValue
  type : TypeRef
  deprecation : Option Deprecation
deriving DecidableEq, Repr

/-- A value of an enumeration. -/
structure EnumValue where
  name : String
  description : Option String
  deprecation : Option Deprecation
deriving DecidableEq, Repr

/-- The kinds of types. -/
inductive TypeKind where
  | scalar
  | object
  | interface
  | union
  | enum
  | inputObject
deriving DecidableEq, Repr

/-- What a type consists of, by its kind. -/
inductive TypeBody where
  | scalar (specifiedBy : Option String)
  | object (interfaces : List String) (fields : List Field)
  | interface (interfaces : List String) (fields : List Field)
  | union (members : List String)
  | enum (values : List EnumValue)
  | inputObject (oneOf : Bool) (fields : List InputValue)
deriving DecidableEq, Repr

/-- The definition of a named type. -/
structure TypeDefinition where
  name : String
  description : Option String
  body : TypeBody
deriving DecidableEq, Repr

namespace TypeBody

/-- The kind of a type with this body. -/
def kind : TypeBody → TypeKind
  | .scalar _ => .scalar
  | .object _ _ => .object
  | .interface _ _ => .interface
  | .union _ => .union
  | .enum _ => .enum
  | .inputObject _ _ => .inputObject

/-- The interfaces that a type with this body implements. -/
def interfaces : TypeBody → List String
  | .object interfaces _ | .interface interfaces _ => interfaces
  | _ => []

end TypeBody

/-- The kind of the type. -/
def TypeDefinition.kind (t : TypeDefinition) : TypeKind := t.body.kind

/-- The definition of a directive. -/
structure Directive where
  name : String
  description : Option String
  arguments : List InputValue
  repeatable : Bool
  locations : List Location
deriving DecidableEq, Repr

end IntrospectSdl
