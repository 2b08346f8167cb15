import IntrospectSdl.Json.Value
import IntrospectSdl.Number.Style
import IntrospectSdl.Text.Quoted

/-! # Faults of shape

What is wrong with a JSON value that is not the record it should be. -/

namespace IntrospectSdl.Introspection

open IntrospectSdl.Json (Value Number)

/-- Whether a value is read inside a type. The whole of a type is set aside until its kind is known,
and what is then read from it reports some faults in other words. -/
inductive Setting where
  | plain
  | insideType
deriving DecidableEq, Repr

/-- A value that was found, as far as messages tell it. -/
inductive Found where
  | null
  | bool (value : Bool)
  | number (value : Number)
  | string (value : String)
  | sequence
  | map
deriving DecidableEq, Repr

/-- What messages tell of a value. -/
def Found.of : Value → Found
  | .null => .null
  | .bool value => .bool value
  | .number value => .number value
  | .string value => .string value
  | .array _ => .sequence
  | .object _ => .map

/-- Numbers in messages are written out from `0.00001` to sixteen digits before the point, whole
ones with `.0`, and an exponent always has its sign. -/
def numberStyle : Number.Style := ⟨-5, 15, ['.', '0'], ['e'], ['+']⟩

/-- A truth value in words. -/
def flagText (flag : Bool) : String := if flag then "true" else "false"

/-- The value in words. -/
def Found.text : Found → String
  | .null => "null"
  | .bool value => s!"boolean `{flagText value}`"
  | .number (.integer value) => s!"integer `{value}`"
  | .number (.real value) => s!"floating point `{numberStyle.write value}`"
  | .string value => s!"string {Text.quoted value}"
  | .sequence => "sequence"
  | .map => "map"

/-- What was wanted. -/
inductive Wanted where
  | string
  | boolean
  | sequence
  | record (name : String)
  | type
  | typeKind
  | refKind
  | nothing
deriving DecidableEq, Repr

/-- What was wanted, in words. -/
def Wanted.text : Wanted → String
  | .string => "a string"
  | .boolean => "a boolean"
  | .sequence => "a sequence"
  | .record name => s!"struct {name}"
  | .type => "internally tagged enum IntrospectionType"
  | .typeKind => "variant identifier"
  | .refKind => "string or map"
  | .nothing => "unit"

/-- What is wrong with a value. -/
inductive ShapeError where
  | wrongType (found : Found) (wanted : Wanted)
  | missingField (key : String)
  | unknownKind (name : String) (known : List String)
  | tooFew (count : Nat) (record : String) (size : Nat)
  | tooMany (count : Nat) (size : Nat) (setting : Setting)
  | notOneKey
deriving DecidableEq, Repr

/-- A count of elements in words. -/
def elementsText (count : Nat) : String := if count = 1 then "1 element" else s!"{count} elements"

/-- Names in backquotes, separated by commas. -/
def namesText (names : List String) : String := ", ".intercalate (names.map fun n => s!"`{n}`")

/-- The error in words. -/
def ShapeError.message : ShapeError → String
  | .wrongType found wanted => s!"invalid type: {found.text}, expected {wanted.text}"
  | .missingField key => s!"missing field `{key}`"
  | .unknownKind name known =>
    s!"unknown variant `{name}`, expected one of {namesText known}"
  | .tooFew count record size =>
    s!"invalid length {count}, expected struct {record} with {elementsText size}"
  | .tooMany count size .insideType =>
    s!"invalid length {count}, expected {elementsText size} in sequence"
  | .tooMany count _ .plain => s!"invalid length {count}, expected fewer elements in array"
  | .notOneKey => "invalid value: map, expected map with a single key"

end IntrospectSdl.Introspection
