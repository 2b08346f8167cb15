import IntrospectSdl.Introspection.FromJson
import IntrospectSdl.Introspection.ToJson

/-! # The wire format: structures

A payload is made of structures: records, which are told by their keys, and the kinds of references,
which are told by their names. Each has a reader and a writer (`Structure.read`,
`Structure.write`). What a record is read as depends on nothing but the values under its keys, which
are looked up in the same way in an object and in an array (`Slots.value?`). -/

namespace IntrospectSdl.Proofs.Wire.Structures

open IntrospectSdl.Introspection
open IntrospectSdl.Json (Value)

/-- The structures of a payload. -/
inductive Structure where
  | payload
  | data
  | schema
  | root
  | type
  | field
  | inputValue
  | enumValue
  | directive
  | typeRef
  | kind
deriving DecidableEq, Repr

namespace Structure

/-- What a structure stands for. -/
abbrev Carrier : Structure → Type
  | .payload => Payload
  | .data => Data
  | .schema => SchemaRecord
  | .root => String
  | .type => TypeRecord
  | .field => FieldRecord
  | .inputValue => InputValueRecord
  | .enumValue => EnumValueRecord
  | .directive => DirectiveRecord
  | .typeRef => TypeRefRecord
  | .kind => RefKind

/-- Reads a structure. -/
abbrev read (setting : Setting) : (s : Structure) → Value → Except ShapeError s.Carrier
  | .payload => Payload.read
  | .data => Data.read
  | .schema => SchemaRecord.read
  | .root => readNamed setting
  | .type => TypeRecord.read
  | .field => FieldRecord.read setting
  | .inputValue => InputValueRecord.read setting
  | .enumValue => EnumValueRecord.read setting
  | .directive => DirectiveRecord.read
  | .typeRef => TypeRefRecord.read setting
  | .kind => RefKind.read setting

/-- Writes a structure. -/
abbrev write : (s : Structure) → s.Carrier → Value
  | .payload => Payload.toJson
  | .data => Data.toJson
  | .schema => SchemaRecord.toJson
  | .root => namedJson
  | .type => TypeRecord.toJson
  | .field => FieldRecord.toJson
  | .inputValue => InputValueRecord.toJson
  | .enumValue => EnumValueRecord.toJson
  | .directive => DirectiveRecord.toJson
  | .typeRef => TypeRefRecord.toJson
  | .kind => fun kind => .string kind.payloadName

end Structure

/-! ### Members of objects and arrays -/

/-- The value under a key of an object. -/
def lookup (key : String) (members : List (String × Value)) : Option Value :=
  (members.find? (·.1 == key)).map Prod.snd

@[simp] theorem lookup_nil (key : String) : lookup key [] = none := rfl

@[simp] theorem lookup_cons (key name : String) (v : Value) (members : List (String × Value)) :
    lookup key ((name, v) :: members) = if name = key then some v else lookup key members := by
  rw [lookup, List.find?_cons]
  by_cases h : name = key
  · simp [h]
  · rw [if_neg h, beq_eq_false_iff_ne.mpr h]
    rfl

theorem lookup_append (key : String) (a b : List (String × Value)) :
    lookup key (a ++ b) = (lookup key a).or (lookup key b) := by
  rw [lookup, List.find?_append, lookup, lookup]
  cases a.find? (·.1 == key) <;> rfl

@[simp] theorem value?_ofMembers (key : String) (members : List (String × Value)) :
    (Slots.ofMembers members).value? key = lookup key members := rfl

@[simp] theorem form_ofMembers (members : List (String × Value)) :
    (Slots.ofMembers members).form = .object := rfl

@[simp] theorem value?_ofItems (shape : Shape) (key : String) (items : List Value) :
    (Slots.ofItems shape items).value? key = lookup key (shape.keys.zip items) := rfl

@[simp] theorem form_ofItems (shape : Shape) (items : List Value) :
    (Slots.ofItems shape items).form = .array items.length := rfl

@[simp] theorem slots_object (shape : Shape) (members : List (String × Value)) :
    shape.slots (.object members) = .ok (.ofMembers members) := rfl

@[simp] theorem slots_array (shape : Shape) (items : List Value) :
    shape.slots (.array items) = .ok (.ofItems shape items) := rfl

theorem read_typeRef_eq (setting : Setting) (v : Value) : TypeRefRecord.read setting v = (do
    let slots ← typeRefShape.slots v
    typeRefShape.finish setting slots.form <|
      TypeRefRecord.link <$> slots.required "kind" (RefKind.read setting)
        <*> slots.nullable "name" readText
        <*> slots.nullable "ofType" (TypeRefRecord.read setting)) := by
  rw [TypeRefRecord.read]
  rfl

theorem read_type_object (members : List (String × Value)) :
    TypeRecord.read (.object members) =
      match lookup "kind" members with
      | none => .error (.missingField "kind")
      | some tag => readTypeKind tag >>= fun kind =>
        TypeRecord.readAs kind (.ofMembers members) := by
  rw [TypeRecord.read, ← value?_ofMembers, ← Slots.map_val_member?]
  cases (Slots.ofMembers members).member? "kind" <;> rfl

end IntrospectSdl.Proofs.Wire.Structures
