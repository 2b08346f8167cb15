import IntrospectSdl.Introspection.KindName
import IntrospectSdl.Introspection.Record

/-! # Reading payloads

The records of a payload from JSON values. A type is told by its kind, which is a key of the object
or the first item of the array, before the others; all that lies inside a type is read in the
setting `Setting.insideType`. -/

namespace IntrospectSdl.Introspection

open IntrospectSdl.Json (Value)

/-! ### References -/

/-- The record that names a type. -/
def namedShape : Shape := ⟨"IntrospectionTypeRef", ["name"]⟩

/-- Reads a record that names a type. -/
def readNamed (setting : Setting) (v : Value) : Except ShapeError String := do
  let slots ← namedShape.slots v
  namedShape.finish setting slots.form (slots.required "name" readText)

/-- Reads the kind of a reference: its name, or an object with the name as its only key and nothing
under it. -/
def RefKind.read (setting : Setting) : Value → Except ShapeError RefKind
  | .string name => named name
  | .object [(name, content)] => do
    let kind ← named name
    match content, setting with
    | .null, _ | .object [], .insideType => .ok kind
    | content, _ => .error (.wrongType (.of content) .nothing)
  | .object _ => .error .notOneKey
  | v => .error (.wrongType (.of v) .refKind)
where
  /-- The kind of a name. -/
  named (name : String) : Except ShapeError RefKind :=
    match RefKind.ofPayloadName? name with
    | some kind => .ok kind
    | none => .error (.unknownKind name (RefKind.all.map RefKind.payloadName))

/-- A link of a type reference. -/
def typeRefShape : Shape := ⟨"IntrospectionTypeRefFull", ["kind", "name", "ofType"]⟩

/-- Reads a type reference. -/
def TypeRefRecord.read (setting : Setting) (v : Value) : Except ShapeError TypeRefRecord := do
  let slots ← typeRefShape.slots v
  typeRefShape.finish setting slots.form <|
    TypeRefRecord.link <$> slots.required "kind" (RefKind.read setting)
      <*> slots.nullable "name" readText
      <*> slots.nullableWithin "ofType" fun w _ => TypeRefRecord.read setting w
termination_by v

/-! ### Members -/

/-- The record of an argument or an input field. -/
def inputValueShape : Shape :=
  ⟨"IntrospectionInputValue",
    ["name", "description", "type", "defaultValue", "isDeprecated", "deprecationReason"]⟩

/-- Reads an argument or an input field. -/
def InputValueRecord.read (setting : Setting) (v : Value) : Except ShapeError InputValueRecord := do
  let slots ← inputValueShape.slots v
  inputValueShape.finish setting slots.form <|
    InputValueRecord.mk <$> slots.required "name" readText
      <*> slots.nullable "description" readText
      <*> slots.required "type" (TypeRefRecord.read setting)
      <*> slots.nullable "defaultValue" readText
      <*> slots.optional "isDeprecated" readFlag
      <*> slots.optional "deprecationReason" readText

/-- The record of a field. -/
def fieldShape : Shape :=
  ⟨"IntrospectionField",
    ["name", "description", "args", "type", "isDeprecated", "deprecationReason"]⟩

/-- Reads a field. -/
def FieldRecord.read (setting : Setting) (v : Value) : Except ShapeError FieldRecord := do
  let slots ← fieldShape.slots v
  fieldShape.finish setting slots.form <|
    FieldRecord.mk <$> slots.required "name" readText
      <*> slots.nullable "description" readText
      <*> slots.required "args" (readList (InputValueRecord.read setting))
      <*> slots.required "type" (TypeRefRecord.read setting)
      <*> slots.required "isDeprecated" readFlag
      <*> slots.nullable "deprecationReason" readText

/-- The record of an enumeration value. -/
def enumValueShape : Shape :=
  ⟨"IntrospectionEnumValue", ["name", "description", "isDeprecated", "deprecationReason"]⟩

/-- Reads an enumeration value. -/
def EnumValueRecord.read (setting : Setting) (v : Value) : Except ShapeError EnumValueRecord := do
  let slots ← enumValueShape.slots v
  enumValueShape.finish setting slots.form <|
    EnumValueRecord.mk <$> slots.required "name" readText
      <*> slots.nullable "description" readText
      <*> slots.required "isDeprecated" readFlag
      <*> slots.nullable "deprecationReason" readText

/-! ### Types -/

/-- The record of a type, by its kind and without it. -/
def typeShape : TypeKind → Shape
  | .scalar => ⟨"IntrospectionScalarType", ["name", "description", "specifiedByURL"]⟩
  | .object => ⟨"IntrospectionObjectType", ["name", "description", "fields", "interfaces"]⟩
  | .interface => ⟨"IntrospectionInterfaceType", ["name", "description", "fields", "interfaces"]⟩
  | .union => ⟨"IntrospectionUnionType", ["name", "description", "possibleTypes"]⟩
  | .enum => ⟨"IntrospectionEnumType", ["name", "description", "enumValues"]⟩
  | .inputObject =>
    ⟨"IntrospectionInputObjectType", ["name", "description", "inputFields", "isOneOf"]⟩

/-- Reads what a type consists of. -/
def TypeRecordBody.read {size : Nat} (slots : Slots size) : TypeKind → Reading TypeRecordBody
  | .scalar => .scalar <$> slots.optional "specifiedByURL" readText
  | .object =>
    .object <$> slots.required "fields" (readList (FieldRecord.read .insideType))
      <*> slots.required "interfaces" (readList (readNamed .insideType))
  | .interface =>
    .interface <$> slots.required "fields" (readList (FieldRecord.read .insideType))
      <*> slots.optional "interfaces" (readList (readNamed .insideType))
  | .union => .union <$> slots.required "possibleTypes" (readList (readNamed .insideType))
  | .enum => .enum <$> slots.required "enumValues" (readList (EnumValueRecord.read .insideType))
  | .inputObject =>
    .inputObject
      <$> slots.required "inputFields" (readList (InputValueRecord.read .insideType))
      <*> slots.optional "isOneOf" readFlag

/-- Reads a type of a kind from its other members. -/
def TypeRecord.readAs {size : Nat} (kind : TypeKind) (slots : Slots size) :
    Except ShapeError TypeRecord :=
  (typeShape kind).finish .insideType slots.form <|
    TypeRecord.mk <$> slots.required "name" readText
      <*> slots.nullable "description" readText
      <*> TypeRecordBody.read slots kind

/-- Reads the kind of a type. -/
def readTypeKind : Value → Except ShapeError TypeKind
  | .string name =>
    match TypeKind.ofPayloadName? name with
    | some kind => .ok kind
    | none => .error (.unknownKind name (TypeKind.all.map TypeKind.payloadName))
  | v => .error (.wrongType (.of v) .typeKind)

/-- Reads a type. -/
def TypeRecord.read : Value → Except ShapeError TypeRecord
  | .object members => do
    let slots := Slots.ofMembers members
    match slots.member? "kind" with
    | none => .error (.missingField "kind")
    | some tag => TypeRecord.readAs (← readTypeKind tag.1) slots
  | .array [] => .error (.missingField "kind")
  | .array (tag :: items) => do
    let kind ← readTypeKind tag
    TypeRecord.readAs kind (.ofItems (typeShape kind) items)
  | v => .error (.wrongType (.of v) .type)

/-! ### The schema -/

/-- The record of a directive. -/
def directiveShape : Shape :=
  ⟨"IntrospectionDirective", ["name", "description", "isRepeatable", "locations", "args"]⟩

/-- Reads a directive. -/
def DirectiveRecord.read (v : Value) : Except ShapeError DirectiveRecord := do
  let slots ← directiveShape.slots v
  directiveShape.finish .plain slots.form <|
    DirectiveRecord.mk <$> slots.required "name" readText
      <*> slots.nullable "description" readText
      <*> slots.optional "isRepeatable" readFlag
      <*> slots.required "locations" (readList readText)
      <*> slots.required "args" (readList (InputValueRecord.read .plain))

/-- The record of a schema. -/
def schemaShape : Shape :=
  ⟨"IntrospectionSchema",
    ["description", "queryType", "mutationType", "subscriptionType", "types", "directives"]⟩

/-- Reads a schema. -/
def SchemaRecord.read (v : Value) : Except ShapeError SchemaRecord := do
  let slots ← schemaShape.slots v
  schemaShape.finish .plain slots.form <|
    SchemaRecord.mk <$> slots.optional "description" readText
      <*> slots.nullable "queryType" (readNamed .plain)
      <*> slots.optional "mutationType" (readNamed .plain)
      <*> slots.optional "subscriptionType" (readNamed .plain)
      <*> slots.required "types" (readList TypeRecord.read)
      <*> slots.optional "directives" (readList DirectiveRecord.read)

/-- The record of an answer's data. -/
def dataShape : Shape := ⟨"IntrospectionData", ["__schema"]⟩

/-- Reads the data of an answer. -/
def Data.read (v : Value) : Except ShapeError Data := do
  let slots ← dataShape.slots v
  dataShape.finish .plain slots.form (Data.mk <$> slots.required "__schema" SchemaRecord.read)

/-- The record of an answer. -/
def payloadShape : Shape := ⟨"IntrospectionPayload", ["data"]⟩

/-- Reads an answer. -/
def Payload.read (v : Value) : Except ShapeError Payload := do
  let slots ← payloadShape.slots v
  payloadShape.finish .plain slots.form (Payload.mk <$> slots.required "data" Data.read)

end IntrospectSdl.Introspection
