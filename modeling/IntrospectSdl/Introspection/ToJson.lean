import IntrospectSdl.Introspection.KindName
import IntrospectSdl.Json.Value

/-! # Writing payloads

The records of a payload as JSON values. Every key is written, and what is absent is null. -/

namespace IntrospectSdl.Introspection

open IntrospectSdl.Json (Value)

/-- A record that names a type. -/
def namedJson (name : String) : Value := .object [("name", .string name)]

/-- A string, or null. -/
def textJson (text : Option String) : Value := .ofOption .string text

/-- A boolean, or null. -/
def flagJson (flag : Option Bool) : Value := .ofOption .bool flag

/-- A type reference. -/
def TypeRefRecord.toJson : TypeRefRecord → Value
  | .last kind name =>
    .object [("kind", .string kind.payloadName), ("name", textJson name), ("ofType", .null)]
  | .around kind name ofType =>
    .object [("kind", .string kind.payloadName), ("name", textJson name), ("ofType", ofType.toJson)]

/-- An argument or an input field. -/
def InputValueRecord.toJson (r : InputValueRecord) : Value :=
  .object [("name", .string r.name), ("description", textJson r.description),
    ("type", r.type.toJson), ("defaultValue", textJson r.defaultValue),
    ("isDeprecated", flagJson r.isDeprecated), ("deprecationReason", textJson r.deprecationReason)]

/-- A field. -/
def FieldRecord.toJson (r : FieldRecord) : Value :=
  .object [("name", .string r.name), ("description", textJson r.description),
    ("args", .ofList InputValueRecord.toJson r.args), ("type", r.type.toJson),
    ("isDeprecated", .bool r.isDeprecated), ("deprecationReason", textJson r.deprecationReason)]

/-- An enumeration value. -/
def EnumValueRecord.toJson (r : EnumValueRecord) : Value :=
  .object [("name", .string r.name), ("description", textJson r.description),
    ("isDeprecated", .bool r.isDeprecated), ("deprecationReason", textJson r.deprecationReason)]

/-- The members that tell what a type consists of. -/
def TypeRecordBody.members : TypeRecordBody → List (String × Value)
  | .scalar specifiedByURL => [("specifiedByURL", textJson specifiedByURL)]
  | .object fields interfaces =>
    [("fields", .ofList FieldRecord.toJson fields), ("interfaces", .ofList namedJson interfaces)]
  | .interface fields interfaces =>
    [("fields", .ofList FieldRecord.toJson fields),
      ("interfaces", .ofOption (.ofList namedJson) interfaces)]
  | .union possibleTypes => [("possibleTypes", .ofList namedJson possibleTypes)]
  | .enum enumValues => [("enumValues", .ofList EnumValueRecord.toJson enumValues)]
  | .inputObject inputFields isOneOf =>
    [("inputFields", .ofList InputValueRecord.toJson inputFields), ("isOneOf", flagJson isOneOf)]

/-- A type. -/
def TypeRecord.toJson (r : TypeRecord) : Value :=
  .object (("kind", .string r.kind.payloadName) :: ("name", .string r.name) ::
    ("description", textJson r.description) :: r.body.members)

/-- A directive. -/
def DirectiveRecord.toJson (r : DirectiveRecord) : Value :=
  .object [("name", .string r.name), ("description", textJson r.description),
    ("isRepeatable", flagJson r.isRepeatable), ("locations", .ofList .string r.locations),
    ("args", .ofList InputValueRecord.toJson r.args)]

/-- A schema. -/
def SchemaRecord.toJson (r : SchemaRecord) : Value :=
  .object [("description", textJson r.description), ("queryType", .ofOption namedJson r.queryType),
    ("mutationType", .ofOption namedJson r.mutationType),
    ("subscriptionType", .ofOption namedJson r.subscriptionType),
    ("types", .ofList TypeRecord.toJson r.types),
    ("directives", .ofOption (.ofList DirectiveRecord.toJson) r.directives)]

/-- The data of an answer. -/
def Data.toJson (r : Data) : Value := .object [("__schema", r.schema.toJson)]

/-- An answer. -/
def Payload.toJson (r : Payload) : Value := .object [("data", r.data.toJson)]

end IntrospectSdl.Introspection
