import IntrospectSdl.Proofs.Chains
import IntrospectSdl.Proofs.Wire.Structures

/-! # The wire format: what is written can be read

Every structure is read as what it was written from (`read_write`): for a record, each member is
found under its key, and null where nothing was to be written. -/

namespace IntrospectSdl.Proofs.Wire.RoundTrip

open IntrospectSdl.Introspection IntrospectSdl.Proofs.Chains
open IntrospectSdl.Proofs.Wire.Structures
open IntrospectSdl.Json (Value)

/-! ### Members -/

section

variable {α β : Type} {key : String} {reader : Value → Except ShapeError α}

@[simp] theorem read_ok (a : α) : Slots.read key (.ok a) = .ok a := rfl

@[simp] theorem map_ok (f : α → β) (a : α) : (f <$> Reading.ok a) = .ok (f a) := rfl

@[simp] theorem seq_ok (f : α → β) (a : α) : (Reading.ok f <*> Reading.ok a) = .ok (f a) := rfl

@[simp] theorem finish_object (shape : Shape) (setting : Setting) (a : α) :
    shape.finish setting .object (.ok a) = .ok a := rfl

@[simp] theorem orNull_null (result : Except ShapeError α) :
    Slots.orNull .null result = .ok none := rfl

theorem orNull_ofOption {encode : α → Value} (hr : ∀ a, reader (encode a) = .ok a)
    (hnull : ∀ a, encode a ≠ .null) (o : Option α) :
    Slots.orNull (.ofOption encode o) (reader (.ofOption encode o)) = .ok o := by
  cases o with
  | none => rfl
  | some a =>
    rw [Value.ofOption, hr, Slots.orNull.eq_2 _ _ (hnull a)]
    rfl

theorem readList_ofList {encode : α → Value} (hr : ∀ a, reader (encode a) = .ok a) (l : List α) :
    readList reader (.ofList encode l) = .ok l :=
  mapM_map_eq_ok fun a _ => hr a

end

@[simp] theorem readText_string (text : String) : readText (.string text) = .ok text := rfl

@[simp] theorem readFlag_bool (flag : Bool) : readFlag (.bool flag) = .ok flag := rfl

@[simp] theorem orNull_textJson (text : Option String) :
    Slots.orNull (textJson text) (readText (textJson text)) = .ok text :=
  orNull_ofOption readText_string (fun _ => Value.noConfusion) text

@[simp] theorem orNull_flagJson (flag : Option Bool) :
    Slots.orNull (flagJson flag) (readFlag (flagJson flag)) = .ok flag :=
  orNull_ofOption readFlag_bool (fun _ => Value.noConfusion) flag

/-! ### Structures -/

@[simp] theorem read_root (setting : Setting) (name : String) :
    readNamed setting (namedJson name) = .ok name := rfl

@[simp] theorem read_kind (setting : Setting) (kind : RefKind) :
    RefKind.read setting (.string kind.payloadName) = .ok kind := by
  rw [RefKind.read, RefKind.read.named, RefKind.ofPayloadName?_payloadName]

@[simp] theorem bind_ok {α β ε : Type} (a : α) (f : α → Except ε β) :
    (Except.ok a >>= f) = f a := rfl

@[simp] theorem read_typeRef (setting : Setting) (r : TypeRefRecord) :
    TypeRefRecord.read setting r.toJson = .ok r := by
  induction r with
  | last kind name =>
    rw [TypeRefRecord.toJson, read_typeRef_eq]
    simp [Slots.required_eq, Slots.nullable_eq, TypeRefRecord.link]
  | around kind name ofType ih =>
    have hlink : Slots.orNull ofType.toJson (TypeRefRecord.read setting ofType.toJson) =
        .ok (some ofType) := by
      rw [ih]
      cases ofType <;> rfl
    rw [TypeRefRecord.toJson, read_typeRef_eq]
    simp [Slots.required_eq, Slots.nullable_eq, hlink, TypeRefRecord.link]

@[simp] theorem read_inputValue (setting : Setting) (r : InputValueRecord) :
    InputValueRecord.read setting r.toJson = .ok r := by
  simp [InputValueRecord.read, InputValueRecord.toJson, Slots.required_eq, Slots.nullable_eq,
    Slots.optional_eq]

@[simp] theorem read_field (setting : Setting) (r : FieldRecord) :
    FieldRecord.read setting r.toJson = .ok r := by
  simp [FieldRecord.read, FieldRecord.toJson, Slots.required_eq, Slots.nullable_eq,
    readList_ofList (read_inputValue setting)]

@[simp] theorem read_enumValue (setting : Setting) (r : EnumValueRecord) :
    EnumValueRecord.read setting r.toJson = .ok r := by
  simp [EnumValueRecord.read, EnumValueRecord.toJson, Slots.required_eq, Slots.nullable_eq]

theorem orNull_roots (setting : Setting) (names : Option (List String)) :
    Slots.orNull (.ofOption (.ofList namedJson) names)
      (readList (readNamed setting) (.ofOption (.ofList namedJson) names)) = .ok names :=
  orNull_ofOption (readList_ofList (read_root setting)) (fun _ => Value.noConfusion) names

theorem readBody_members (name description kind : Value) (body : TypeRecordBody) :
    TypeRecordBody.read (.ofMembers (("kind", kind) :: ("name", name) ::
      ("description", description) :: body.members)) body.kind = .ok body := by
  cases body with
  | scalar url => simp [TypeRecordBody.read, TypeRecordBody.kind, TypeRecordBody.members,
      Slots.optional_eq]
  | object fields interfaces => simp [TypeRecordBody.read, TypeRecordBody.kind,
      TypeRecordBody.members, Slots.required_eq, readList_ofList (read_field .insideType),
      readList_ofList (read_root .insideType)]
  | interface fields interfaces => simp [TypeRecordBody.read, TypeRecordBody.kind,
      TypeRecordBody.members, Slots.required_eq, Slots.optional_eq,
      readList_ofList (read_field .insideType), orNull_roots]
  | union members => simp [TypeRecordBody.read, TypeRecordBody.kind, TypeRecordBody.members,
      Slots.required_eq, readList_ofList (read_root .insideType)]
  | enum values => simp [TypeRecordBody.read, TypeRecordBody.kind, TypeRecordBody.members,
      Slots.required_eq, readList_ofList (read_enumValue .insideType)]
  | inputObject fields isOneOf => simp [TypeRecordBody.read, TypeRecordBody.kind,
      TypeRecordBody.members, Slots.required_eq, Slots.optional_eq,
      readList_ofList (read_inputValue .insideType)]

/-- **A type of any kind.** -/
@[simp] theorem read_type (r : TypeRecord) : TypeRecord.read r.toJson = .ok r := by
  obtain ⟨name, description, body⟩ := r
  have hkind : readTypeKind (.string body.kind.payloadName) = .ok body.kind := by
    rw [readTypeKind, TypeKind.ofPayloadName?_payloadName]
  rw [TypeRecord.toJson, read_type_object]
  simp [TypeRecord.kind, hkind, TypeRecord.readAs, Slots.required_eq, Slots.nullable_eq,
    readBody_members]

@[simp] theorem read_directive (r : DirectiveRecord) :
    DirectiveRecord.read r.toJson = .ok r := by
  simp [DirectiveRecord.read, DirectiveRecord.toJson, Slots.required_eq, Slots.nullable_eq,
    Slots.optional_eq, readList_ofList readText_string, readList_ofList (read_inputValue .plain)]

@[simp] theorem read_schema (r : SchemaRecord) : SchemaRecord.read r.toJson = .ok r := by
  have hroot : ∀ name : Option String, Slots.orNull (.ofOption namedJson name)
      (readNamed .plain (.ofOption namedJson name)) = .ok name :=
    orNull_ofOption (read_root .plain) fun _ => Value.noConfusion
  have hdirectives : Slots.orNull (.ofOption (.ofList DirectiveRecord.toJson) r.directives)
      (readList DirectiveRecord.read (.ofOption (.ofList DirectiveRecord.toJson) r.directives)) =
        .ok r.directives :=
    orNull_ofOption (readList_ofList read_directive) (fun _ => Value.noConfusion) _
  simp [SchemaRecord.read, SchemaRecord.toJson, Slots.required_eq, Slots.nullable_eq,
    Slots.optional_eq, hroot, hdirectives, readList_ofList read_type]

@[simp] theorem read_data (r : Data) : Data.read r.toJson = .ok r := by
  simp [Data.read, Data.toJson, Slots.required_eq]

@[simp] theorem read_payload (r : Payload) : Payload.read r.toJson = .ok r := by
  simp [Payload.read, Payload.toJson, Slots.required_eq]

/-- **What is written of a structure is read as the structure.** -/
theorem read_write (setting : Setting) (s : Structure) (w : s.Carrier) :
    s.read setting (s.write w) = .ok w := by
  cases s with
  | payload => exact read_payload w
  | data => exact read_data w
  | schema => exact read_schema w
  | root => exact read_root setting w
  | type => exact read_type w
  | field => exact read_field setting w
  | inputValue => exact read_inputValue setting w
  | enumValue => exact read_enumValue setting w
  | directive => exact read_directive w
  | typeRef => exact read_typeRef setting w
  | kind => exact read_kind setting w

/-! ### Canonical forms -/

/-- The canonical form of a value: what is written of the structure that it is read as. -/
def canonical (setting : Setting) (s : Structure) (v : Value) : Except ShapeError Value :=
  (s.read setting v).map s.write

/-- **Structures make the round trip**, and so every value that is read as a structure has a
canonical form, which is read as the same and is its own canonical form, inside a type or not. -/
theorem read_canonical (setting setting' : Setting) (s : Structure) :
    (∀ w, s.read setting (s.write w) = .ok w) ∧
      ∀ v, (canonical setting s v >>= s.read setting') = s.read setting v ∧
        (canonical setting s v >>= canonical setting' s) = canonical setting s v := by
  refine ⟨read_write setting s, fun v => ?_⟩
  cases hv : s.read setting v with
  | error e => simp [canonical, hv, Except.map, bind, Except.bind]
  | ok w => simp [canonical, hv, Except.map, read_write setting' s w]

/-- Keys in another order, keys that are not known and keys that are absent make no difference. -/
example : canonical .plain .enumValue (.object [("isDeprecated", .bool false), ("new", .bool true),
      ("name", .string "RED"), ("deprecationReason", .null)]) =
    .ok (.object [("name", .string "RED"), ("description", .null), ("isDeprecated", .bool false),
      ("deprecationReason", .null)]) := rfl

end IntrospectSdl.Proofs.Wire.RoundTrip
