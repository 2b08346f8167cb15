import IntrospectSdl.Convert
import IntrospectSdl.Proofs.Wire.Edits

/-! # The wire format: tolerance

Two records with matching members are read alike (`Corresponds`): one lemma for each record. So an
edit, wherever it is made, changes nothing in what a document is read as (`alike_of_edit`), and
neither does any number of them (`read_of_edited`). -/

namespace IntrospectSdl.Proofs.Wire.Tolerance

open IntrospectSdl.Introspection IntrospectSdl.Proofs.Wire.Structures
open IntrospectSdl.Proofs.Wire.Edits
open IntrospectSdl.Json (Value)

/-! ### Matching members -/

/-- Two records of one form with matching members under their keys. -/
structure Corresponds {m n : Nat} (keys : List Key) (slots : Slots m) (slots' : Slots n) :
    Prop where
  form : slots.form = slots'.form
  members : ∀ k ∈ keys, Matches slots.form k (slots.value? k.name) (slots'.value? k.name)

/-- A reader that depends on a value in its role only. -/
def Reads {α : Type} (r : Role) (reader : Value → Except ShapeError α) : Prop :=
  ∀ v v', r.Alike v v' → reader v = reader v'

theorem reads_plain {α : Type} (reader : Value → Except ShapeError α) : Reads .plain reader :=
  fun _ _ h => congrArg reader h.2

section

variable {m n : Nat} {α : Type} {keys : List Key} {slots : Slots m} {slots' : Slots n}
  {r : Role} {reader : Value → Except ShapeError α}
  (h : Corresponds keys slots slots') (name : String) (hr : Reads r reader)
include h hr

theorem Corresponds.required (hk : ⟨name, r, false⟩ ∈ keys) :
    slots.required name reader = slots'.required name reader := by
  have hm := h.members _ hk
  rw [Slots.required_eq, Slots.required_eq]
  generalize slots.value? name = o, slots'.value? name = o' at hm ⊢
  cases hm with
  | absent => rfl
  | present alike => simp only [hr _ _ alike]
  | dropped object optional => cases optional

omit h in
theorem orNull_of_alike {v v' : Value} (alike : r.Alike v v') :
    Slots.orNull v (reader v) = Slots.orNull v' (reader v') := by
  by_cases hv : v = .null
  · rw [hv, alike.1.mp hv]
  · rw [Slots.orNull.eq_2 _ _ hv, Slots.orNull.eq_2 _ _ (mt alike.1.mpr hv), hr _ _ alike]

theorem Corresponds.nullable (hk : ⟨name, r, true⟩ ∈ keys) :
    slots.nullable name reader = slots'.nullable name reader := by
  have hm := h.members _ hk
  rw [Slots.nullable_eq, Slots.nullable_eq, ← h.form]
  generalize slots.value? name = o, slots'.value? name = o' at hm ⊢
  cases hm with
  | absent => rfl
  | present alike => simp only [orNull_of_alike hr alike]
  | dropped object optional =>
    rw [object]
    rfl

theorem Corresponds.optional (hk : ⟨name, r, true⟩ ∈ keys) :
    slots.optional name reader = slots'.optional name reader := by
  have hm := h.members _ hk
  rw [Slots.optional_eq, Slots.optional_eq]
  generalize slots.value? name = o, slots'.value? name = o' at hm ⊢
  cases hm with
  | absent => rfl
  | present alike => simp only [orNull_of_alike hr alike]
  | dropped object optional => rfl

end

/-- Values that are both given as records of a shape, with matching members. -/
def Parallel (shape : Shape) (keys : List Key) (v v' : Value) : Prop :=
  ∃ (slots : Slots (sizeOf v)) (slots' : Slots (sizeOf v')),
    shape.slots v = .ok slots ∧ shape.slots v' = .ok slots' ∧ Corresponds keys slots slots'

/-! ### Records -/

section

variable (setting : Setting)

theorem reads_one (s : Structure) : Reads (.one s) (s.read setting) := fun _ _ h => h.2 setting

theorem reads_many (s : Structure) : Reads (.many s) (readList (s.read setting)) :=
  fun _ _ h => h.2 setting

variable {v v' : Value}

theorem read_root_congr (h : Parallel namedShape (declared v .root) v v') :
    readNamed setting v = readNamed setting v' := by
  obtain ⟨slots, slots', hs, hs', h⟩ := h
  have name := h.required "name" (reads_plain readText) (by simp [declared])
  simp only [readNamed, hs, hs', bind, Except.bind, h.form, name]

theorem read_typeRef_congr (h : Parallel typeRefShape (declared v .typeRef) v v') :
    TypeRefRecord.read setting v = TypeRefRecord.read setting v' := by
  obtain ⟨slots, slots', hs, hs', h⟩ := h
  have kind := h.required "kind" (reads_one setting .kind) (by simp [declared])
  have name := h.nullable "name" (reads_plain readText) (by simp [declared])
  have ofType := h.nullable "ofType" (reads_one setting .typeRef) (by simp [declared])
  simp only [read_typeRef_eq, hs, hs', bind, Except.bind, h.form, kind, name, ofType]

theorem read_inputValue_congr (h : Parallel inputValueShape (declared v .inputValue) v v') :
    InputValueRecord.read setting v = InputValueRecord.read setting v' := by
  obtain ⟨slots, slots', hs, hs', h⟩ := h
  have name := h.required "name" (reads_plain readText) (by simp [declared])
  have description := h.nullable "description" (reads_plain readText) (by simp [declared])
  have type := h.required "type" (reads_one setting .typeRef) (by simp [declared])
  have default := h.nullable "defaultValue" (reads_plain readText) (by simp [declared])
  have deprecated := h.optional "isDeprecated" (reads_plain readFlag) (by simp [declared])
  have reason := h.optional "deprecationReason" (reads_plain readText) (by simp [declared])
  simp only [InputValueRecord.read, hs, hs', bind, Except.bind, h.form, name, description, type,
    default, deprecated, reason]

theorem read_field_congr (h : Parallel fieldShape (declared v .field) v v') :
    FieldRecord.read setting v = FieldRecord.read setting v' := by
  obtain ⟨slots, slots', hs, hs', h⟩ := h
  have name := h.required "name" (reads_plain readText) (by simp [declared])
  have description := h.nullable "description" (reads_plain readText) (by simp [declared])
  have args := h.required "args" (reads_many setting .inputValue) (by simp [declared])
  have type := h.required "type" (reads_one setting .typeRef) (by simp [declared])
  have deprecated := h.required "isDeprecated" (reads_plain readFlag) (by simp [declared])
  have reason := h.nullable "deprecationReason" (reads_plain readText) (by simp [declared])
  simp only [FieldRecord.read, hs, hs', bind, Except.bind, h.form, name, description, args, type,
    deprecated, reason]

theorem read_enumValue_congr (h : Parallel enumValueShape (declared v .enumValue) v v') :
    EnumValueRecord.read setting v = EnumValueRecord.read setting v' := by
  obtain ⟨slots, slots', hs, hs', h⟩ := h
  have name := h.required "name" (reads_plain readText) (by simp [declared])
  have description := h.nullable "description" (reads_plain readText) (by simp [declared])
  have deprecated := h.required "isDeprecated" (reads_plain readFlag) (by simp [declared])
  have reason := h.nullable "deprecationReason" (reads_plain readText) (by simp [declared])
  simp only [EnumValueRecord.read, hs, hs', bind, Except.bind, h.form, name, description,
    deprecated, reason]

theorem read_directive_congr (h : Parallel directiveShape (declared v .directive) v v') :
    DirectiveRecord.read v = DirectiveRecord.read v' := by
  obtain ⟨slots, slots', hs, hs', h⟩ := h
  have name := h.required "name" (reads_plain readText) (by simp [declared])
  have description := h.nullable "description" (reads_plain readText) (by simp [declared])
  have repeatable := h.optional "isRepeatable" (reads_plain readFlag) (by simp [declared])
  have locations := h.required "locations" (reads_plain (readList readText)) (by simp [declared])
  have args := h.required "args" (reads_many .plain .inputValue) (by simp [declared])
  simp only [DirectiveRecord.read, hs, hs', bind, Except.bind, h.form, name, description,
    repeatable, locations, args]

theorem read_schema_congr (h : Parallel schemaShape (declared v .schema) v v') :
    SchemaRecord.read v = SchemaRecord.read v' := by
  obtain ⟨slots, slots', hs, hs', h⟩ := h
  have description := h.optional "description" (reads_plain readText) (by simp [declared])
  have query := h.nullable "queryType" (reads_one .plain .root) (by simp [declared])
  have mutation := h.optional "mutationType" (reads_one .plain .root) (by simp [declared])
  have subscription := h.optional "subscriptionType" (reads_one .plain .root) (by simp [declared])
  have types := h.required "types" (reads_many .plain .type) (by simp [declared])
  have directives := h.optional "directives" (reads_many .plain .directive) (by simp [declared])
  simp only [SchemaRecord.read, hs, hs', bind, Except.bind, h.form, description, query, mutation,
    subscription, types, directives]

theorem read_data_congr (h : Parallel dataShape (declared v .data) v v') :
    Data.read v = Data.read v' := by
  obtain ⟨slots, slots', hs, hs', h⟩ := h
  have schema := h.required "__schema" (reads_one .plain .schema) (by simp [declared])
  simp only [Data.read, hs, hs', bind, Except.bind, h.form, schema]

theorem read_payload_congr (h : Parallel payloadShape (declared v .payload) v v') :
    Payload.read v = Payload.read v' := by
  obtain ⟨slots, slots', hs, hs', h⟩ := h
  have data := h.required "data" (reads_one .plain .data) (by simp [declared])
  simp only [Payload.read, hs, hs', bind, Except.bind, h.form, data]

end

/-! ### Types -/

section

variable {m n : Nat} {slots : Slots m} {slots' : Slots n} {kind : TypeKind}

theorem readBody_congr (h : Corresponds (typeKeys kind) slots slots') :
    TypeRecordBody.read slots kind = TypeRecordBody.read slots' kind := by
  cases kind with
  | scalar =>
    have url := h.optional "specifiedByURL" (reads_plain readText) (by simp [typeKeys])
    simp only [TypeRecordBody.read, url]
  | object =>
    have fields := h.required "fields" (reads_many .insideType .field) (by simp [typeKeys])
    have interfaces := h.required "interfaces" (reads_many .insideType .root) (by simp [typeKeys])
    simp only [TypeRecordBody.read, fields, interfaces]
  | interface =>
    have fields := h.required "fields" (reads_many .insideType .field) (by simp [typeKeys])
    have interfaces := h.optional "interfaces" (reads_many .insideType .root) (by simp [typeKeys])
    simp only [TypeRecordBody.read, fields, interfaces]
  | union =>
    have members := h.required "possibleTypes" (reads_many .insideType .root) (by simp [typeKeys])
    simp only [TypeRecordBody.read, members]
  | enum =>
    have values := h.required "enumValues" (reads_many .insideType .enumValue) (by simp [typeKeys])
    simp only [TypeRecordBody.read, values]
  | inputObject =>
    have fields := h.required "inputFields" (reads_many .insideType .inputValue)
      (by simp [typeKeys])
    have oneOf := h.optional "isOneOf" (reads_plain readFlag) (by simp [typeKeys])
    simp only [TypeRecordBody.read, fields, oneOf]

theorem readAs_congr (h : Corresponds (typeKeys kind) slots slots') :
    TypeRecord.readAs kind slots = TypeRecord.readAs kind slots' := by
  have name := h.required "name" (reads_plain readText) (by cases kind <;> simp [typeKeys])
  have description := h.nullable "description" (reads_plain readText)
    (by cases kind <;> simp [typeKeys])
  simp only [TypeRecord.readAs, h.form, name, description, readBody_congr h]

end

/-- A type is of the kind that its tag tells, if it is read at all. -/
theorem named_eq_some {tag : Value} {kind : TypeKind} (h : readTypeKind tag = .ok kind) :
    kindOf?.named (some tag) = some kind := by
  unfold readTypeKind at h
  split at h
  · next name =>
    split at h
    · next found hfound =>
      obtain rfl := Except.ok.inj h
      exact hfound
    · cases h
  · cases h

theorem read_type_object_congr {members members' : List (String × Value)}
    (h : ∀ k ∈ declared (.object members) .type,
      Matches .object k (lookup k.name members) (lookup k.name members')) :
    TypeRecord.read (.object members) = TypeRecord.read (.object members') := by
  have hkind := h ⟨"kind", .plain, false⟩ List.mem_cons_self
  simp only [read_type_object]
  generalize htag : lookup "kind" members = o, lookup "kind" members' = o' at hkind ⊢
  cases hkind with
  | absent => rfl
  | dropped _ optional => cases optional
  | @present tag tag' alike =>
    obtain rfl : tag = tag' := alike.2
    cases hk : readTypeKind tag with
    | error e => simp only [hk, bind, Except.bind]
    | ok kind =>
      have hkeys : declared (.object members) .type = ⟨"kind", .plain, false⟩ :: typeKeys kind := by
        rw [declared, kindOf?, htag, named_eq_some hk]
        rfl
      rw [hkeys] at h
      simp only [hk, bind, Except.bind]
      exact readAs_congr ⟨rfl, fun k hk => h k (List.mem_cons_of_mem _ hk)⟩

theorem read_type_array_congr {tag : Value} {items items' : List Value}
    (hlength : items.length = items'.length)
    (h : ∀ kind, readTypeKind tag = .ok kind → ∀ k ∈ typeKeys kind,
      Matches (.array items.length) k (lookup k.name (((typeKeys kind).map Key.name).zip items))
        (lookup k.name (((typeKeys kind).map Key.name).zip items'))) :
    TypeRecord.read (.array (tag :: items)) = TypeRecord.read (.array (tag :: items')) := by
  simp only [TypeRecord.read]
  cases hk : readTypeKind tag with
  | error e => rfl
  | ok kind =>
    have hshape : (typeShape kind).keys = (typeKeys kind).map Key.name := by cases kind <;> rfl
    refine readAs_congr ⟨by rw [form_ofItems, form_ofItems, hlength], fun k hkey => ?_⟩
    rw [value?_ofItems, value?_ofItems, hshape]
    exact h kind hk k hkey

/-! ### Edits -/

theorem read_object_congr {s : Structure} (hs : s ≠ .kind)
    {members members' : List (String × Value)}
    (h : ∀ k ∈ declared (.object members) s,
      Matches .object k (lookup k.name members) (lookup k.name members')) (setting : Setting) :
    s.read setting (.object members) = s.read setting (.object members') := by
  have parallel : ∀ shape : Shape, Parallel shape (declared (.object members) s) (.object members)
      (.object members') := fun _ => ⟨_, _, rfl, rfl, rfl, h⟩
  cases s with
  | payload => exact read_payload_congr (parallel _)
  | data => exact read_data_congr (parallel _)
  | schema => exact read_schema_congr (parallel _)
  | root => exact read_root_congr setting (parallel _)
  | type => exact read_type_object_congr h
  | field => exact read_field_congr setting (parallel _)
  | inputValue => exact read_inputValue_congr setting (parallel _)
  | enumValue => exact read_enumValue_congr setting (parallel _)
  | directive => exact read_directive_congr (parallel _)
  | typeRef => exact read_typeRef_congr setting (parallel _)
  | kind => exact absurd rfl hs

theorem read_array_congr {s : Structure} {before after : List Value} {k : Key} {v v' : Value}
    (hk : (declared (.array (before ++ v :: after)) s)[before.length]? = some k)
    (alike : k.role.Alike v v') (setting : Setting) :
    s.read setting (.array (before ++ v :: after)) =
      s.read setting (.array (before ++ v' :: after)) := by
  have parallel : ∀ shape : Shape,
      shape.keys = (declared (.array (before ++ v :: after)) s).map Key.name →
      Parallel shape (declared (.array (before ++ v :: after)) s) (.array (before ++ v :: after))
        (.array (before ++ v' :: after)) := by
    refine fun shape hkeys => ⟨_, _, rfl, rfl, by simp, fun l hl => ?_⟩
    rw [value?_ofItems, value?_ofItems, hkeys]
    exact matches_zip (nodup_declared _ s) hk hl alike
  cases s with
  | payload => exact read_payload_congr (parallel _ rfl)
  | data => exact read_data_congr (parallel _ rfl)
  | schema => exact read_schema_congr (parallel _ rfl)
  | root => exact read_root_congr setting (parallel _ rfl)
  | type =>
    cases before with
    | nil =>
      obtain rfl : (⟨"kind", .plain, false⟩ : Key) = k := Option.some.inj hk
      rw [show v = v' from alike.2]
    | cons tag before =>
      refine read_type_array_congr (by simp) fun kind hkind l hl => ?_
      have hkeys : declared (.array (tag :: before ++ v :: after)) .type =
          ⟨"kind", .plain, false⟩ :: typeKeys kind := by
        rw [declared, kindOf?, List.cons_append, List.head?_cons, named_eq_some hkind]
        rfl
      have hnodup := nodup_declared (.array (tag :: before ++ v :: after)) .type
      rw [hkeys] at hk hnodup
      exact matches_zip (List.nodup_cons.mp hnodup).2 hk hl alike
  | field => exact read_field_congr setting (parallel _ rfl)
  | inputValue => exact read_inputValue_congr setting (parallel _ rfl)
  | enumValue => exact read_enumValue_congr setting (parallel _ rfl)
  | directive => exact read_directive_congr (parallel _ rfl)
  | typeRef => exact read_typeRef_congr setting (parallel _ rfl)
  | kind => cases hk

/-- **An edit changes nothing in what is read.** The induction goes down to the object that is
edited; on the way up, each record or array is read alike because its members are. -/
theorem alike_of_edit {r : Role} {v v' : Value} (h : Edit r v v') : r.Alike v v' := by
  induction h with
  | unknown record undeclared =>
    refine ⟨by simp, read_object_congr record fun k hk => ?_⟩
    rw [lookup_dropped (undeclared k hk).symm]
    exact .refl _ _ _
  | @null s before after k mem optional absent =>
    have record : s ≠ .kind := by
      rintro rfl
      cases mem
    exact ⟨by simp, read_object_congr record fun l hl => matches_dropped mem hl optional absent⟩
  | @member s before after k v v' mem inside ih =>
    have record : s ≠ .kind := by
      rintro rfl
      cases mem
    exact ⟨by simp, read_object_congr record fun l hl => matches_member mem hl ih⟩
  | position place inside ih => exact ⟨by simp, read_array_congr place ih⟩
  | item inside ih =>
    refine ⟨by simp, fun setting => ?_⟩
    simp only [readList, List.mapM_append, List.mapM_cons, ih.2 setting]

/-- **Documents that only edits tell apart are read alike**: as the same payload or with the same
error, and so are texts that hold them. -/
theorem read_of_edited {v v' : Value} (h : Edited v v') :
    Payload.read v = Payload.read v' ∧ ∀ text text', Json.read text = .ok v →
      Json.read text' = .ok v' → readSchema text = readSchema text' := by
  have hread : Payload.read v = Payload.read v' := by
    induction h with
    | rel v v' h => exact (alike_of_edit h).2 .plain
    | refl v => rfl
    | symm v v' _ ih => exact ih.symm
    | trans u v w _ _ ih ih' => exact ih.trans ih'
  refine ⟨hread, fun text text' ht ht' => ?_⟩
  have hpayload : readPayload text = readPayload text' := by
    simp only [readPayload, ht, ht', Except.mapError, bind, Except.bind, hread]
  rw [readSchema, hpayload, readSchema]

/-- An answer with one type; its data are given as an array. -/
def answer (members : List (String × Value)) (type : Value) : Value :=
  .object [("data", .array [.object (members ++ [("types", .array [type])])])]

/-- An interface with more members before and after its kind and name. -/
def node (before after : List (String × Value)) : Value :=
  .object (("fields", .array []) :: before ++
    [("kind", .string "INTERFACE"), ("name", .string "Node")] ++ after)

/-- What an older service answers, and the text of it. -/
def older : Value := answer [("queryType", .null)] (node [] [])

def olderText : String :=
  "\x7b\"data\":[\x7b\"queryType\":null,\"types\":" ++
    "[\x7b\"kind\":\"INTERFACE\",\"name\":\"Node\",\"fields\":[]\x7d]\x7d]\x7d"

/-- What a newer service answers, and the text of it. -/
def newer : Value := answer [] (node [("interfaces", .null)] [("possibleTypes", .array [.null])])

def newerText : String :=
  "\x7b\"data\":[\x7b\"types\":[\x7b\"kind\":\"INTERFACE\",\"name\":\"Node\",\"fields\":[]," ++
    "\"interfaces\":null,\"possibleTypes\":[null]\x7d]\x7d]\x7d"

theorem edit_of_schema {v v' : Value} (h : Edit (.one .schema) v v') :
    Edit (.one .payload) (.object [("data", .array [v])]) (.object [("data", .array [v'])]) :=
  @Edit.member .payload [] [] ⟨"data", .one .data, false⟩ _ _ (by simp [declared])
    (@Edit.position .data [] [] ⟨"__schema", .one .schema, false⟩ _ _ rfl h)

theorem edit_of_type {v v' : Value} (h : Edit (.one .type) v v') :
    Edit (.one .payload) (answer [] v) (answer [] v') :=
  edit_of_schema (@Edit.member .schema [] [] ⟨"types", .many .type, false⟩ _ _ (by simp [declared])
    (@Edit.item _ [] [] _ _ h))

theorem read_of_edited_answer : Edited older newer ∧
    (Json.read olderText = .ok older ∧ Json.read newerText = .ok newer) ∧
    (readSchema olderText).isOk = true ∧
    Payload.read older = Payload.read newer ∧ readSchema olderText = readSchema newerText := by
  have query : Edit (.one .payload) older (answer [] (node [] [])) :=
    edit_of_schema (@Edit.null .schema [] _ ⟨"queryType", .one .root, true⟩ (by simp [declared]) rfl
      (by simp))
  have interfaces : Edit (.one .type) (node [("interfaces", .null)] []) (node [] []) :=
    @Edit.null .type [_] _ ⟨"interfaces", .many .root, true⟩ (by decide) rfl (by decide)
  have possibleTypes : Edit (.one .type)
      (node [("interfaces", .null)] [("possibleTypes", .array [.null])])
      (node [("interfaces", .null)] []) :=
    @Edit.unknown .type [_, _, _, _] [] "possibleTypes" _ (by decide) (by decide)
  have edited : Edited older newer := .trans _ _ _ (.rel _ _ query)
    (.symm _ _ (.trans _ _ _ (.rel _ _ (edit_of_type possibleTypes))
      (.rel _ _ (edit_of_type interfaces))))
  have ho : Json.read olderText = .ok older := by rfl
  have hn : Json.read newerText = .ok newer := by rfl
  exact ⟨edited, ⟨ho, hn⟩, by decide +kernel, (read_of_edited edited).1,
    (read_of_edited edited).2 _ _ ho hn⟩

end IntrospectSdl.Proofs.Wire.Tolerance
