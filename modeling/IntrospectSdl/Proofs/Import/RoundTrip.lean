import IntrospectSdl.Proofs.Import.Resolution

/-! # Import: describing a schema and importing it again

The description of a schema lists its types and directives in order, and writes each reference as a
chain of wrappings around a name and its kind (`describe`). A well-formed schema is what its
description is imported as (`toSchema_describe`). As only well-formed schemas are imported at all,
these are exactly the schemas that are imported from anything (`toSchema_describe_iff`). -/

namespace IntrospectSdl.Proofs.Import.RoundTrip

open IntrospectSdl.Introspection IntrospectSdl.Proofs.Chains IntrospectSdl.Proofs.Declarations
open IntrospectSdl.Proofs.Import.Violations IntrospectSdl.Proofs.Import.FirstViolation
open IntrospectSdl.Proofs.Import.Resolution

/-! ### The description of a schema -/

section

variable (kindOf : String → Option TypeKind)

/-- A reference as a chain of wrappings; a name that is not declared passes for a scalar. -/
def refRecord : TypeRef → TypeRefRecord
  | .named name => .last (.type ((kindOf name).getD .scalar)) (some name)
  | .list item => .around .list none (refRecord item)
  | .nonNull type => .around .nonNull none (refRecord type)

/-- The record of an argument or an input field. -/
def inputValueRecord (v : InputValue) : InputValueRecord where
  name := v.name
  description := v.description
  type := refRecord kindOf v.type
  defaultValue := v.defaultValue
  isDeprecated := some v.deprecation.isSome
  deprecationReason := v.deprecation.bind (·.reason)

/-- The record of a field. -/
def fieldRecord (f : Field) : FieldRecord where
  name := f.name
  description := f.description
  args := f.arguments.map (inputValueRecord kindOf)
  type := refRecord kindOf f.type
  isDeprecated := f.deprecation.isSome
  deprecationReason := f.deprecation.bind (·.reason)

/-- The record of an enumeration value. -/
def enumValueRecord (v : EnumValue) : EnumValueRecord where
  name := v.name
  description := v.description
  isDeprecated := v.deprecation.isSome
  deprecationReason := v.deprecation.bind (·.reason)

/-- The record of what a type consists of. -/
def bodyRecord : TypeBody → TypeRecordBody
  | .scalar url => .scalar url
  | .object interfaces fields => .object (fields.map (fieldRecord kindOf)) interfaces
  | .interface interfaces fields => .interface (fields.map (fieldRecord kindOf)) (some interfaces)
  | .union members => .union members
  | .enum values => .enum (values.map enumValueRecord)
  | .inputObject oneOf fields => .inputObject (fields.map (inputValueRecord kindOf)) (some oneOf)

/-- The record of a type. -/
def typeRecord (t : TypeDefinition) : TypeRecord where
  name := t.name
  description := t.description
  body := bodyRecord kindOf t.body

/-- The record of a directive. -/
def directiveRecord (d : Directive) : DirectiveRecord where
  name := d.name
  description := d.description
  isRepeatable := some d.repeatable
  locations := d.locations.map Location.name
  args := d.arguments.map (inputValueRecord kindOf)

end

/-- **The description of a schema**: an answer to an introspection query that holds all of it. -/
def describe (s : Schema) : Payload where
  data.schema :=
    { description := s.description
      queryType := s.query
      mutationType := s.mutation
      subscriptionType := s.subscription
      types := s.types.toList.map (typeRecord (kindIn s))
      directives := some (s.directives.map (directiveRecord (kindIn s))) }

/-! ### References -/

section

variable {kinds : Kinds} {kindOf : String → Option TypeKind}
  (hk : ∀ name, kinds[name]? = kindOf name)
include hk

omit hk in
theorem kind_refRecord {type : TypeRef} (h : (refRecord kindOf type).kind = .nonNull) :
    ∃ inner, type = .nonNull inner := by
  cases type with
  | named name => cases h
  | list item => cases h
  | nonNull inner => exact ⟨inner, rfl⟩

/-- **A reference that resolves is what its chain of wrappings is imported as.** -/
theorem importRef_refRecord {usage : Usage} {type : TypeRef} (h : Resolves kindOf usage type)
    (site : Site) : importRef kinds usage site (refRecord kindOf type) = .ok type := by
  induction type with
  | named name => exact (importInnermost_eq_ok_iff hk).mpr ⟨name, rfl, rfl, h⟩
  | list item ih => exact bind_pure_eq_ok_iff.mpr ⟨item, ih h, rfl⟩
  | nonNull type ih =>
    have hd : (refRecord kindOf type).kind ≠ .nonNull := fun hkind => by
      obtain ⟨inner, hinner⟩ := kind_refRecord hkind
      exact h.1 inner hinner
    rw [refRecord, importRef, if_neg hd]
    exact bind_pure_eq_ok_iff.mpr ⟨type, ih h.2, rfl⟩

theorem importNames_self {site : Site} {wanted : TypeKind} {l : List String}
    (h : ∀ name ∈ l, kindOf name = some wanted) :
    l.mapM (importName kinds site wanted) = .ok l := by
  rw [mapM_eq_ok_iff, List.forall₂_same]
  exact fun name hname => (importName_eq_ok_iff hk).mpr ⟨h name hname, rfl⟩

/-! ### Definitions -/

omit hk in
theorem deprecation_self (d : Option Deprecation) :
    deprecation d.isSome (d.bind (·.reason)) = d := by
  cases d with
  | none => rfl
  | some d => rfl

theorem importInputValue_inputValueRecord {v : InputValue} (h : Resolves kindOf .input v.type)
    (site : Site) : importInputValue kinds site (inputValueRecord kindOf v) = .ok v := by
  rw [importInputValue, bind_pure_eq_ok_iff]
  refine ⟨v.type, importRef_refRecord hk h site, ?_⟩
  simp only [inputValueRecord, Option.getD_some, deprecation_self]

theorem importInputValues_inputValueRecord {vs : List InputValue}
    (h : ∀ v ∈ vs, Resolves kindOf .input v.type) (site : String → Site) :
    ((vs.map (inputValueRecord kindOf)).mapM fun r => importInputValue kinds (site r.name) r) =
      .ok vs :=
  mapM_map_eq_ok fun v hv => importInputValue_inputValueRecord hk (h v hv) _

theorem importField_fieldRecord {f : Field} (h : ResolvedField kindOf f) (type : String) :
    importField kinds type (fieldRecord kindOf f) = .ok f := by
  rw [importField, bind_eq_ok_iff]
  refine ⟨f.arguments, importInputValues_inputValueRecord hk h.arguments
    (.argument type f.name ·), bind_pure_eq_ok_iff.mpr ⟨f.type, ?_, ?_⟩⟩
  · exact importRef_refRecord hk h.type _
  · simp only [fieldRecord, deprecation_self]

theorem importFields_fieldRecord {fs : List Field} (h : ∀ f ∈ fs, ResolvedField kindOf f)
    (type : String) : (fs.map (fieldRecord kindOf)).mapM (importField kinds type) = .ok fs :=
  mapM_map_eq_ok fun f hf => importField_fieldRecord hk (h f hf) type

omit hk in
theorem importEnumValues_enumValueRecord (vs : List EnumValue) :
    (vs.map enumValueRecord).map importEnumValue = vs := by
  rw [List.map_map]
  exact List.map_id'' (fun v => by simp only [Function.comp, importEnumValue, enumValueRecord,
    deprecation_self]) vs

/-- **What a type consists of is imported from its record.** -/
theorem importBody_bodyRecord {body : TypeBody} (h : ResolvedBody kindOf body) (type : String) :
    importBody kinds type (bodyRecord kindOf body) = .ok body := by
  cases body with
  | scalar url => rfl
  | object interfaces fields =>
    refine bind_eq_ok_iff.mpr ⟨interfaces, importNames_self hk h.1, ?_⟩
    exact bind_pure_eq_ok_iff.mpr ⟨fields, importFields_fieldRecord hk h.2 type, rfl⟩
  | interface interfaces fields =>
    refine bind_eq_ok_iff.mpr ⟨interfaces, importNames_self hk h.1, ?_⟩
    exact bind_pure_eq_ok_iff.mpr ⟨fields, importFields_fieldRecord hk h.2 type, rfl⟩
  | union members => exact bind_pure_eq_ok_iff.mpr ⟨members, importNames_self hk h, rfl⟩
  | enum values =>
    rw [bodyRecord, importBody, importEnumValues_enumValueRecord]
    rfl
  | inputObject oneOf fields =>
    exact bind_pure_eq_ok_iff.mpr
      ⟨fields, importInputValues_inputValueRecord hk h (.inputField type ·), rfl⟩

theorem importType_typeRecord {t : TypeDefinition} (h : ResolvedBody kindOf t.body) :
    importType kinds (typeRecord kindOf t) = .ok t :=
  bind_pure_eq_ok_iff.mpr ⟨t.body, importBody_bodyRecord hk h t.name, rfl⟩

omit hk in
theorem importLocation_name (directive : String) (l : Location) :
    importLocation directive l.name = .ok l := by
  rw [importLocation, Location.ofName?_name]

theorem importDirective_directiveRecord {d : Directive}
    (h : ∀ a ∈ d.arguments, Resolves kindOf .input a.type) :
    importDirective kinds (directiveRecord kindOf d) = .ok d := by
  rw [importDirective, bind_eq_ok_iff]
  refine ⟨d.locations, mapM_map_eq_ok fun l _ => importLocation_name d.name l,
    bind_pure_eq_ok_iff.mpr ⟨d.arguments, ?_, rfl⟩⟩
  exact importInputValues_inputValueRecord hk h (.directiveArgument d.name ·)

theorem importRoot_self {root : Option String} (h : ∀ name ∈ root, kindOf name = some .object)
    (operation : Operation) : importRoot kinds operation root = .ok root := by
  cases root with
  | none => rfl
  | some name =>
    exact bind_pure_eq_ok_iff.mpr ⟨name, (importName_eq_ok_iff hk).mpr ⟨h name rfl, rfl⟩, rfl⟩

end

/-! ### Schemas -/

theorem kind_bodyRecord (kindOf : String → Option TypeKind) (body : TypeBody) :
    (bodyRecord kindOf body).kind = body.kind := by
  cases body <;> rfl

theorem declares_typeRecord (kindOf : String → Option TypeKind)
    (definitions : List TypeDefinition) :
    List.Forall₂ Declares (definitions.map (typeRecord kindOf)) definitions := by
  rw [List.forall₂_map_left_iff, List.forall₂_same]
  exact fun t _ => ⟨rfl, (kind_bodyRecord kindOf t.body).symm⟩

theorem declareAll_describe (s : Schema) :
    ∃ kinds, declareAll (describe s).data.schema.types = .ok kinds ∧
      ∀ name, kinds[name]? = kindIn s name := by
  have hdeclares := declares_typeRecord (kindIn s) s.types.toList
  obtain ⟨kinds, hkinds⟩ := declareAll_eq_ok_iff.mpr
    (names_eq_of_declares hdeclares ▸ nodup_names s.types)
  refine ⟨kinds, hkinds, fun name => ?_⟩
  rw [getElem?_declareAll hkinds, kindIn, find?_eq]
  exact declaredKind_eq hdeclares name

/-- **A well-formed schema is what its description is imported as.** -/
theorem toSchema_describe {s : Schema} (h : WellFormed s) : (describe s).toSchema = .ok s := by
  obtain ⟨kinds, hkinds, hk⟩ := declareAll_describe s
  simp only [Payload.toSchema, bind_eq_ok_iff]
  refine ⟨kinds, hkinds, s.query, importRoot_self hk (h.roots .query) .query,
    s.mutation, importRoot_self hk (h.roots .mutation) .mutation,
    s.subscription, importRoot_self hk (h.roots .subscription) .subscription,
    s.types.toList, ?_, s.directives, ?_, ?_⟩
  · exact mapM_map_eq_ok fun t ht => importType_typeRecord hk (h.types t ht)
  · exact mapM_map_eq_ok fun d hd => importDirective_directiveRecord hk (h.directives d hd)
  · rw [ofList_toList]
    rfl

/-- **The imported schemas are the well-formed ones**, and each of them is imported from its
description. -/
theorem toSchema_describe_iff (s : Schema) :
    ((describe s).toSchema = .ok s ↔ WellFormed s) ∧
      ((∃ p : Payload, p.toSchema = .ok s) ↔ WellFormed s) :=
  ⟨⟨wellFormed_of_toSchema, toSchema_describe⟩,
    ⟨fun ⟨_, hp⟩ => wellFormed_of_toSchema hp, fun h => ⟨describe s, toSchema_describe h⟩⟩⟩

end IntrospectSdl.Proofs.Import.RoundTrip
