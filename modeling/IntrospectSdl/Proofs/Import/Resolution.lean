import IntrospectSdl.Proofs.Chains
import IntrospectSdl.Proofs.Declarations
import IntrospectSdl.Proofs.Import.FirstViolation

/-! # Import: what is imported is well-formed

A schema is well-formed if its references resolve (`WellFormed`): roots and members of unions are
objects, interfaces are interfaces, the types of fields can be put out and those of arguments and
input fields put in, and what may not be null is not marked so twice. Each step of the import
establishes this of its result, and so every imported schema is well-formed
(`wellFormed_of_toSchema`). -/

namespace IntrospectSdl.Proofs.Import.Resolution

open IntrospectSdl.Introspection IntrospectSdl.Proofs.Chains IntrospectSdl.Proofs.Declarations
open IntrospectSdl.Proofs.Import.Violations IntrospectSdl.Proofs.Import.FirstViolation

/-! ### Well-formed schemas -/

/-- The kinds of types that can be used so. -/
def suitable : Usage → List TypeKind
  | .output => [.scalar, .object, .interface, .union, .enum]
  | .input => [.scalar, .enum, .inputObject]

section

variable (kindOf : String → Option TypeKind)

/-- A reference to a type that can be used so, not marked twice in a row as one that may not be
null. -/
def Resolves (usage : Usage) : TypeRef → Prop
  | .named name => ∃ kind ∈ suitable usage, kindOf name = some kind
  | .list item => Resolves usage item
  | .nonNull type => (∀ inner, type ≠ .nonNull inner) ∧ Resolves usage type

/-- The references of a field resolve. -/
structure ResolvedField (f : Field) : Prop where
  type : Resolves kindOf .output f.type
  arguments : ∀ a ∈ f.arguments, Resolves kindOf .input a.type

/-- The references of a type resolve. -/
def ResolvedBody : TypeBody → Prop
  | .scalar _ | .enum _ => True
  | .object interfaces fields | .interface interfaces fields =>
    (∀ name ∈ interfaces, kindOf name = some .interface) ∧ ∀ f ∈ fields, ResolvedField kindOf f
  | .union members => ∀ name ∈ members, kindOf name = some .object
  | .inputObject _ fields => ∀ f ∈ fields, Resolves kindOf .input f.type

end

/-- **A schema whose types are inserted one by one and whose references resolve.** -/
structure WellFormed (s : Schema) : Prop where
  inserted : ∃ definitions, s.types = .ofList definitions
  roots : ∀ operation, ∀ name ∈ s.root operation, kindIn s name = some .object
  types : ∀ t ∈ s.types.toList, ResolvedBody (kindIn s) t.body
  directives : ∀ d ∈ s.directives, ∀ a ∈ d.arguments, Resolves (kindIn s) .input a.type

/-! ### References -/

theorem allows_iff_mem_suitable (usage : Usage) (kind : TypeKind) :
    usage.allows kind = true ↔ kind ∈ suitable usage := by
  cases usage <;> cases kind <;> decide

section

variable {kinds : Kinds} {kindOf : String → Option TypeKind}
  (hk : ∀ name, kinds[name]? = kindOf name)
include hk

theorem resolve_eq_ok_iff {site : Site} {name : String} {kind : TypeKind} :
    resolve kinds site name = .ok kind ↔ kindOf name = some kind := by
  rw [resolve, hk]
  cases kindOf name <;> simp

theorem importName_eq_ok_iff {site : Site} {wanted : TypeKind} {name name' : String} :
    importName kinds site wanted name = .ok name' ↔ kindOf name = some wanted ∧ name = name' := by
  simp only [importName, bind_eq_ok_iff, resolve_eq_ok_iff hk]
  constructor
  · rintro ⟨found, hfound, h⟩
    split_ifs at h with hw
    exact ⟨hw ▸ hfound, Except.ok.inj h⟩
  · rintro ⟨hname, rfl⟩
    exact ⟨wanted, hname, if_pos rfl⟩

theorem importInnermost_eq_ok_iff {usage : Usage} {site : Site} {name : Option String}
    {type : TypeRef} : importInnermost kinds usage site name = .ok type ↔
      ∃ n, name = some n ∧ type = .named n ∧ ∃ kind ∈ suitable usage, kindOf n = some kind := by
  cases name with
  | none => simp [importInnermost]
  | some name =>
    simp only [importInnermost, bind_eq_ok_iff, resolve_eq_ok_iff hk, Option.some_inj,
      exists_eq_left', ← allows_iff_mem_suitable]
    constructor
    · rintro ⟨found, hfound, h⟩
      split_ifs at h with ha
      exact ⟨(Except.ok.inj h).symm, found, ha, hfound⟩
    · rintro ⟨rfl, found, ha, hfound⟩
      exact ⟨found, hfound, if_pos ha⟩

omit hk in
/-- What is imported as one that may not be null was marked so. -/
theorem kind_of_importRef {usage : Usage} {site : Site} {r : TypeRefRecord} {type : TypeRef}
    (h : importRef kinds usage site r = .ok (.nonNull type)) : r.kind = .nonNull := by
  cases r with
  | last kind name =>
    cases kind with
    | type kind =>
      obtain ⟨n, -, hn, -⟩ := (importInnermost_eq_ok_iff fun _ => rfl).mp h
      cases hn
    | list => cases h
    | nonNull => rfl
  | around kind name ofType =>
    cases kind with
    | type kind =>
      obtain ⟨n, -, hn, -⟩ := (importInnermost_eq_ok_iff fun _ => rfl).mp h
      cases hn
    | list =>
      obtain ⟨item, -, hitem⟩ := (bind_pure_eq_ok_iff (g := TypeRef.list)).mp h
      cases hitem
    | nonNull => rfl

/-- **An imported reference resolves.** -/
theorem resolves_of_importRef {usage : Usage} {site : Site} {r : TypeRefRecord} {type : TypeRef}
    (h : importRef kinds usage site r = .ok type) : Resolves kindOf usage type := by
  induction r generalizing type with
  | last kind name =>
    cases kind with
    | type kind =>
      obtain ⟨n, -, rfl, hn⟩ := (importInnermost_eq_ok_iff hk).mp h
      exact hn
    | list => cases h
    | nonNull => cases h
  | around kind name ofType ih =>
    cases kind with
    | type kind =>
      obtain ⟨n, -, rfl, hn⟩ := (importInnermost_eq_ok_iff hk).mp h
      exact hn
    | list =>
      obtain ⟨item, hitem, rfl⟩ := (bind_pure_eq_ok_iff (g := TypeRef.list)).mp h
      have hitem : Resolves kindOf usage item := ih hitem
      exact hitem
    | nonNull =>
      rw [importRef] at h
      split_ifs at h with hd
      obtain ⟨inner, hinner, rfl⟩ := (bind_pure_eq_ok_iff (g := TypeRef.nonNull)).mp h
      refine ⟨?_, ih hinner⟩
      rintro innermost rfl
      exact hd (kind_of_importRef hinner)

/-! ### Definitions -/

theorem kind_of_importNames {site : Site} {wanted : TypeKind} {l l' : List String}
    (h : l.mapM (importName kinds site wanted) = .ok l') : ∀ name ∈ l', kindOf name = some wanted :=
  forall_mem_of_mapM h fun _ _ hname => by
    obtain ⟨hkind, rfl⟩ := (importName_eq_ok_iff hk).mp hname
    exact hkind

theorem resolves_of_importInputValue {site : Site} {r : InputValueRecord} {v : InputValue}
    (h : importInputValue kinds site r = .ok v) : Resolves kindOf .input v.type := by
  rw [importInputValue, bind_pure_eq_ok_iff] at h
  obtain ⟨type, htype, rfl⟩ := h
  exact resolves_of_importRef hk htype

theorem resolves_of_importInputValues {site : String → Site} {rs : List InputValueRecord}
    {vs : List InputValue}
    (h : (rs.mapM fun r => importInputValue kinds (site r.name) r) = .ok vs) :
    ∀ v ∈ vs, Resolves kindOf .input v.type :=
  forall_mem_of_mapM h fun _ _ => resolves_of_importInputValue hk

theorem resolvedField_of_importField {type : String} {r : FieldRecord} {f : Field}
    (h : importField kinds type r = .ok f) : ResolvedField kindOf f := by
  rw [importField, bind_eq_ok_iff] at h
  obtain ⟨arguments, harguments, h⟩ := h
  obtain ⟨ref, href, rfl⟩ := bind_pure_eq_ok_iff.mp h
  exact ⟨resolves_of_importRef hk href, resolves_of_importInputValues hk harguments⟩

theorem resolved_of_importComposite {type : String} {names : List String} {rs : List FieldRecord}
    {g : List String → List Field → TypeBody} {body : TypeBody}
    (h : (do
        let interfaces ← names.mapM (importName kinds (.interfaces type) .interface)
        return g interfaces (← rs.mapM (importField kinds type))) = .ok body) :
    ∃ interfaces fields, body = g interfaces fields ∧
      (∀ name ∈ interfaces, kindOf name = some .interface) ∧
      ∀ f ∈ fields, ResolvedField kindOf f := by
  obtain ⟨interfaces, hinterfaces, h⟩ := bind_eq_ok_iff.mp h
  obtain ⟨fields, hfields, rfl⟩ := bind_pure_eq_ok_iff.mp h
  exact ⟨interfaces, fields, rfl, kind_of_importNames hk hinterfaces,
    forall_mem_of_mapM hfields fun _ _ => resolvedField_of_importField hk⟩

/-- **The references of an imported type resolve**, and it is of the kind that was declared. -/
theorem resolvedBody_of_importBody {type : String} {r : TypeRecordBody} {body : TypeBody}
    (h : importBody kinds type r = .ok body) : ResolvedBody kindOf body ∧ body.kind = r.kind := by
  cases r with
  | scalar url =>
    obtain rfl := Except.ok.inj h
    exact ⟨trivial, rfl⟩
  | object fields interfaces =>
    obtain ⟨interfaces, fields, rfl, hresolved⟩ := resolved_of_importComposite hk h
    exact ⟨hresolved, rfl⟩
  | interface fields interfaces =>
    obtain ⟨interfaces, fields, rfl, hresolved⟩ := resolved_of_importComposite hk h
    exact ⟨hresolved, rfl⟩
  | union members =>
    obtain ⟨members, hmembers, rfl⟩ := (bind_pure_eq_ok_iff (g := TypeBody.union)).mp h
    exact ⟨kind_of_importNames hk hmembers, rfl⟩
  | enum values =>
    obtain rfl := Except.ok.inj h
    exact ⟨trivial, rfl⟩
  | inputObject fields isOneOf =>
    rw [importBody, bind_pure_eq_ok_iff] at h
    obtain ⟨fields, hfields, rfl⟩ := h
    exact ⟨resolves_of_importInputValues hk hfields, rfl⟩

theorem resolved_of_importType {r : TypeRecord} {t : TypeDefinition}
    (h : importType kinds r = .ok t) :
    ResolvedBody kindOf t.body ∧ t.name = r.name ∧ t.kind = r.kind := by
  rw [importType, bind_pure_eq_ok_iff] at h
  obtain ⟨body, hbody, rfl⟩ := h
  obtain ⟨hresolved, hkind⟩ := resolvedBody_of_importBody hk hbody
  exact ⟨hresolved, rfl, hkind⟩

theorem resolves_of_importDirective {r : DirectiveRecord} {d : Directive}
    (h : importDirective kinds r = .ok d) : ∀ a ∈ d.arguments, Resolves kindOf .input a.type := by
  rw [importDirective, bind_eq_ok_iff] at h
  obtain ⟨locations, -, h⟩ := h
  obtain ⟨arguments, harguments, rfl⟩ := bind_pure_eq_ok_iff.mp h
  exact resolves_of_importInputValues hk harguments

theorem kind_of_importRoot {operation : Operation} {r root : Option String}
    (h : importRoot kinds operation r = .ok root) :
    r = root ∧ ∀ name ∈ root, kindOf name = some .object := by
  cases r with
  | none =>
    obtain rfl := Except.ok.inj h
    exact ⟨rfl, fun name hname => nomatch hname⟩
  | some r =>
    obtain ⟨name, hname, rfl⟩ := (bind_pure_eq_ok_iff (g := some)).mp h
    obtain ⟨hkind, rfl⟩ := (importName_eq_ok_iff hk).mp hname
    exact ⟨rfl, fun name hname => Option.some_inj.mp hname ▸ hkind⟩

end

/-! ### Schemas -/

theorem duplicates_eq_nil_iff {earlier : List String} {types : List TypeRecord} :
    duplicates earlier types = [] ↔
      (∀ t ∈ types, t.name ∉ earlier) ∧ (types.map (·.name)).Nodup := by
  induction types generalizing earlier with
  | nil => simp [duplicates]
  | cons t types ih =>
    simp only [duplicates, List.append_eq_nil_iff, ih, List.mem_cons, List.map_cons,
      List.nodup_cons, List.mem_map]
    grind

theorem declareAll_eq_ok_iff {types : List TypeRecord} :
    (∃ kinds, declareAll types = .ok kinds) ↔ (types.map (·.name)).Nodup := by
  rw [(reports_declareAll types).iff.1, duplicates_eq_nil_iff]
  simp

/-- A record declares what a definition does: a name and a kind. -/
def Declares (r : TypeRecord) (t : TypeDefinition) : Prop := t.name = r.name ∧ t.kind = r.kind

theorem names_eq_of_declares {records : List TypeRecord} {definitions : List TypeDefinition}
    (h : List.Forall₂ Declares records definitions) : names definitions = records.map (·.name) := by
  induction h with
  | nil => rfl
  | cons ht _ ih => exact congrArg₂ List.cons ht.1 ih

/-- **What the records of a schema declare is what the schema declares.** -/
theorem declaredKind_eq {records : List TypeRecord} {definitions : List TypeDefinition}
    (h : List.Forall₂ Declares records definitions) (name : String) :
    declaredKind records name = (definitions.find? (·.name == name)).map (·.kind) := by
  induction h with
  | nil => rfl
  | cons ht _ ih =>
    rw [declaredKind, List.find?_cons, List.find?_cons, ht.1]
    split
    · exact congrArg some ht.2.symm
    · exact ih

/-- **Every imported schema is well-formed.** -/
theorem wellFormed_of_toSchema {p : Payload} {s : Schema} (h : p.toSchema = .ok s) :
    WellFormed s := by
  obtain ⟨⟨r⟩⟩ := p
  simp only [Payload.toSchema, bind_eq_ok_iff] at h
  obtain ⟨kinds, hkinds, query, hquery, mutation, hmutation, subscription, hsubscription,
    types, htypes, directives, hdirectives, h⟩ := h
  obtain rfl := Except.ok.inj h
  have hdeclares : List.Forall₂ Declares r.types types :=
    (mapM_eq_ok_iff.mp htypes).imp fun _ _ ht => (resolved_of_importType fun _ => rfl) ht |>.2
  have hnodup : (names types).Nodup := by
    rw [names_eq_of_declares hdeclares]
    exact declareAll_eq_ok_iff.mp ⟨kinds, hkinds⟩
  have hlist : (TypeTable.ofList types).toList = types := toList_ofList hnodup
  -- The kinds that the steps have looked up are those of the schema that comes out.
  have hk (name : String) : kinds[name]? = kindIn
      ⟨r.description, query, mutation, subscription, .ofList types, directives⟩ name := by
    rw [getElem?_declareAll hkinds, declaredKind_eq hdeclares, kindIn, find?_eq, hlist]
  exact
    { inserted := ⟨types, rfl⟩
      roots := by
        intro operation
        cases operation with
        | query => exact (kind_of_importRoot hk hquery).2
        | mutation => exact (kind_of_importRoot hk hmutation).2
        | subscription => exact (kind_of_importRoot hk hsubscription).2
      types := hlist.symm ▸ forall_mem_of_mapM htypes fun _ _ ht => (resolved_of_importType hk ht).1
      directives := forall_mem_of_mapM hdirectives fun _ _ => resolves_of_importDirective hk }

end IntrospectSdl.Proofs.Import.Resolution
