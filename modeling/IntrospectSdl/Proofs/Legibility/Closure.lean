import IntrospectSdl.Proofs.Legibility.Roots

/-! # Legibility: closed documents

The names of types that stand in a definition (`used`) are those of its references. A printed schema
declares each of them, and declares it once, unless every service provides the type: then it is left
out of the text although others use it (`closed_of_print`). -/

namespace IntrospectSdl.Proofs.Legibility.Closure

open IntrospectSdl.Sdl IntrospectSdl.Proofs.Declarations
open IntrospectSdl.Proofs.Legibility.Atoms IntrospectSdl.Proofs.Legibility.Members
open IntrospectSdl.Proofs.Legibility.Definitions IntrospectSdl.Proofs.Legibility.Schema
open IntrospectSdl.Proofs.Legibility.Roots IntrospectSdl.Proofs.Printing.Acceptance
open IntrospectSdl.Proofs.Printing.Names

/-! ### Used and defined names -/

/-- The type that an argument or an input field uses: the name without the marks around it. -/
def usedByInput (v : InputValue) : String := v.type.innermost

/-- The types that a field and its arguments use. -/
def usedByField (f : Field) : List String := f.type.innermost :: f.arguments.map usedByInput

/-- The types that a type uses: interfaces, members and the types of what it consists of. -/
def usedByType (t : TypeDefinition) : List String :=
  match t.body with
  | .object interfaces fields | .interface interfaces fields =>
    interfaces ++ fields.flatMap usedByField
  | .union members => members
  | .inputObject _ fields => fields.map usedByInput
  | .scalar _ | .enum _ => []

/-- The types that a definition uses. -/
def used : Told → List String
  | .block b => b.query.toList ++ b.mutation.toList ++ b.subscription.toList
  | .directive d => d.arguments.map usedByInput
  | .type t => usedByType t

/-- The names of the types that are defined. -/
def defined (told : List Told) : List String := names (told.filterMap Told.type?)

/-- The types that every service provides. -/
def Provided (name : String) : Prop :=
  name ∈ ["Int", "Float", "String", "Boolean", "ID"] ∨ "__".toList <+: name.toList

/-- **No two definitions are of one type, and each type that one of them uses is defined once**,
unless every service provides it. -/
structure Closed (told : List Told) : Prop where
  nodup : (defined told).Nodup
  resolved : ∀ d ∈ told, ∀ name ∈ used d, (defined told).count name = 1 ∨ Provided name

/-! ### References

What a definition uses is what its references name. -/

theorem map_usedByInput_told (vs : List InputValue) :
    (vs.map toldInput).map usedByInput = vs.map usedByInput := by
  rw [List.map_map]
  rfl

theorem usedByField_told (type : String) (f : Field) :
    usedByField (toldField f) = (fieldReferences type f).map (·.name) := by
  rw [fieldReferences, List.map_cons, List.map_map]
  exact congrArg (f.type.innermost :: ·) (map_usedByInput_told f.arguments)

theorem usedByComposite_told (type : String) (interfaces : List String) (fields : List Field) :
    interfaces ++ (fields.map toldField).flatMap usedByField =
      (compositeReferences type interfaces fields).map (·.name) := by
  rw [compositeReferences, List.map_append, List.map_map, List.map_flatMap, List.flatMap_map]
  exact congrArg₂ (· ++ ·) (List.map_id' interfaces).symm
    (congrArg fields.flatMap (funext (usedByField_told type)))

theorem usedByType_told (t : TypeDefinition) :
    usedByType (toldType t) = (typeReferences t).map (·.name) := by
  obtain ⟨name, description, body⟩ := t
  cases body with
  | scalar url => rfl
  | object interfaces fields => exact usedByComposite_told name interfaces fields
  | interface interfaces fields => exact usedByComposite_told name interfaces fields
  | union members =>
    rw [typeReferences, List.map_map]
    exact (List.map_id' members).symm
  | enum values => rfl
  | inputObject oneOf fields =>
    rw [typeReferences, List.map_map]
    exact map_usedByInput_told fields

theorem used_directive (d : Directive) :
    used (.directive (toldDirective d)) = (directiveReferences d).map (·.name) := by
  rw [directiveReferences, List.map_map]
  exact map_usedByInput_told d.arguments

theorem used_block (s : Schema) :
    used (.block (toldBlock s)) = (rootReferences s).map (·.name) := by
  obtain ⟨description, query, mutation, subscription, types, directives⟩ := s
  cases query <;> cases mutation <;> cases subscription <;> rfl

/-- **Whatever a printed definition uses, a reference of the schema names.** -/
theorem mem_references_of_used {s : Schema} {d : Told} (hd : d ∈ told s) {name : String}
    (hname : name ∈ used d) : ∃ r ∈ references s, r.name = name := by
  obtain ⟨definition, hmem, rfl⟩ := List.mem_map.mp hd
  rw [definitions, List.mem_append, List.mem_append] at hmem
  rcases hmem with (hmem | hmem) | hmem
  · split_ifs at hmem
    · rw [List.mem_singleton.mp hmem, Definition.told, used_block] at hname
      obtain ⟨r, hr, rfl⟩ := List.mem_map.mp hname
      exact ⟨r, List.mem_append_left _ (List.mem_append_left _ hr), rfl⟩
    · cases hmem
  · obtain ⟨directive, hdirective, rfl⟩ := List.mem_map.mp hmem
    rw [Definition.told, used_directive] at hname
    obtain ⟨r, hr, rfl⟩ := List.mem_map.mp hname
    exact ⟨r, directive_mem_references (List.mem_filter.mp hdirective).1 hr, rfl⟩
  · obtain ⟨t, ht, rfl⟩ := List.mem_map.mp hmem
    rw [Definition.told, used, usedByType_told] at hname
    obtain ⟨r, hr, rfl⟩ := List.mem_map.mp hname
    exact ⟨r, type_mem_references (List.mem_filter.mp ht).1 hr, rfl⟩

/-! ### Printed schemas -/

theorem provided_iff {name : String} : Provided name ↔ isBuiltInType name = true := by
  rw [isBuiltInType, Bool.or_eq_true, List.isPrefixOf_iff_prefix, decide_eq_true_iff, or_comm]
  rfl

theorem defined_told (s : Schema) : defined (told s) = names (printedTypes s) := by
  rw [defined, filterMap_told, names, names, List.map_map]
  rfl

theorem nodup_defined (s : Schema) : (defined (told s)).Nodup := by
  rw [defined_told]
  exact (nodup_names s.types).sublist (List.filter_sublist.map _)

/-- A type that is declared is printed if not every service provides it. -/
theorem mem_defined {s : Schema} {t : TypeDefinition} (ht : t ∈ s.types.toList)
    (hprovided : ¬ Provided t.name) : t.name ∈ defined (told s) := by
  rw [provided_iff, Bool.not_eq_true] at hprovided
  rw [defined_told]
  exact List.mem_map_of_mem (List.mem_filter.mpr ⟨ht, by rw [hprovided]; rfl⟩)

theorem closed_told {s : Schema} (hc : check s = .ok ()) : Closed (told s) := by
  refine ⟨nodup_defined s, fun d hd name hname => ?_⟩
  obtain ⟨r, hr, rfl⟩ := mem_references_of_used hd hname
  obtain ⟨t, ht, htr⟩ := declared_of_check hc hr
  rw [← htr]
  refine or_iff_not_imp_right.mpr fun hprovided => ?_
  exact List.count_eq_one_of_mem (nodup_defined s) (mem_defined ht hprovided)

/-- **A printed schema is closed and has no two definitions of one type.** Where names are names and
default values are plain, nothing else can be read from the text. -/
theorem closed_of_print {s : Schema} {text : List Char} (h : print .shown s = .ok text) :
    writeAll .shown ((definitions s).map Definition.document) = text ∧ Closed (told s) ∧
    ((∀ name ∈ declaredNames s, isName name = true) →
      (∀ v ∈ inputValues s, ∀ d ∈ v.defaultValue, Plain d) →
      ∀ ds : List Definition, (∀ d ∈ ds, d.Named) →
        writeAll .shown (ds.map Definition.document) = text → Closed (ds.map Definition.told)) := by
  obtain ⟨hc, htext⟩ := print_eq_ok_iff.mp h
  rw [documents_eq] at htext
  refine ⟨htext, closed_told hc, fun names defaults ds hds hsame => ?_⟩
  have hnamed := named_definitions (named_of_check hc names defaults)
  have htexts := congrArg (· ++ []) (hsame.trans htext.symm)
  have htold : ds.map Definition.told = told s :=
    (legible_definitions hds hnamed rfl rfl htexts).1
  rw [htold]
  exact closed_told hc

/-- A schema that uses types of every kind, among them some that every service provides. -/
def linked : Schema where
  description := none
  query := some "Root"
  mutation := none
  subscription := none
  types := .ofList [⟨"Int", none, .scalar none⟩, ⟨"__Type", none, .object [] []⟩,
    ⟨"Node", none, .interface [] [⟨"id", none, [], .nonNull (.named "Int"), none⟩]⟩,
    ⟨"Root", none, .object ["Node"] [⟨"id", none, [], .nonNull (.named "Int"), none⟩,
      ⟨"any", none, [⟨"by", none, .list (.named "Key"), none, none⟩], .named "Any", none⟩,
      ⟨"type", none, [], .named "__Type", none⟩]⟩,
    ⟨"Any", none, .union ["Root"]⟩,
    ⟨"Key", none, .inputObject false [⟨"key", none, .named "Key", none, none⟩]⟩]
  directives := [⟨"at", none, [⟨"key", none, .named "Key", none, none⟩], false, [.field]⟩]

theorem closed_of_print_linked :
    ∃ text, print .shown linked = .ok text ∧
      (∀ name ∈ declaredNames linked, isName name = true) ∧
      (∀ v ∈ inputValues linked, ∀ d ∈ v.defaultValue, Plain d) ∧
      writeAll .shown ((definitions linked).map Definition.document) = text ∧
      Closed (told linked) ∧
      defined (told linked) = ["Node", "Root", "Any", "Key"] ∧
      (told linked).flatMap used = ["Root", "Key", "Int", "Node", "Int", "Any", "Key", "__Type",
        "Root", "Key"] ∧
      ∀ ds : List Definition, (∀ d ∈ ds, d.Named) →
        writeAll .shown (ds.map Definition.document) = text → Closed (ds.map Definition.told) := by
  have names : ∀ name ∈ declaredNames linked, isName name = true := by decide
  have defaults : ∀ v ∈ inputValues linked, ∀ d ∈ v.defaultValue, Plain d := by decide
  have hreferences : checkReferences linked = .ok () := by decide +kernel
  have hcycles : checkInterfaceCycles linked = .ok () := by
    have hinterfaces : interfaceNames linked = ["Node"] := by decide +kernel
    have hnode : implementedBy linked "Node" = [] := by decide +kernel
    simp [checkInterfaceCycles, searchAll, search, hinterfaces, hnode, bind, Except.bind, pure,
      Except.pure]
  have h : print .shown linked = .ok (writeAll .shown (documents linked)) :=
    print_eq_ok_iff.mpr ⟨check_eq_ok_iff.mpr ⟨hreferences, hcycles⟩, rfl⟩
  obtain ⟨htext, hclosed, hreadings⟩ := closed_of_print h
  exact ⟨_, h, names, defaults, htext, hclosed, by decide +kernel, by decide +kernel,
    hreadings names defaults⟩

end IntrospectSdl.Proofs.Legibility.Closure
