import IntrospectSdl.Proofs.Legibility.Schema

/-! # Legibility: root types

A printed schema says which types are its roots: its schema block lists them, and without one they
are the objects of the conventional names (`denotedRoot`). What it says is right unless an operation
without a root has an object of its conventional name and no schema block tells the two apart
(`denotedRoot_of_print`). -/

namespace IntrospectSdl.Proofs.Legibility.Roots

open IntrospectSdl.Sdl IntrospectSdl.Proofs.Declarations
open IntrospectSdl.Proofs.Legibility.Atoms IntrospectSdl.Proofs.Legibility.Members
open IntrospectSdl.Proofs.Legibility.Definitions IntrospectSdl.Proofs.Legibility.Schema
open IntrospectSdl.Proofs.Printing.Acceptance IntrospectSdl.Proofs.Printing.Names

/-! ### What definitions denote -/

/-- The root type of an operation that a schema block lists. -/
def listedRoot (b : SchemaBlock) : Operation → Option String
  | .query => b.query
  | .mutation => b.mutation
  | .subscription => b.subscription

/-- Whether a type is a root by its name. -/
def isConventional (operation : Operation) (t : TypeDefinition) : Bool :=
  t.kind = .object && t.name = operation.conventionalRoot

/-- **The root type of an operation as definitions denote it**: the one that the schema block lists,
and without a schema block the object of the conventional name, if there is one. -/
def denotedRoot (told : List Told) (operation : Operation) : Option String :=
  match told.findSome? Told.block? with
  | some b => listedRoot b operation
  | none => ((told.filterMap Told.type?).find? (isConventional operation)).map (·.name)

/-- The definitions of a schema as their text tells them. -/
def told (s : Schema) : List Told := (definitions s).map Definition.told

theorem findSome?_told (s : Schema) : (told s).findSome? Told.block? = toldBlock? s := by
  rw [told, map_told_definitions, ← List.head?_filterMap]
  simp only [List.filterMap_append, List.filterMap_map, Function.comp_def, Told.block?,
    List.filterMap_some, List.filterMap_none, List.append_nil, Option.head?_toList]

theorem filterMap_told (s : Schema) :
    (told s).filterMap Told.type? = (printedTypes s).map toldType := by
  rw [told, map_told_definitions]
  simp only [List.filterMap_append, List.filterMap_map, Function.comp_def, Told.type?,
    List.filterMap_none, List.filterMap_eq_map', List.nil_append]

/-! ### Roots by convention -/

theorem isConventional_toldType (operation : Operation) (t : TypeDefinition) :
    isConventional operation (toldType t) = isConventional operation t := by
  obtain ⟨name, description, body⟩ := t
  cases body <;> rfl

theorem isConventional_iff {operation : Operation} {t : TypeDefinition} :
    isConventional operation t = true ↔ t.kind = .object ∧ t.name = operation.conventionalRoot := by
  simp [isConventional]

/-- The conventional names are not among those that every service provides. -/
theorem exists_printed_iff {s : Schema} {operation : Operation} :
    (∃ t ∈ printedTypes s, isConventional operation t = true) ↔
      kindIn s operation.conventionalRoot = some .object := by
  have hprinted : isBuiltInType operation.conventionalRoot = false := by
    cases operation <;> decide
  simp only [kindIn_eq_some_iff, printedTypes, List.mem_filter, isConventional_iff]
  constructor
  · rintro ⟨t, ⟨ht, -⟩, hkind, hname⟩
    exact ⟨t, ht, hname, hkind⟩
  · rintro ⟨t, ht, hname, hkind⟩
    exact ⟨t, ⟨ht, by simp [hname, hprinted]⟩, hkind, hname⟩

theorem denotedRoot_told (s : Schema) (operation : Operation) :
    denotedRoot (told s) operation =
      if needsSchemaBlock s then s.root operation
      else if kindIn s operation.conventionalRoot = some .object
        then some operation.conventionalRoot else none := by
  rw [denotedRoot, findSome?_told, filterMap_told, toldBlock?]
  by_cases hblock : needsSchemaBlock s = true
  · rw [if_pos hblock, if_pos hblock]
    cases operation <;> rfl
  · rw [if_neg hblock, if_neg hblock]
    have hfun : isConventional operation ∘ toldType = isConventional operation :=
      funext (isConventional_toldType operation)
    change Option.map _ (List.find? _ _) = _
    rw [List.find?_map, hfun, Option.map_map]
    cases hfind : (printedTypes s).find? (isConventional operation) with
    | none =>
      have hnone : kindIn s operation.conventionalRoot ≠ some .object := fun hkind => by
        obtain ⟨t, ht, hconventional⟩ := exists_printed_iff.mpr hkind
        exact List.find?_eq_none.mp hfind t ht hconventional
      rw [if_neg hnone]
      rfl
    | some t =>
      have hconventional := List.find?_some hfind
      rw [if_pos (exists_printed_iff.mp ⟨t, List.mem_of_find?_eq_some hfind, hconventional⟩)]
      exact congrArg some (isConventional_iff.mp hconventional).2

/-! ### Printed roots -/

theorem eq_conventionalRoot {s : Schema} (hblock : needsSchemaBlock s = false)
    {operation : Operation} {name : String} (hroot : s.root operation = some name) :
    name = operation.conventionalRoot := by
  have hall : operation ∈ Operation.all := by cases operation <;> decide
  have hany : Operation.all.any (fun o => (s.root o).isSome) = true :=
    List.any_eq_true.mpr ⟨operation, hall, by rw [hroot]; rfl⟩
  rw [needsSchemaBlock, hany, Bool.true_and, Bool.not_eq_false', Bool.and_eq_true] at hblock
  have hconventional := List.all_eq_true.mp hblock.1 operation hall
  rw [hroot] at hconventional
  exact beq_iff_eq.mp hconventional

theorem kindIn_root {s : Schema} (hc : check s = .ok ()) {operation : Operation} {name : String}
    (hroot : s.root operation = some name) : kindIn s name = some .object := by
  obtain ⟨kind, hkind, hobject⟩ := kind_of_check hc (root_mem_references hroot)
  rw [hkind, hobject .object rfl]

theorem denotedRoot_eq_iff {s : Schema} (hc : check s = .ok ()) (operation : Operation) :
    denotedRoot (told s) operation = s.root operation ↔ needsSchemaBlock s = true ∨
      (s.root operation = none → kindIn s operation.conventionalRoot ≠ some .object) := by
  rw [denotedRoot_told]
  cases hblock : needsSchemaBlock s with
  | true => simp
  | false =>
    cases hroot : s.root operation with
    | none => simp
    | some name =>
      obtain rfl := eq_conventionalRoot hblock hroot
      simp [kindIn_root hc hroot]

/-- **A printed schema denotes its root types**, unless an operation has none, an object has the
conventional name of one and there is no schema block. Where names are names and default values are
plain, nothing else can be read from the text. -/
theorem denotedRoot_of_print {s : Schema} {text : List Char} (h : print .shown s = .ok text)
    (operation : Operation) :
    writeAll .shown ((definitions s).map Definition.document) = text ∧
    (denotedRoot (told s) operation = s.root operation ↔ needsSchemaBlock s = true ∨
      (s.root operation = none → kindIn s operation.conventionalRoot ≠ some .object)) ∧
    ((∀ name ∈ declaredNames s, isName name = true) →
      (∀ v ∈ inputValues s, ∀ d ∈ v.defaultValue, Plain d) →
      ∀ ds : List Definition, (∀ d ∈ ds, d.Named) →
        writeAll .shown (ds.map Definition.document) = text →
          denotedRoot (ds.map Definition.told) operation = denotedRoot (told s) operation) := by
  obtain ⟨hc, htext⟩ := print_eq_ok_iff.mp h
  rw [documents_eq] at htext
  refine ⟨htext, denotedRoot_eq_iff hc operation, fun names defaults ds hds hsame => ?_⟩
  have hnamed := named_definitions (named_of_check hc names defaults)
  have htexts := congrArg (· ++ []) (hsame.trans htext.symm)
  have htold : ds.map Definition.told = told s :=
    (legible_definitions hds hnamed rfl rfl htexts).1
  rw [htold]

/-- A schema without a mutation root in which no object is called `Mutation`. -/
def plain : Schema where
  description := none
  query := some "Query"
  mutation := none
  subscription := none
  types := .ofList [⟨"Query", none, .object [] [⟨"field", none, [], .named "Mutation", none⟩]⟩,
    ⟨"Mutation", none, .scalar none⟩]
  directives := []

theorem denotedRoot_of_print_plain :
    ∃ text, print .shown plain = .ok text ∧
      (∀ name ∈ declaredNames plain, isName name = true) ∧
      (∀ v ∈ inputValues plain, ∀ d ∈ v.defaultValue, Plain d) ∧
      (∀ operation, denotedRoot (told plain) operation = plain.root operation) ∧
      ∀ ds : List Definition, (∀ d ∈ ds, d.Named) →
        writeAll .shown (ds.map Definition.document) = text →
          ∀ operation, denotedRoot (ds.map Definition.told) operation = plain.root operation := by
  have h : print .shown plain = .ok
      "type Query \x7b\n  field: Mutation\n\x7d\n\nscalar Mutation".toList := by decide +kernel
  have names : ∀ name ∈ declaredNames plain, isName name = true := by decide
  have defaults : ∀ v ∈ inputValues plain, ∀ d ∈ v.defaultValue, Plain d := by decide
  have hroot (operation : Operation) : plain.root operation = none →
      kindIn plain operation.conventionalRoot ≠ some .object := by
    cases operation <;> decide +kernel
  have denoted (operation : Operation) :
      denotedRoot (told plain) operation = plain.root operation :=
    (denotedRoot_of_print h operation).2.1.mpr (.inr (hroot operation))
  exact ⟨_, h, names, defaults, denoted, fun ds hds hsame operation =>
    ((denotedRoot_of_print h operation).2.2 names defaults ds hds hsame).trans (denoted operation)⟩

/-- A schema without a mutation root in which an object is called `Mutation` all the same. -/
def stray : Schema where
  description := none
  query := some "Query"
  mutation := none
  subscription := none
  types := .ofList [⟨"String", none, .scalar none⟩,
    ⟨"Query", none, .object [] [⟨"last", none, [], .named "Mutation", none⟩]⟩,
    ⟨"Mutation", none, .object [] [⟨"gene", none, [], .named "String", none⟩]⟩]
  directives := []

/-- The object passes for the root of an operation that the schema does not have. -/
theorem denotedRoot_stray :
    print .shown stray = .ok ("type Query \x7b\n  last: Mutation\n\x7d\n\n" ++
      "type Mutation \x7b\n  gene: String\n\x7d").toList ∧
    denotedRoot (told stray) .mutation = some "Mutation" ∧ stray.root .mutation = none :=
  ⟨by decide +kernel, by decide +kernel, rfl⟩

end IntrospectSdl.Proofs.Legibility.Roots
