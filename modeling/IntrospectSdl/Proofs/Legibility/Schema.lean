import IntrospectSdl.Proofs.Legibility.Definitions
import IntrospectSdl.Proofs.Printing.Acceptance

/-! # Legibility: schemas

A printed schema is a list of definitions with blank lines between them. Each is a description, an
opening that tells what is defined, and a content that is read according to the opening
(`legible_definition`). So the text of a schema tells its schema block, its directives and its
types, except for those that every service provides. -/

namespace IntrospectSdl.Proofs.Legibility.Schema

open IntrospectSdl.Sdl IntrospectSdl.Proofs.BlockString.Layout
open IntrospectSdl.Proofs.Legibility.Basic IntrospectSdl.Proofs.Legibility.Atoms
open IntrospectSdl.Proofs.Legibility.Members IntrospectSdl.Proofs.Legibility.Definitions
open IntrospectSdl.Proofs.Printing.Acceptance IntrospectSdl.Proofs.Printing.Names

/-! ### Directives -/

theorem legible_locations : Legible Any AfterDefinition
    (fun locations => List.intercalate " | ".toList (locations.map (·.name.toList)))
    (id : List Location → List Location) := by
  have hstart : ∀ l : Location, Begins isNameStart l.name.toList := by
    intro l
    cases l <;> rfl
  have hstop : ∀ r, AfterDefinition r → ¬ Begins isNameStart r := fun r hr =>
    hr.not_begins fun c hc => by rw [beq_iff_eq.mp hc]; rfl
  refine ((legible_location.intercalate (Begins isNameStart) (fun l r _ => (hstart l).append r)
    hstop (fun r hr => ?_) fun r hr => ?_).mono (fun _ _ _ _ => trivial) fun _ => id).view
    fun _ _ _ _ h => by simpa using h
  · exact AfterHead.not_prefix (Or.inl hr) (by decide) _
  · rcases hr with ⟨t, rfl⟩ | hr
    · rfl
    · exact hr.follows_name

/-- What is behind the arguments of a directive. -/
def directiveEnd (d : Directive) : List Char :=
  (if d.repeatable then " repeatable".toList else []) ++
    (" on ".toList ++ List.intercalate " | ".toList (d.locations.map (·.name.toList)))

theorem legible_directiveEnd : Legible Any AfterDefinition directiveEnd
    fun d => (d.repeatable, d.locations) := by
  have mark : Legible Any (" on".toList <+: ·)
      (fun d : Directive => if d.repeatable then " repeatable".toList else []) (·.repeatable) := by
    refine (Legible.flag ?_).part _ Directive.repeatable fun _ => id
    rintro r ⟨t, rfl⟩ ⟨u, hu⟩
    exact absurd (List.cons_eq_cons.mp (List.cons_eq_cons.mp hu).2).1 (by decide)
  have locations := (legible_locations.text_append " on ".toList).part Any Directive.locations
    fun _ => id
  exact mark.append locations fun _ _ _ _ => ⟨_, rfl⟩

/-- A directive, from its name on. -/
def directiveContent (d : Directive) : List Char :=
  d.name.toList ++ (argumentList 0 d.arguments).write .shown ++ directiveEnd d

theorem legible_directiveContent : Legible (NamedDirective Plain) AfterDefinition directiveContent
    fun d => ((d.name, d.arguments.map toldInput), (d.repeatable, d.locations)) := by
  have name := legible_name.part (NamedDirective Plain) Directive.name fun _ h => h.name
  have arguments := (legible_argumentList 0).part (NamedDirective Plain) Directive.arguments
    fun _ h => h.arguments
  have tail := legible_directiveEnd.part (NamedDirective Plain) id fun _ _ => trivial
  refine (name.append arguments fun d r _ hr => follows_argumentList 0 d.arguments hr).append tail
    fun d r _ _ => ?_
  unfold directiveEnd
  cases d.repeatable <;> rfl

/-! ### The schema block -/

/-- What a schema block says. -/
structure SchemaBlock where
  description : Option String
  query : Option String
  mutation : Option String
  subscription : Option String
deriving DecidableEq, Repr

/-- The schema block as its text tells it. -/
def toldBlock (s : Schema) : SchemaBlock :=
  ⟨s.description.map unified, s.query, s.mutation, s.subscription⟩

/-- The operations that have a root type, with its name. -/
def roots (s : Schema) : List (Operation × String) :=
  Operation.all.filterMap fun operation => (s.root operation).map (operation, ·)

theorem mem_roots {s : Schema} {operation : Operation} {name : String} :
    (operation, name) ∈ roots s ↔ s.root operation = some name := by
  have hall : operation ∈ Operation.all := by cases operation <;> decide
  simp [roots, List.mem_filterMap, hall]

theorem toldBlock_eq {s₁ s₂ : Schema}
    (hd : s₁.description.map unified = s₂.description.map unified) (hr : roots s₁ = roots s₂) :
    toldBlock s₁ = toldBlock s₂ := by
  have hroot : ∀ operation, s₁.root operation = s₂.root operation := fun operation =>
    Option.ext fun name => by rw [← mem_roots, hr, mem_roots]
  exact SchemaBlock.mk.injEq .. |>.mpr ⟨hd, hroot .query, hroot .mutation, hroot .subscription⟩

/-- The line of a root type. -/
def rootPairLine (p : Operation × String) : List Char :=
  spaces step ++ p.1.keyword.toList ++ (": ".toList ++ p.2.toList ++ ['\n'])

theorem flatMap_rootLine (s : Schema) :
    Operation.all.flatMap (rootLine s) = (roots s).flatMap rootPairLine := by
  have hline : ∀ operation, rootLine s operation =
      ((s.root operation).map (operation, ·)).elim [] rootPairLine := fun operation => by
    unfold rootLine
    cases s.root operation <;> simp [rootPairLine]
  rw [roots]
  generalize Operation.all = operations
  induction operations with
  | nil => rfl
  | cons operation operations ih =>
    rw [List.flatMap_cons, hline, ih, List.filterMap_cons]
    cases (s.root operation).map (operation, ·) <;> rfl

theorem legible_roots : Legible (fun l => ∀ p ∈ l, isName p.2 = true) (Begins (· == '\x7d'))
    (List.flatMap rootPairLine) (id : List (Operation × String) → _) := by
  have keyword : Legible Any Any (fun o : Operation => o.keyword.toList) id :=
    Legible.of_prefix fun a b => by cases a <;> cases b <;> decide
  have name : Legible (fun p : Operation × String => isName p.2 = true) Any
      (fun p => ": ".toList ++ p.2.toList ++ ['\n']) (·.2) :=
    ((legible_name.part _ Prod.snd fun _ h => h).text_append ": ".toList).append_text _
      fun _ _ => rfl
  have line : Legible (fun p : Operation × String => isName p.2 = true) Any rootPairLine
      (fun p => (p.1, p.2)) :=
    ((keyword.part _ Prod.fst fun _ _ => trivial).text_append (spaces step)).append name
      fun _ _ _ _ => trivial
  refine (line.flatMap (Begins (· == ' ')) (fun _ _ _ => rfl) (fun r hr => ?_)
    fun _ _ => trivial).view fun _ _ _ _ h => by simpa using h
  exact hr.follows.not_begins fun c hc => by rw [beq_iff_eq.mp hc]; rfl

/-! ### Definitions -/

/-- A definition of a schema. -/
inductive Definition where
  | block (s : Schema)
  | directive (d : Directive)
  | type (t : TypeDefinition)

/-- A definition as its text tells it. -/
inductive Told where
  | block (b : SchemaBlock)
  | directive (d : Directive)
  | type (t : TypeDefinition)
deriving DecidableEq, Repr

namespace Told

def block? : Told → Option SchemaBlock
  | .block b => some b
  | _ => none

def directive? : Told → Option Directive
  | .directive d => some d
  | _ => none

def type? : Told → Option TypeDefinition
  | .type t => some t
  | _ => none

end Told

/-- What a definition begins with behind its description. -/
inductive Opening where
  | block
  | directive
  | type (kind : TypeKind)
deriving DecidableEq, Repr

/-- The text of an opening. -/
def Opening.text : Opening → List Char
  | .block => "schema \x7b\n".toList
  | .directive => "directive @".toList
  | .type kind => (keyword kind).toList

namespace Definition

/-- The definition in pieces. -/
def document : Definition → Document
  | .block s => schemaDocument s
  | .directive d => directiveDocument d
  | .type t => typeDocument t

/-- What the text of the definition tells. -/
def told : Definition → Told
  | .block s => .block (toldBlock s)
  | .directive d => .directive (toldDirective d)
  | .type t => .type (toldType t)

/-- The description in front of the definition. -/
def description : Definition → Option String
  | .block s => s.description
  | .directive d => d.description
  | .type t => t.description

/-- The opening of the definition. -/
def opening : Definition → Opening
  | .block _ => .block
  | .directive _ => .directive
  | .type t => .type t.kind

/-- What is behind the opening. -/
def content : Definition → List Char
  | .block s => (roots s).flatMap rootPairLine ++ "\x7d".toList
  | .directive d => directiveContent d
  | .type t => t.name.toList ++ (bodyDocument t.body).write .shown

/-- All names of the definition are names, and its default values are plain. -/
def Named : Definition → Prop
  | .block s => ∀ operation, ∀ name ∈ s.root operation, isName name = true
  | .directive d => NamedDirective Plain d
  | .type t => NamedType Plain t

theorem write_document (d : Definition) : d.document.write .shown =
    (describe 0 d.description).write .shown ++ (d.opening.text ++ d.content) := by
  cases d with
  | block s =>
    change (schemaDocument s).write .shown = (describe 0 s.description).write .shown ++
      ("schema \x7b\n".toList ++ ((roots s).flatMap rootPairLine ++ "\x7d".toList))
    rw [← flatMap_rootLine]
    simp [schemaDocument]
  | directive d =>
    change (directiveDocument d).write .shown = (describe 0 d.description).write .shown ++
      ("directive @".toList ++ directiveContent d)
    rw [directiveDocument, directiveContent, directiveEnd]
    simp only [Document.write_append, Document.write_cons, Document.write_nil, Piece.write_source,
      List.cons_append, List.append_assoc, List.append_nil]
  | type t =>
    change (typeDocument t).write .shown = (describe 0 t.description).write .shown ++
      ((keyword t.kind).toList ++ (t.name.toList ++ (bodyDocument t.body).write .shown))
    rw [typeDocument]
    simp only [Document.write_append, Document.write_cons, Piece.write_source, List.append_assoc]

end Definition

theorem Opening.eq_of_prefix (a b : Opening) (h : a.text <+: b.text) : a = b := by
  revert h
  rcases a with _ | _ | (_ | _ | _ | _ | _ | _) <;>
    rcases b with _ | _ | (_ | _ | _ | _ | _ | _) <;> decide

theorem Opening.begins_text (o : Opening) : Begins isNameStart o.text := by
  rcases o with _ | _ | (_ | _ | _ | _ | _ | _) <;> rfl

/-- **A definition is told by its text.** -/
theorem legible_definition : Legible Definition.Named AfterDefinition
    (fun d => d.document.write .shown) Definition.told := by
  intro a b r s ha hb hr hs h
  simp only [Definition.write_document, List.append_assoc] at h
  have described : ∀ (o : Opening) (rest : List Char), Described 0 (o.text ++ rest) :=
    fun o rest => described_of_begins o.begins_text rest
  obtain ⟨hd, h⟩ := legible_describe 0 trivial trivial (described _ _) (described _ _) h
  obtain ⟨ho, h⟩ := Legible.of_prefix Opening.eq_of_prefix trivial trivial trivial trivial h
  cases a with
  | block s₁ =>
    cases b with
    | block s₂ =>
      have named : ∀ {t : Schema}, (Definition.block t).Named → ∀ p ∈ roots t, isName p.2 = true :=
        fun ht p hp => ht p.1 p.2 (mem_roots.mp hp)
      have content := legible_roots.append_text "\x7d".toList (fun r (_ : Any r) => rfl)
      obtain ⟨hroots, hrs⟩ := content (named ha) (named hb) trivial trivial h
      exact ⟨congrArg Told.block (toldBlock_eq hd hroots), hrs⟩
    | _ => cases ho
  | directive d₁ =>
    cases b with
    | directive d₂ =>
      obtain ⟨hparts, hrs⟩ := legible_directiveContent ha hb hr hs h
      simp only [Prod.mk.injEq] at hparts
      obtain ⟨⟨hn, hargs⟩, hrep, hloc⟩ := hparts
      refine ⟨congrArg Told.directive ?_, hrs⟩
      exact Directive.mk.injEq .. |>.mpr ⟨hn, hd, hargs, hrep, hloc⟩
    | _ => cases ho
  | type t₁ =>
    cases b with
    | type t₂ =>
      have hkind : t₁.kind = t₂.kind := Opening.type.inj ho
      simp only [Definition.content, List.append_assoc] at h
      obtain ⟨hn, h⟩ := legible_name ha.name hb.name (follows_bodyDocument _ hr)
        (follows_bodyDocument _ hs) h
      obtain ⟨hbody, hrs⟩ := toldBody_eq hkind ha.body hb.body hr hs h
      refine ⟨congrArg Told.type ?_, hrs⟩
      exact TypeDefinition.mk.injEq .. |>.mpr ⟨hn, hd, hbody⟩
    | _ => cases ho

/-! ### Schemas -/

/-- The definitions of a schema, in order. -/
def definitions (s : Schema) : List Definition :=
  (if needsSchemaBlock s then [.block s] else []) ++
    (printedDirectives s).map .directive ++ (printedTypes s).map .type

theorem documents_eq (s : Schema) : documents s = (definitions s).map Definition.document := by
  rw [documents, definitions, List.map_append, List.map_append, List.map_map, List.map_map]
  split_ifs <;> rfl

theorem named_definitions {s : Schema} (h : NamedSchema Plain s) :
    ∀ d ∈ definitions s, d.Named := by
  intro d hd
  rw [definitions, List.mem_append, List.mem_append] at hd
  rcases hd with (hd | hd) | hd
  · split_ifs at hd
    · rw [List.mem_singleton.mp hd]
      exact h.roots
    · cases hd
  · obtain ⟨directive, hm, rfl⟩ := List.mem_map.mp hd
    exact h.directives _ (List.mem_filter.mp hm).1
  · obtain ⟨t, hm, rfl⟩ := List.mem_map.mp hd
    exact h.types _ (List.mem_filter.mp hm).1

/-- **The text of definitions tells each of them.** -/
theorem legible_definitions : Legible (fun l => ∀ d ∈ l, d.Named) (· = [])
    (fun l => writeAll .shown (l.map Definition.document)) (List.map Definition.told) := by
  have hstart : ∀ d : Definition, Begins (· != '\n') (d.document.write .shown) := by
    intro d
    rw [Definition.write_document]
    cases d.description with
    | none =>
      refine Begins.append (d.opening.begins_text.mono fun c hc => ?_) _
      rw [bne_iff_ne]
      rintro rfl
      revert hc
      decide
    | some text => rfl
  simp only [writeAll, List.map_map]
  refine legible_definition.intercalate (Begins (· != '\n'))
    (fun d r _ => (hstart d).append r) ?_ ?_ ?_
  · rintro _ rfl
    exact Bool.false_ne_true
  · rintro _ rfl ⟨t, ht⟩
    cases ht
  · rintro _ (⟨t, rfl⟩ | rfl)
    · rfl
    · rfl

/-- The schema block as the text tells it, if it is printed. -/
def toldBlock? (s : Schema) : Option SchemaBlock :=
  if needsSchemaBlock s then some (toldBlock s) else none

theorem map_told_definitions (s : Schema) :
    (definitions s).map Definition.told = (toldBlock? s).toList.map Told.block ++
      ((printedDirectives s).map toldDirective).map Told.directive ++
      ((printedTypes s).map toldType).map Told.type := by
  simp only [definitions, List.map_append, List.map_map, toldBlock?]
  split_ifs <;> rfl

theorem told_of_definitions {s₁ s₂ : Schema}
    (h : (definitions s₁).map Definition.told = (definitions s₂).map Definition.told) :
    toldBlock? s₁ = toldBlock? s₂ ∧
      (printedDirectives s₁).map toldDirective = (printedDirectives s₂).map toldDirective ∧
      (printedTypes s₁).map toldType = (printedTypes s₂).map toldType := by
  rw [map_told_definitions, map_told_definitions] at h
  have hblock := congrArg (List.filterMap Told.block?) h
  have hdirectives := congrArg (List.filterMap Told.directive?) h
  have htypes := congrArg (List.filterMap Told.type?) h
  simp only [List.filterMap_append, List.filterMap_map, Function.comp_def, Told.block?,
    Told.directive?, Told.type?, List.filterMap_some, List.filterMap_none, List.filterMap_eq_map',
    List.nil_append, List.append_nil] at hblock hdirectives htypes
  exact ⟨by simpa using congrArg List.head? hblock, hdirectives, htypes⟩

/-- **The text of a schema tells the schema**: its schema block, if there is one, its directives and
its types, except for those that every service provides. -/
theorem told_of_print_eq {s₁ s₂ : Schema} {text : List Char} (h₁ : print .shown s₁ = .ok text)
    (h₂ : print .shown s₂ = .ok text) (names₁ : ∀ name ∈ declaredNames s₁, isName name = true)
    (names₂ : ∀ name ∈ declaredNames s₂, isName name = true)
    (defaults₁ : ∀ v ∈ inputValues s₁, ∀ d ∈ v.defaultValue, Plain d)
    (defaults₂ : ∀ v ∈ inputValues s₂, ∀ d ∈ v.defaultValue, Plain d) :
    toldBlock? s₁ = toldBlock? s₂ ∧
      (printedDirectives s₁).map toldDirective = (printedDirectives s₂).map toldDirective ∧
      (printedTypes s₁).map toldType = (printedTypes s₂).map toldType := by
  obtain ⟨hc₁, ht₁⟩ := print_eq_ok_iff.mp h₁
  obtain ⟨hc₂, ht₂⟩ := print_eq_ok_iff.mp h₂
  have hn₁ := named_definitions (named_of_check hc₁ names₁ defaults₁)
  have hn₂ := named_definitions (named_of_check hc₂ names₂ defaults₂)
  have h := congrArg (· ++ []) (ht₁.trans ht₂.symm)
  rw [documents_eq, documents_eq] at h
  exact told_of_definitions (legible_definitions hn₁ hn₂ rfl rfl h).1

/-- A schema with line ends of two characters and a deprecation without a reason. -/
def unifiedBefore : Schema where
  description := none
  query := some "Query"
  mutation := none
  subscription := none
  types := .ofList [⟨"Int", none, .scalar none⟩, ⟨"Query", some "first\r\nlast", .object []
    [⟨"field", none, [⟨"argument", none, .nonNull (.named "Int"), some "1 ", none⟩], .named "Int",
      some ⟨none⟩⟩]⟩]
  directives := []

/-- The same schema with line feeds and the usual reason. -/
def unifiedAfter : Schema where
  description := none
  query := some "Query"
  mutation := none
  subscription := none
  types := .ofList [⟨"Query", some "first\nlast", .object []
    [⟨"field", none, [⟨"argument", none, .nonNull (.named "Int"), some "1 ", none⟩], .named "Int",
      some ⟨some "No longer supported"⟩⟩]⟩, ⟨"Int", none, .scalar (some "specification")⟩]
  directives := []

/-- The text of both. -/
def unifiedText : List Char :=
  ("\"\"\"\nfirst\nlast\n\"\"\"\ntype Query \x7b\n" ++
    "  field(argument: Int! = 1 ): Int @deprecated\n\x7d").toList

theorem told_of_print_eq_unified :
    (print .shown unifiedBefore = .ok unifiedText ∧ print .shown unifiedAfter = .ok unifiedText) ∧
    ((∀ name ∈ declaredNames unifiedBefore, isName name = true) ∧
      ∀ name ∈ declaredNames unifiedAfter, isName name = true) ∧
    ((∀ v ∈ inputValues unifiedBefore, ∀ d ∈ v.defaultValue, Plain d) ∧
      ∀ v ∈ inputValues unifiedAfter, ∀ d ∈ v.defaultValue, Plain d) ∧
    toldBlock? unifiedBefore = toldBlock? unifiedAfter ∧
    (printedDirectives unifiedBefore).map toldDirective =
      (printedDirectives unifiedAfter).map toldDirective ∧
    (printedTypes unifiedBefore).map toldType = (printedTypes unifiedAfter).map toldType := by
  have h₁ : print .shown unifiedBefore = .ok unifiedText := by decide +kernel
  have h₂ : print .shown unifiedAfter = .ok unifiedText := by decide +kernel
  have n₁ : ∀ name ∈ declaredNames unifiedBefore, isName name = true := by decide
  have n₂ : ∀ name ∈ declaredNames unifiedAfter, isName name = true := by decide
  have d₁ : ∀ v ∈ inputValues unifiedBefore, ∀ d ∈ v.defaultValue, Plain d := by decide
  have d₂ : ∀ v ∈ inputValues unifiedAfter, ∀ d ∈ v.defaultValue, Plain d := by decide
  exact ⟨⟨h₁, h₂⟩, ⟨n₁, n₂⟩, ⟨d₁, d₂⟩, told_of_print_eq h₁ h₂ n₁ n₂ d₁ d₂⟩

end IntrospectSdl.Proofs.Legibility.Schema
