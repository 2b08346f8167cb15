import IntrospectSdl.Proofs.Printing.OneLine
import IntrospectSdl.Proofs.Stripping.Progress

/-! # Stripping: printed schemas

In the documents of a schema every description begins a line and no source line begins with a quote,
as long as names are names and default values stay on their lines (`advanceDocument_documents`). So
stripping a printed schema gives the schema as it is printed without descriptions. -/

namespace IntrospectSdl.Proofs.Stripping.Schema

open IntrospectSdl.Sdl IntrospectSdl.Sdl.Stripping
open IntrospectSdl.Proofs.BlockString.Layout
open IntrospectSdl.Proofs.Printing.Acceptance IntrospectSdl.Proofs.Printing.Names
open IntrospectSdl.Proofs.Printing.OneLine IntrospectSdl.Proofs.Stripping.Progress

/-! ### Source text on a line -/

theorem advanceAll_settled {text : List Char} (h : NoBreak text) :
    advanceAll .settled text = some .settled := by
  induction text with
  | nil => rfl
  | cons c text ih =>
    rw [noBreak_cons] at h
    rw [advanceAll_cons, advance, if_neg h.1, if_pos rfl]
    exact ih h.2

theorem advanceAll_indented {c : Char} {text : List Char} (hb : isBlank c = false) (hq : c ≠ '"')
    (h : NoBreak (c :: text)) (indent : Nat) :
    advanceAll .start (spaces indent ++ c :: text) = some .settled := by
  rw [noBreak_cons] at h
  have settle : ∀ state, advanceAll state (c :: text) = some .settled := by
    intro state
    rw [advanceAll_cons, advance, if_neg h.1]
    by_cases hs : state = .settled
    · rw [if_pos hs]
      exact advanceAll_settled h.2
    · rw [if_neg hs, if_neg (by simp [hb]), if_neg hq]
      exact advanceAll_settled h.2
  have blank : ∀ n, ∃ state, advanceAll .start (spaces n) = some state := by
    intro n
    induction n with
    | zero => exact ⟨_, rfl⟩
    | succ n ih =>
      obtain ⟨state, hstate⟩ := ih
      rw [spaces, List.replicate_succ', advanceAll_append, ← spaces, hstate]
      cases state <;> exact ⟨_, rfl⟩
  obtain ⟨state, hstate⟩ := blank indent
  rw [advanceAll_append, hstate]
  exact settle state

theorem isBlank_of_isNameStart {c : Char} (h : isNameStart c = true) :
    isBlank c = false ∧ c ≠ '"' := by
  constructor
  · rw [Bool.eq_false_iff]
    intro hb
    rw [isBlank, Bool.or_eq_true, decide_eq_true_eq, decide_eq_true_eq] at hb
    rcases hb with rfl | rfl <;> revert h <;> decide
  · rintro rfl
    revert h
    decide

theorem advanceAll_name {name : String} (hn : isName name = true) {text : List Char}
    (h : NoBreak text) (indent : Nat) :
    advanceAll .start (spaces indent ++ (name.toList ++ text)) = some .settled := by
  have hbreak : NoBreak (name.toList ++ text) := noBreak_append.mpr ⟨noBreak_of_isName hn, h⟩
  obtain ⟨c, rest, hc, hs, -⟩ := isName_iff.mp hn
  obtain ⟨hb, hq⟩ := isBlank_of_isNameStart hs
  rw [hc, List.cons_append] at hbreak ⊢
  exact advanceAll_indented hb hq hbreak indent

theorem advanceAll_lineFeed {state : LineState} {text : List Char}
    (h : advanceAll state text = some .settled) :
    advanceAll state (text ++ ['\n']) = some .start := by
  rw [advanceAll_append, h]
  rfl

/-! ### Documents -/

theorem advanceDocument_source (state : LineState) (text : List Char) (document : Document) :
    advanceDocument state (.source text :: document) =
      (advanceAll state text).bind (advanceDocument · document) := rfl

theorem advanceDocument_source_one (state : LineState) (text : List Char) :
    advanceDocument state [.source text] = advanceAll state text := by
  rw [advanceDocument_source]
  cases advanceAll state text <;> rfl

theorem advanceDocument_describe (indent : Nat) (description : Option String) :
    advanceDocument .start (describe indent description) = some .start := by
  cases description <;> rfl

theorem advanceDocument_flatten {documents : List Document}
    (h : ∀ d ∈ documents, advanceDocument .start d = some .start) :
    advanceDocument .start documents.flatten = some .start := by
  induction documents with
  | nil => rfl
  | cons d documents ih =>
    rw [List.forall_mem_cons] at h
    rw [List.flatten_cons, advanceDocument_append, h.1]
    exact ih h.2

theorem advanceDocument_block {members : List Document}
    (h : ∀ d ∈ members, advanceDocument .start d = some .start) :
    advanceDocument .settled (block members) = some .settled := by
  have hopen : advanceAll .settled " \x7b\n".toList = some .start := by decide
  have hclose : advanceAll .start "\x7d".toList = some .settled := by decide
  unfold block
  split_ifs
  · rfl
  · rw [List.cons_append, source, advanceDocument_source, hopen, Option.bind_some,
      advanceDocument_append, advanceDocument_flatten h, Option.bind_some, source,
      advanceDocument_source_one, hclose]

theorem inputValue_eq (v : InputValue) : inputValue v = v.name.toList ++
    (": ".toList ++ v.type.chars ++ defaultMark v.defaultValue ++
      deprecationMark v.deprecation) := by
  simp [inputValue]

section

variable {v : InputValue} (h : NamedInput (fun d => NoBreak d.toList) v)
include h

theorem advanceDocument_inputValueLine (indent : Nat) :
    advanceDocument .start (inputValueLine indent v) = some .start := by
  have hline : NoBreak (inputValue v) := noBreak_inputValue h
  rw [inputValue_eq, noBreak_append] at hline
  rw [inputValueLine, advanceDocument_append, advanceDocument_describe, Option.bind_some,
    advanceDocument_source_one, inputValue_eq]
  exact advanceAll_lineFeed (advanceAll_name h.name hline.2 indent)

end

theorem advanceDocument_argumentList {arguments : List InputValue}
    (h : ∀ a ∈ arguments, NamedInput (fun d => NoBreak d.toList) a) (indent : Nat) :
    advanceDocument .settled (argumentList indent arguments) = some .settled := by
  unfold argumentList
  split_ifs
  · rfl
  · have hline : NoBreak (List.intercalate ", ".toList (arguments.map inputValue)) :=
      noBreak_intercalate (by decide)
        (List.forall_mem_map.mpr fun a ha => noBreak_inputValue (h a ha))
    rw [advanceDocument_source_one, advanceAll_settled]
    rw [List.cons_append, noBreak_cons, noBreak_append]
    exact ⟨by decide, hline, by decide⟩
  · have hopen : advanceAll .settled "(\n".toList = some .start := by decide
    have hbody : advanceDocument .start (arguments.flatMap (inputValueLine (indent + step))) =
        some .start := by
      rw [List.flatMap_def]
      exact advanceDocument_flatten (List.forall_mem_map.mpr fun a ha =>
        advanceDocument_inputValueLine (h a ha) _)
    rw [List.cons_append, source, advanceDocument_source, hopen, Option.bind_some,
      advanceDocument_append, hbody, Option.bind_some, advanceDocument_source_one]
    exact advanceAll_indented rfl (by decide) (by decide) indent

theorem advanceDocument_fieldLines {f : Field} (h : NamedField (fun d => NoBreak d.toList) f) :
    advanceDocument .start (fieldLines f) = some .start := by
  have hname : advanceAll .start (spaces step ++ f.name.toList) = some .settled := by
    have : advanceAll .start (spaces step ++ (f.name.toList ++ [])) = some .settled :=
      advanceAll_name h.name (by decide) step
    rwa [List.append_nil] at this
  have hend : NoBreak (": ".toList ++ f.type.chars ++ deprecationMark f.deprecation) := by
    rw [noBreak_append, noBreak_append]
    exact ⟨⟨by decide, noBreak_chars h.type⟩, noBreak_deprecationMark _⟩
  rw [fieldLines, advanceDocument_append, advanceDocument_append, advanceDocument_append,
    advanceDocument_describe, Option.bind_some, advanceDocument_source_one, hname,
    Option.bind_some, advanceDocument_argumentList h.arguments, Option.bind_some,
    advanceDocument_source_one]
  exact advanceAll_lineFeed (advanceAll_settled hend)

theorem advanceDocument_enumValueLines {v : EnumValue} (h : isName v.name = true) :
    advanceDocument .start (enumValueLines v) = some .start := by
  rw [enumValueLines, advanceDocument_append, advanceDocument_describe, Option.bind_some,
    advanceDocument_source_one, List.append_assoc (spaces step)]
  exact advanceAll_lineFeed (advanceAll_name h (noBreak_deprecationMark _) step)

theorem advanceDocument_bodyDocument {body : TypeBody}
    (h : NamedBody (fun d => NoBreak d.toList) body) :
    advanceDocument .settled (bodyDocument body) = some .settled := by
  have composite : ∀ (interfaces : List String) (fields : List Field),
      (∀ n ∈ interfaces, isName n = true) →
      (∀ f ∈ fields, NamedField (fun d => NoBreak d.toList) f) →
      advanceDocument .settled
        (.source (implementsMark interfaces) :: block (fields.map fieldLines)) = some .settled := by
    intro interfaces fields hi hf
    have hmark := noBreak_implementsMark fun n hn => noBreak_of_isName (hi n hn)
    rw [advanceDocument_source, advanceAll_settled hmark, Option.bind_some]
    exact advanceDocument_block (List.forall_mem_map.mpr fun f hm =>
      advanceDocument_fieldLines (hf f hm))
  cases body with
  | scalar url =>
    cases url with
    | none => rfl
    | some url =>
      rw [bodyDocument, advanceDocument_source_one, advanceAll_settled (noBreak_specifiedBy url)]
  | object interfaces fields => exact composite interfaces fields h.1 h.2
  | interface interfaces fields => exact composite interfaces fields h.1 h.2
  | union members =>
    rw [bodyDocument]
    split_ifs
    · rfl
    · rw [advanceDocument_source_one,
        advanceAll_settled (noBreak_members fun n hn => noBreak_of_isName (h n hn))]
  | enum values =>
    exact advanceDocument_block (List.forall_mem_map.mpr fun v hv =>
      advanceDocument_enumValueLines (h v hv))
  | inputObject oneOf fields =>
    rw [bodyDocument, advanceDocument_source, advanceAll_settled (noBreak_oneOf oneOf),
      Option.bind_some]
    exact advanceDocument_block (List.forall_mem_map.mpr fun f hf =>
      advanceDocument_inputValueLine (h f hf) step)

/-! ### Definitions -/

theorem advanceDocument_typeDocument {t : TypeDefinition}
    (h : NamedType (fun d => NoBreak d.toList) t) :
    advanceDocument .start (typeDocument t) = some .settled := by
  have hkeyword : advanceAll .start (keyword t.kind).toList = some .settled := by
    cases t.kind <;> decide
  rw [typeDocument, advanceDocument_append, advanceDocument_describe, Option.bind_some,
    advanceDocument_source, advanceAll_append, hkeyword, Option.bind_some,
    advanceAll_settled (noBreak_of_isName h.name), Option.bind_some]
  exact advanceDocument_bodyDocument h.body

theorem advanceDocument_directiveDocument {d : Directive}
    (h : NamedDirective (fun d => NoBreak d.toList) d) :
    advanceDocument .start (directiveDocument d) = some .settled := by
  have hkeyword : advanceAll .start "directive @".toList = some .settled := by decide
  have hrepeatable : NoBreak (if d.repeatable then " repeatable".toList else []) := by
    cases d.repeatable <;> decide
  have hlocations : NoBreak (List.intercalate " | ".toList (d.locations.map (·.name.toList))) :=
    noBreak_intercalate (by decide) (List.forall_mem_map.mpr fun l _ => noBreak_location l)
  rw [directiveDocument, advanceDocument_append, advanceDocument_append, advanceDocument_describe,
    Option.bind_some, advanceDocument_source, advanceAll_append, hkeyword, Option.bind_some,
    advanceAll_settled (noBreak_of_isName h.name), Option.bind_some,
    advanceDocument_argumentList h.arguments, Option.bind_some, advanceDocument_source_one,
    advanceAll_settled]
  rw [noBreak_append, noBreak_append]
  exact ⟨⟨hrepeatable, by decide⟩, hlocations⟩

theorem advanceAll_rootLine {s : Schema} {operation : Operation}
    (h : ∀ name ∈ s.root operation, isName name = true) :
    advanceAll .start (rootLine s operation) = some .start := by
  have hkeyword : isName operation.keyword = true := by cases operation <;> decide
  unfold rootLine
  split
  · rfl
  · next name hroot =>
    have htext : NoBreak (": ".toList ++ name.toList) :=
      noBreak_append.mpr ⟨by decide, noBreak_of_isName (h name hroot)⟩
    have := advanceAll_lineFeed (advanceAll_name hkeyword htext step)
    simpa using this

theorem advanceDocument_schemaDocument {s : Schema}
    (h : ∀ operation, ∀ name ∈ s.root operation, isName name = true) :
    advanceDocument .start (schemaDocument s) = some .settled := by
  have hopen : advanceAll .start "schema \x7b\n".toList = some .start := by decide
  have hclose : advanceAll .start "\x7d".toList = some .settled := by decide
  have hroots : advanceAll .start (Operation.all.flatMap (rootLine s)) = some .start := by
    simp only [Operation.all, List.flatMap_cons, List.flatMap_nil, List.append_nil,
      advanceAll_append, advanceAll_rootLine (h _), Option.bind_some]
  rw [schemaDocument, advanceDocument_append, advanceDocument_describe, Option.bind_some,
    advanceDocument_source_one, advanceAll_append, advanceAll_append, hopen, Option.bind_some,
    hroots, Option.bind_some, hclose]

theorem advanceDocument_documents {s : Schema} (h : NamedSchema (fun d => NoBreak d.toList) s) :
    ∀ d ∈ documents s, advanceDocument .start d = some .settled :=
  forall_mem_documents (advanceDocument_schemaDocument h.roots)
    (fun d hd => advanceDocument_directiveDocument (h.directives d hd))
    fun t ht => advanceDocument_typeDocument (h.types t ht)

/-! ### The whole text -/

/-- The blank line between two definitions. -/
def blankLine : Document := [.source ['\n', '\n']]

theorem writeAll_eq (d : Descriptions) (documents : List Document) :
    writeAll d documents = Document.write d (List.intercalate blankLine documents) := by
  induction documents with
  | nil => rfl
  | cons document documents ih =>
    cases documents with
    | nil => simp [writeAll, List.intercalate]
    | cons next documents =>
      rw [List.intercalate_cons_cons, Document.write_append, Document.write_append, ← ih, writeAll,
        List.map_cons, List.map_cons, List.intercalate_cons_cons]
      rfl

theorem advanceDocument_intercalate {documents : List Document}
    (h : ∀ d ∈ documents, advanceDocument .start d = some .settled) :
    ∃ state, advanceDocument .start (List.intercalate blankLine documents) = some state := by
  induction documents with
  | nil => exact ⟨_, rfl⟩
  | cons document documents ih =>
    rw [List.forall_mem_cons] at h
    cases documents with
    | nil => exact ⟨_, by simpa [List.intercalate] using h.1⟩
    | cons next documents =>
      obtain ⟨state, hstate⟩ := ih h.2
      refine ⟨state, ?_⟩
      have hblank : advanceDocument .settled blankLine = some .start := by decide
      rw [List.intercalate_cons_cons, advanceDocument_append, advanceDocument_append, h.1,
        Option.bind_some, hblank, Option.bind_some, hstate]

/-- **Stripping removes the descriptions of a printed schema and nothing else.** -/
theorem strip_print {s : Schema} (names : ∀ name ∈ declaredNames s, isName name = true)
    (defaults : ∀ v ∈ inputValues s, ∀ d ∈ v.defaultValue, '\n' ∉ d.toList) :
    (print .shown s).map strip = print .hidden s := by
  cases hc : check s with
  | error e => simp [print, hc, bind, Except.bind, Except.map]
  | ok _ =>
    have hnamed : NamedSchema (fun d => NoBreak d.toList) s := named_of_check hc names defaults
    obtain ⟨state, hstate⟩ := advanceDocument_intercalate (advanceDocument_documents hnamed)
    rw [print_eq_ok_iff.mpr ⟨hc, rfl⟩, print_eq_ok_iff.mpr ⟨hc, rfl⟩, Except.map, writeAll_eq,
      writeAll_eq, strip_write hstate]

/-- A schema with a description of each shape and a default value that opens a block string. -/
def described : Schema where
  description := some "\"\"\"quoted\"\"\""
  query := some "Root"
  mutation := none
  subscription := none
  types := .ofList [⟨"String", none, .scalar none⟩,
    ⟨"Root", some "first\n  \"\"\"\nlast\\", .object [] [⟨"field", some " \"",
      [⟨"argument", some "", .named "String", some "\"\"\"", none⟩], .named "String", none⟩]⟩]
  directives := []

theorem strip_print_described :
    (∀ name ∈ declaredNames described, isName name = true) ∧
    (∀ v ∈ inputValues described, ∀ d ∈ v.defaultValue, '\n' ∉ d.toList) ∧
    print .hidden described = .ok ("schema \x7b\n  query: Root\n\x7d\n\ntype Root \x7b\n" ++
      "  field(\n    argument: String = \"\"\"\n  ): String\n\x7d").toList ∧
    (print .shown described).map strip = print .hidden described :=
  ⟨by decide, by decide, by decide +kernel, strip_print (by decide) (by decide)⟩

end IntrospectSdl.Proofs.Stripping.Schema
