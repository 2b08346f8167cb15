import IntrospectSdl.Proofs.Printing.OneLine
import IntrospectSdl.Proofs.Stripping.Quiet

/-! # Stripping: schemas without descriptions

What is printed of a schema besides its descriptions is harmless, unless a default value breaks its
line and goes on with a triple quote (`strip_print_hidden`). So a schema that has no descriptions is
left alone under the same condition (`strip_print_undescribed`). The condition is needed: the block
strings of two default values can be taken for one description (`strip_print_fenced`). -/

namespace IntrospectSdl.Proofs.Stripping.Undescribed

open IntrospectSdl.Text IntrospectSdl.Sdl IntrospectSdl.Sdl.Stripping
open IntrospectSdl.Proofs.Lines IntrospectSdl.Proofs.BlockString.Layout
open IntrospectSdl.Proofs.Printing.Acceptance IntrospectSdl.Proofs.Printing.Names
open IntrospectSdl.Proofs.Printing.OneLine IntrospectSdl.Proofs.Stripping.Quiet
open IntrospectSdl.Proofs.TypeRefs (mem_chars)

/-! ### Names and marks -/

theorem quote_not_mem_name {name : String} (h : isName name = true) : '"' ∉ name.toList :=
  fun hm => absurd (isNameChar_of_mem h hm) (by decide)

theorem harmless_name {name : String} (h : isName name = true) : Harmless name.toList :=
  .of_not_mem (quote_not_mem_name h)

theorem harmless_names {sep : List Char} {names : List String} (hs : '"' ∉ sep)
    (h : ∀ n ∈ names, isName n = true) :
    Harmless (List.intercalate sep (names.map String.toList)) :=
  .intercalate (.of_not_mem hs) (List.forall_mem_map.mpr fun n hn => harmless_name (h n hn))

theorem harmless_chars {type : TypeRef} (h : isName type.innermost = true) :
    Harmless type.chars := by
  refine .of_not_mem fun hm => ?_
  rcases mem_chars hm with hmark | hname
  · exact absurd hmark (by decide)
  · exact quote_not_mem_name h hname

theorem tail_splitLines_of_noBreak {text : List Char} (h : NoBreak text) :
    (splitLines text).tail = [] := by
  rw [splitLines_of_not_mem h, List.tail_cons]

theorem harmless_spaces (indent : Nat) : Harmless (spaces indent) :=
  .of_not_mem (quote_not_mem_spaces indent)

theorem harmless_mark {name : List Char} (hn : NoBreak name) (text : String) :
    Harmless (' ' :: '@' :: (name ++ literal text ++ [')'])) := by
  have hrest : NoBreak (name ++ literal text ++ [')']) := by
    rw [noBreak_append, noBreak_append]
    exact ⟨⟨hn, noBreak_literal text⟩, by decide⟩
  -- The at sign settles the line, so the quotes of the literal cannot open a block on it.
  refine .cons (by decide) (.of_settled (by decide) (by decide) ?_ (by decide))
  rw [tail_splitLines_of_noBreak hrest]
  exact List.forall_mem_nil _

theorem harmless_deprecationMark (d : Option Deprecation) : Harmless (deprecationMark d) := by
  have hplain : Harmless " @deprecated".toList := .of_not_mem (by decide)
  unfold deprecationMark
  split
  · exact .nil
  · exact hplain
  · next reason =>
    split_ifs
    · exact hplain
    · have hmark : " @deprecated(reason: ".toList =
          ' ' :: '@' :: "deprecated(reason: ".toList := by decide
      rw [hmark]
      exact harmless_mark (by decide) reason

/-- The lines of a default value after its first do not begin with a triple quote. -/
def Unfenced (value : String) : Prop :=
  ∀ line ∈ (splitLines value.toList).tail, afterOpening line = none

instance (value : String) : Decidable (Unfenced value) :=
  inferInstanceAs (Decidable (∀ line ∈ (splitLines value.toList).tail, afterOpening line = none))

theorem harmless_defaultMark {value : Option String} (h : ∀ d ∈ value, Unfenced d) :
    Harmless (defaultMark value) := by
  cases value with
  | none => exact .nil
  | some d =>
    have hmark : " = ".toList = [' ', '=', ' '] := by decide
    have htail : (splitLines (' ' :: d.toList)).tail = (splitLines d.toList).tail := by
      rw [← List.singleton_append, splitLines_append (by decide), List.tail_modifyHead]
    rw [defaultMark, hmark]
    have hvalue : Harmless ('=' :: ' ' :: d.toList) :=
      .of_settled (by decide) (by decide) (htail ▸ h d rfl) (by decide)
    exact .cons (by decide) hvalue

theorem harmless_inputValue {v : InputValue} (h : NamedInput Unfenced v) :
    Harmless (inputValue v) :=
  ((((harmless_name h.name).append (.of_not_mem (by decide))).append (harmless_chars h.type)).append
    (harmless_defaultMark h.default)).append (harmless_deprecationMark _)

theorem harmless_implementsMark {interfaces : List String}
    (h : ∀ n ∈ interfaces, isName n = true) : Harmless (implementsMark interfaces) := by
  unfold implementsMark
  split_ifs
  · exact .nil
  · exact (Harmless.of_not_mem (by decide)).append (harmless_names (by decide) h)

/-! ### Documents -/

/-- A document of which the text is harmless but for its descriptions. -/
def Safe (document : Document) : Prop := Harmless (document.write .hidden)

theorem safe_append {a b : Document} (ha : Safe a) (hb : Safe b) : Safe (a ++ b) := by
  rw [Safe, Document.write_append]
  exact ha.append hb

theorem safe_cons {text : List Char} {document : Document} (ht : Harmless text)
    (hd : Safe document) : Safe (.source text :: document) :=
  ht.append hd

theorem safe_source {text : List Char} (h : Harmless text) : Safe [.source text] :=
  safe_cons h .nil

theorem safe_describe (indent : Nat) (description : Option String) :
    Safe (describe indent description) := by
  cases description <;> exact .nil

theorem safe_flatten {documents : List Document} (h : ∀ d ∈ documents, Safe d) :
    Safe documents.flatten := by
  induction documents with
  | nil => exact .nil
  | cons document documents ih =>
    rw [List.forall_mem_cons] at h
    exact safe_append h.1 (ih h.2)

theorem safe_block {members : List Document} (h : ∀ d ∈ members, Safe d) :
    Safe (block members) := by
  unfold block
  split_ifs
  · exact .nil
  · exact safe_cons (.of_not_mem (by decide))
      (safe_append (safe_flatten h) (safe_source (.of_not_mem (by decide))))

theorem safe_inputValueLine {v : InputValue} (h : NamedInput Unfenced v) (indent : Nat) :
    Safe (inputValueLine indent v) := by
  have hline : Harmless (spaces indent ++ inputValue v ++ ['\n']) :=
    ((harmless_spaces indent).append (harmless_inputValue h)).append (.of_not_mem (by decide))
  exact safe_append (safe_describe indent v.description) (safe_source hline)

theorem safe_argumentList {arguments : List InputValue}
    (h : ∀ a ∈ arguments, NamedInput Unfenced a) (indent : Nat) :
    Safe (argumentList indent arguments) := by
  unfold argumentList
  split_ifs
  · exact .nil
  · have hline : Harmless (List.intercalate ", ".toList (arguments.map inputValue)) :=
      .intercalate (.of_not_mem (by decide))
        (List.forall_mem_map.mpr fun a ha => harmless_inputValue (h a ha))
    exact safe_source (.cons (by decide) (hline.append (.of_not_mem (by decide))))
  · have hbody : Safe (arguments.flatMap (inputValueLine (indent + step))) := by
      rw [List.flatMap_def]
      exact safe_flatten (List.forall_mem_map.mpr fun a ha => safe_inputValueLine (h a ha) _)
    have hclose : Harmless (spaces indent ++ [')']) :=
      (harmless_spaces indent).append (.of_not_mem (by decide))
    exact safe_cons (.of_not_mem (by decide)) (safe_append hbody (safe_source hclose))

theorem safe_fieldLines {f : Field} (h : NamedField Unfenced f) : Safe (fieldLines f) := by
  have hname : Harmless (spaces step ++ f.name.toList) :=
    (harmless_spaces step).append (harmless_name h.name)
  have hend : Harmless (": ".toList ++ f.type.chars ++ deprecationMark f.deprecation ++ ['\n']) :=
    (((Harmless.of_not_mem (by decide)).append (harmless_chars h.type)).append
      (harmless_deprecationMark _)).append (.of_not_mem (by decide))
  exact safe_append (safe_append (safe_append (safe_describe step f.description)
    (safe_source hname)) (safe_argumentList h.arguments step)) (safe_source hend)

theorem safe_enumValueLines {v : EnumValue} (h : isName v.name = true) :
    Safe (enumValueLines v) := by
  have hline : Harmless (spaces step ++ v.name.toList ++ deprecationMark v.deprecation ++ ['\n']) :=
    (((harmless_spaces step).append (harmless_name h)).append
      (harmless_deprecationMark _)).append (.of_not_mem (by decide))
  exact safe_append (safe_describe step v.description) (safe_source hline)

theorem safe_composite {interfaces : List String} {fields : List Field}
    (hi : ∀ n ∈ interfaces, isName n = true) (hf : ∀ f ∈ fields, NamedField Unfenced f) :
    Safe (.source (implementsMark interfaces) :: block (fields.map fieldLines)) :=
  safe_cons (harmless_implementsMark hi)
    (safe_block (List.forall_mem_map.mpr fun f hm => safe_fieldLines (hf f hm)))

theorem safe_bodyDocument {body : TypeBody} (h : NamedBody Unfenced body) :
    Safe (bodyDocument body) := by
  cases body with
  | scalar url =>
    cases url with
    | none => exact .nil
    | some url =>
      have hmark : " @specifiedBy(url: ".toList =
          ' ' :: '@' :: "specifiedBy(url: ".toList := by decide
      rw [bodyDocument, hmark]
      exact safe_source (harmless_mark (by decide) url)
  | object interfaces fields => exact safe_composite h.1 h.2
  | interface interfaces fields => exact safe_composite h.1 h.2
  | union members =>
    rw [bodyDocument]
    split_ifs
    · exact .nil
    · exact safe_source
        ((Harmless.of_not_mem (by decide)).append (harmless_names (by decide) h))
  | enum values =>
    exact safe_block (List.forall_mem_map.mpr fun v hv => safe_enumValueLines (h v hv))
  | inputObject oneOf fields =>
    have hmark : Harmless (if oneOf then " @oneOf".toList else []) := by
      cases oneOf <;> exact .of_not_mem (by decide)
    exact safe_cons hmark (safe_block (List.forall_mem_map.mpr fun f hf =>
      safe_inputValueLine (h f hf) step))

/-! ### Definitions -/

theorem safe_typeDocument {t : TypeDefinition} (h : NamedType Unfenced t) :
    Safe (typeDocument t) := by
  have hkeyword : Harmless (keyword t.kind).toList := by
    cases t.kind <;> exact .of_not_mem (by decide)
  exact safe_append (safe_describe 0 t.description)
    (safe_cons (hkeyword.append (harmless_name h.name)) (safe_bodyDocument h.body))

theorem safe_directiveDocument {d : Directive} (h : NamedDirective Unfenced d) :
    Safe (directiveDocument d) := by
  have hname : Harmless ("directive @".toList ++ d.name.toList) :=
    (Harmless.of_not_mem (by decide)).append (harmless_name h.name)
  have hrepeatable : Harmless (if d.repeatable then " repeatable".toList else []) := by
    cases d.repeatable <;> exact .of_not_mem (by decide)
  have hlocations : Harmless (List.intercalate " | ".toList (d.locations.map (·.name.toList))) :=
    .intercalate (.of_not_mem (by decide))
      (List.forall_mem_map.mpr fun l _ => .of_not_mem (by cases l <;> decide))
  exact safe_append (safe_append (safe_describe 0 d.description)
    (safe_cons hname (safe_argumentList h.arguments 0)))
    (safe_source ((hrepeatable.append (.of_not_mem (by decide))).append hlocations))

theorem harmless_rootLine {s : Schema} {operation : Operation}
    (h : ∀ name ∈ s.root operation, isName name = true) : Harmless (rootLine s operation) := by
  have hkeyword : isName operation.keyword = true := by cases operation <;> decide
  unfold rootLine
  split
  · exact .nil
  · next name hroot =>
    exact ((((harmless_spaces step).append (harmless_name hkeyword)).append
      (.of_not_mem (by decide))).append (harmless_name (h name hroot))).append
        (.of_not_mem (by decide))

theorem safe_schemaDocument {s : Schema}
    (h : ∀ operation, ∀ name ∈ s.root operation, isName name = true) :
    Safe (schemaDocument s) := by
  have hroots : Harmless (Operation.all.flatMap (rootLine s)) := by
    rw [List.flatMap_def]
    exact .flatten (List.forall_mem_map.mpr fun operation _ => harmless_rootLine (h operation))
  exact safe_append (safe_describe 0 s.description)
    (safe_source (((Harmless.of_not_mem (by decide)).append hroots).append
      (.of_not_mem (by decide))))

theorem safe_documents {s : Schema} (h : NamedSchema Unfenced s) : ∀ d ∈ documents s, Safe d :=
  forall_mem_documents (safe_schemaDocument h.roots)
    (fun d hd => safe_directiveDocument (h.directives d hd))
    fun t ht => safe_typeDocument (h.types t ht)

/-- **Stripping leaves a schema alone that is printed without descriptions**, unless a default value
breaks its line and goes on with a triple quote. -/
theorem strip_print_hidden {s : Schema} {text : List Char}
    (names : ∀ name ∈ declaredNames s, isName name = true)
    (defaults : ∀ v ∈ inputValues s, ∀ d ∈ v.defaultValue, Unfenced d)
    (h : print .hidden s = .ok text) : strip text = text := by
  obtain ⟨hc, rfl⟩ := print_eq_ok_iff.mp h
  have hsafe := safe_documents (named_of_check hc names defaults)
  exact (Harmless.intercalate (.of_not_mem (by decide)) (List.forall_mem_map.mpr hsafe)).strip_eq

/-! ### Schemas without descriptions -/

/-- The descriptions of a field and its arguments. -/
def fieldDescriptions (f : Field) : List String :=
  f.description.toList ++ f.arguments.flatMap (·.description.toList)

/-- The descriptions of a type and its members. -/
def typeDescriptions (t : TypeDefinition) : List String :=
  t.description.toList ++ match t.body with
    | .object _ fields | .interface _ fields => fields.flatMap fieldDescriptions
    | .enum values => values.flatMap (·.description.toList)
    | .inputObject _ fields => fields.flatMap (·.description.toList)
    | .scalar _ | .union _ => []

/-- The descriptions of a directive and its arguments. -/
def directiveDescriptions (d : Directive) : List String :=
  d.description.toList ++ d.arguments.flatMap (·.description.toList)

/-- All descriptions of a schema. -/
def descriptions (s : Schema) : List String :=
  s.description.toList ++ s.types.toList.flatMap typeDescriptions ++
    s.directives.flatMap directiveDescriptions

/-- A document that has the same text with and without its descriptions. -/
def Alike (document : Document) : Prop := document.write .shown = document.write .hidden

theorem alike_append {a b : Document} (ha : Alike a) (hb : Alike b) : Alike (a ++ b) := by
  rw [Alike, Document.write_append, Document.write_append, ha, hb]

theorem alike_source (text : List Char) : Alike [.source text] := rfl

theorem alike_cons (text : List Char) {document : Document} (h : Alike document) :
    Alike (.source text :: document) :=
  alike_append (alike_source text) h

theorem alike_flatten {documents : List Document} (h : ∀ d ∈ documents, Alike d) :
    Alike documents.flatten := by
  induction documents with
  | nil => rfl
  | cons document documents ih =>
    rw [List.forall_mem_cons] at h
    exact alike_append h.1 (ih h.2)

theorem alike_block {members : List Document} (h : ∀ d ∈ members, Alike d) :
    Alike (block members) := by
  unfold block
  split_ifs
  · rfl
  · exact alike_cons _ (alike_append (alike_flatten h) (alike_source _))

theorem alike_describe {description : Option String} (h : description.toList = [])
    (indent : Nat) : Alike (describe indent description) := by
  cases description with
  | none => rfl
  | some text => cases h

theorem alike_inputValueLine {v : InputValue} (h : v.description.toList = []) (indent : Nat) :
    Alike (inputValueLine indent v) :=
  alike_append (alike_describe h indent) (alike_source _)

theorem alike_argumentList {arguments : List InputValue}
    (h : arguments.flatMap (·.description.toList) = []) (indent : Nat) :
    Alike (argumentList indent arguments) := by
  rw [List.flatMap_eq_nil_iff] at h
  unfold argumentList
  split_ifs
  · rfl
  · exact alike_source _
  · refine alike_cons _ (alike_append ?_ (alike_source _))
    rw [List.flatMap_def]
    exact alike_flatten (List.forall_mem_map.mpr fun a ha => alike_inputValueLine (h a ha) _)

theorem alike_fieldLines {f : Field} (h : fieldDescriptions f = []) : Alike (fieldLines f) := by
  obtain ⟨hdescription, harguments⟩ := List.append_eq_nil_iff.mp h
  exact alike_append (alike_append (alike_append (alike_describe hdescription step)
    (alike_source _)) (alike_argumentList harguments step)) (alike_source _)

theorem alike_composite (interfaces : List String) {fields : List Field}
    (h : fields.flatMap fieldDescriptions = []) :
    Alike (.source (implementsMark interfaces) :: block (fields.map fieldLines)) := by
  rw [List.flatMap_eq_nil_iff] at h
  exact alike_cons _ (alike_block (List.forall_mem_map.mpr fun f hf => alike_fieldLines (h f hf)))

theorem alike_typeDocument {t : TypeDefinition} (h : typeDescriptions t = []) :
    Alike (typeDocument t) := by
  obtain ⟨name, description, body⟩ := t
  obtain ⟨hdescription, hbody⟩ := List.append_eq_nil_iff.mp h
  refine alike_append (alike_describe hdescription 0) (alike_cons _ ?_)
  cases body with
  | scalar url => cases url <;> rfl
  | object interfaces fields => exact alike_composite interfaces hbody
  | interface interfaces fields => exact alike_composite interfaces hbody
  | union members =>
    rw [bodyDocument]
    split_ifs <;> rfl
  | enum values =>
    have hvalues := List.flatMap_eq_nil_iff.mp hbody
    exact alike_block (List.forall_mem_map.mpr fun v hv =>
      alike_append (alike_describe (hvalues v hv) step) (alike_source _))
  | inputObject oneOf fields =>
    have hfields := List.flatMap_eq_nil_iff.mp hbody
    exact alike_cons _ (alike_block (List.forall_mem_map.mpr fun f hf =>
      alike_inputValueLine (hfields f hf) step))

theorem alike_directiveDocument {d : Directive} (h : directiveDescriptions d = []) :
    Alike (directiveDocument d) := by
  obtain ⟨hdescription, harguments⟩ := List.append_eq_nil_iff.mp h
  exact alike_append (alike_append (alike_describe hdescription 0)
    (alike_cons _ (alike_argumentList harguments 0))) (alike_source _)

theorem alike_documents {s : Schema} (h : descriptions s = []) : ∀ d ∈ documents s, Alike d := by
  simp only [descriptions, List.append_eq_nil_iff, List.flatMap_eq_nil_iff] at h
  obtain ⟨⟨hdescription, htypes⟩, hdirectives⟩ := h
  exact forall_mem_documents (alike_append (alike_describe hdescription 0) (alike_source _))
    (fun d hd => alike_directiveDocument (hdirectives d hd))
    fun t ht => alike_typeDocument (htypes t ht)

theorem print_shown_eq {s : Schema} (h : descriptions s = []) :
    print .shown s = print .hidden s := by
  have htexts : (documents s).map (Document.write .shown) =
      (documents s).map (Document.write .hidden) :=
    List.map_congr_left fun d hd => alike_documents h d hd
  rw [print, print, writeAll, writeAll, htexts]

/-- **Stripping leaves a schema without descriptions alone**, unless a default value breaks its line
and goes on with a triple quote. -/
theorem strip_print_undescribed {s : Schema} {text : List Char}
    (names : ∀ name ∈ declaredNames s, isName name = true)
    (undescribed : descriptions s = [])
    (defaults : ∀ v ∈ inputValues s, ∀ d ∈ v.defaultValue, Unfenced d)
    (h : print .shown s = .ok text) : strip text = text :=
  strip_print_hidden names defaults (print_shown_eq undescribed ▸ h)

/-- A schema whose default values are laid out over several lines, one of them with quotes at the
beginning of a line. -/
def listed : Schema where
  description := none
  query := none
  mutation := none
  subscription := none
  types := .ofList [⟨"String", none, .scalar none⟩,
    ⟨"Words", none, .inputObject false
      [⟨"all", none, .list (.named "String"), some "[\n  \"a\"\n  \"\"\n]", none⟩]⟩]
  directives := []

theorem strip_print_listed :
    (∀ name ∈ declaredNames listed, isName name = true) ∧ descriptions listed = [] ∧
    (∀ v ∈ inputValues listed, ∀ d ∈ v.defaultValue, Unfenced d) ∧
    ∃ text, print .shown listed = .ok text ∧ strip text = text := by
  have names : ∀ name ∈ declaredNames listed, isName name = true := by decide
  have undescribed : descriptions listed = [] := by decide
  have defaults : ∀ v ∈ inputValues listed, ∀ d ∈ v.defaultValue, Unfenced d := by decide
  have hprint : print .shown listed = .ok
      "input Words \x7b\n  all: [String] = [\n  \"a\"\n  \"\"\n]\n\x7d".toList := by decide +kernel
  exact ⟨names, undescribed, defaults, _, hprint,
    strip_print_undescribed names undescribed defaults hprint⟩

/-- A schema of which two default values are block strings that end on a line of their own. -/
def fenced : Schema where
  description := none
  query := none
  mutation := none
  subscription := none
  types := .ofList [⟨"String", none, .scalar none⟩,
    ⟨"Texts", none, .inputObject false
      [⟨"a", none, .named "String", some "\"\"\"\nabc\n\"\"\"", none⟩,
        ⟨"b", none, .named "String", some "\"\"\"\nabc\n\"\"\"", none⟩]⟩]
  directives := []

/-- The end of one default value is taken for the beginning of a description, and the end of the
next one for its end: the field between them is lost. -/
theorem strip_print_fenced :
    (∀ name ∈ declaredNames fenced, isName name = true) ∧ descriptions fenced = [] ∧
    print .shown fenced = .ok ("input Texts \x7b\n  a: String = \"\"\"\nabc\n\"\"\"\n" ++
      "  b: String = \"\"\"\nabc\n\"\"\"\n\x7d").toList ∧
    (print .shown fenced).map strip =
      .ok "input Texts \x7b\n  a: String = \"\"\"\nabc\n\x7d".toList ∧
    (print .shown fenced).map strip ≠ print .shown fenced :=
  ⟨by decide, by decide, by decide +kernel, by decide +kernel, by decide +kernel⟩

end IntrospectSdl.Proofs.Stripping.Undescribed
