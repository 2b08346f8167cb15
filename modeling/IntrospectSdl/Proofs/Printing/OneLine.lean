import IntrospectSdl.Proofs.Printing.Names
import IntrospectSdl.Proofs.StringLiteral.Reading
import IntrospectSdl.Proofs.TypeRefs

/-! # Printing: what stays on one line

Names, type references, literals and the marks made of them hold no line feeds, and so an argument
or an input field stays on one line if its default value does (`noBreak_inputValue`). -/

namespace IntrospectSdl.Proofs.Printing.OneLine

open IntrospectSdl.Sdl IntrospectSdl.Proofs.Printing.Names
open IntrospectSdl.Proofs.StringLiteral.Reading
open IntrospectSdl.Proofs.TypeRefs (mem_chars)

/-- A text without line feeds. -/
def NoBreak (text : List Char) : Prop := '\n' ∉ text

instance (text : List Char) : Decidable (NoBreak text) :=
  inferInstanceAs (Decidable (¬ '\n' ∈ text))

theorem noBreak_append {a b : List Char} : NoBreak (a ++ b) ↔ NoBreak a ∧ NoBreak b := by
  simp [NoBreak]

theorem noBreak_cons {c : Char} {text : List Char} :
    NoBreak (c :: text) ↔ c ≠ '\n' ∧ NoBreak text := by
  simp [NoBreak, eq_comm]

theorem not_mem_intercalate {c : Char} {sep : List Char} {texts : List (List Char)} (hs : c ∉ sep)
    (h : ∀ t ∈ texts, c ∉ t) : c ∉ List.intercalate sep texts := by
  induction texts with
  | nil => simp [List.intercalate]
  | cons t texts ih =>
    rw [List.forall_mem_cons] at h
    cases texts with
    | nil => simpa [List.intercalate] using h.1
    | cons u texts =>
      rw [List.intercalate_cons_cons, List.append_assoc, List.mem_append, List.mem_append, not_or,
        not_or]
      exact ⟨h.1, hs, ih h.2⟩

theorem noBreak_intercalate {sep : List Char} {texts : List (List Char)} (hs : NoBreak sep)
    (h : ∀ t ∈ texts, NoBreak t) : NoBreak (List.intercalate sep texts) :=
  not_mem_intercalate hs h

/-! ### Names and type references -/

theorem noBreak_of_isName {name : String} (h : isName name = true) : NoBreak name.toList :=
  fun hm => absurd (isNameChar_of_mem h hm) (by decide)

theorem noBreak_names {sep : List Char} {names : List String} (hs : NoBreak sep)
    (h : ∀ n ∈ names, NoBreak n.toList) :
    NoBreak (List.intercalate sep (names.map String.toList)) :=
  noBreak_intercalate hs (List.forall_mem_map.mpr h)

theorem noBreak_chars {type : TypeRef} (h : isName type.innermost = true) :
    NoBreak type.chars := by
  intro hm
  rcases mem_chars hm with hmark | hname
  · exact absurd hmark (by decide)
  · exact noBreak_of_isName h hname

theorem noBreak_location (l : Location) : NoBreak l.name.toList := by
  cases l <;> decide

/-! ### Marks -/

theorem noBreak_literal (text : String) : NoBreak (literal text) :=
  fun hm => absurd (isControl_of_mem_encode hm) (by decide)

theorem noBreak_deprecationMark (d : Option Deprecation) : NoBreak (deprecationMark d) := by
  unfold deprecationMark
  split
  · decide
  · decide
  · next reason =>
    split_ifs
    · decide
    · rw [noBreak_append, noBreak_append]
      exact ⟨⟨by decide, noBreak_literal reason⟩, by decide⟩

theorem noBreak_defaultMark {value : Option String} (h : ∀ d ∈ value, NoBreak d.toList) :
    NoBreak (defaultMark value) := by
  cases value with
  | none => decide
  | some d =>
    rw [defaultMark, noBreak_append]
    exact ⟨by decide, h d rfl⟩

theorem noBreak_implementsMark {interfaces : List String}
    (h : ∀ n ∈ interfaces, NoBreak n.toList) : NoBreak (implementsMark interfaces) := by
  unfold implementsMark
  split_ifs
  · decide
  · rw [noBreak_append]
    exact ⟨by decide, noBreak_names (by decide) h⟩

theorem noBreak_specifiedBy (url : String) :
    NoBreak (" @specifiedBy(url: ".toList ++ literal url ++ [')']) := by
  rw [noBreak_append, noBreak_append]
  exact ⟨⟨by decide, noBreak_literal url⟩, by decide⟩

theorem noBreak_members {members : List String} (h : ∀ n ∈ members, NoBreak n.toList) :
    NoBreak (" = ".toList ++ List.intercalate " | ".toList (members.map String.toList)) := by
  rw [noBreak_append]
  exact ⟨by decide, noBreak_names (by decide) h⟩

theorem noBreak_oneOf (oneOf : Bool) : NoBreak (if oneOf then " @oneOf".toList else []) := by
  cases oneOf <;> decide

/-- **An argument or an input field stays on one line** if its default value does. -/
theorem noBreak_inputValue {v : InputValue} (h : NamedInput (fun d => NoBreak d.toList) v) :
    NoBreak (inputValue v) := by
  simp only [inputValue, noBreak_append]
  exact ⟨⟨⟨⟨noBreak_of_isName h.name, by decide⟩, noBreak_chars h.type⟩,
    noBreak_defaultMark h.default⟩, noBreak_deprecationMark _⟩

end IntrospectSdl.Proofs.Printing.OneLine
