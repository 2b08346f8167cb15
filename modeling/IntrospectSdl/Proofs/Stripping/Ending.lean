import IntrospectSdl.Convert
import IntrospectSdl.Proofs.Printing.OneLine
import IntrospectSdl.Proofs.Stripping.LastLine

/-! # Stripping: how a schema ends

The last line of a definition is a closing brace, the end of a list of locations, or the keyword and
the name of a type with the marks behind it, and none of these ends a block. So what is printed ends
with such a line (`endsFirmly_print`) whatever default values stand before it, and does not end with
a line feed, stripped or not (`getLast?_apply_ne`). -/

namespace IntrospectSdl.Proofs.Stripping.Ending

open IntrospectSdl.Sdl IntrospectSdl.Sdl.Stripping
open IntrospectSdl.Proofs.Printing.Acceptance IntrospectSdl.Proofs.Printing.Names
open IntrospectSdl.Proofs.Printing.OneLine IntrospectSdl.Proofs.Stripping.LastLine

/-! ### Documents -/

theorem endsFirmly_describe (description : Option String) {text : List Char}
    (h : EndsFirmly text) : EndsFirmly ((describe 0 description).write .shown ++ text) := by
  cases description with
  | none => exact h
  | some d =>
    have hlines : (describe 0 (some d)).write .shown ++ text =
        spaces 0 ++ BlockString.indentLines (spaces 0) (BlockString.encode d.toList) ++
          '\n' :: text := by
      simp [describe, Piece.write, descriptionLines]
    rw [hlines]
    exact h.after _

theorem endsFirmly_block {members : List Document} (h : members ≠ []) (text : List Char) :
    EndsFirmly (text ++ (block members).write .shown) := by
  have hblock : (block members).write .shown =
      " \x7b\n".toList ++ Document.write .shown members.flatten ++ "\x7d".toList := by
    rw [block, if_neg (by simpa using h)]
    simp [source]
  have hbrace : EndsFirmly ((text ++ (" \x7b\n".toList ++
      Document.write .shown members.flatten)) ++ "\x7d".toList) :=
    endsFirmly_append (by decide) (by decide) (c := '\x7d') (by decide) (by decide) _
  rwa [hblock, ← List.append_assoc]

/-- Behind a mark on the line of a name there are members in braces, or nothing else. -/
theorem marked_noBreak_or_endsFirmly {mark : List Char} (members : List Document)
    (hmark : NoBreak mark) :
    NoBreak (Document.write .shown (.source mark :: block members)) ∨
      ∀ text, EndsFirmly (text ++ Document.write .shown (.source mark :: block members)) := by
  rcases eq_or_ne members [] with rfl | hne
  · left
    simpa [block] using hmark
  · right
    intro text
    have hblock := endsFirmly_block hne (text ++ mark)
    rwa [List.append_assoc] at hblock

theorem body_noBreak_or_endsFirmly {t : TypeDefinition}
    (h : ∀ r ∈ typeReferences t, NoBreak r.name.toList) :
    NoBreak ((bodyDocument t.body).write .shown) ∨
      ∀ text, EndsFirmly (text ++ (bodyDocument t.body).write .shown) := by
  obtain ⟨name, description, body⟩ := t
  have hinterfaces : ∀ (interfaces : List String) (fields : List Field),
      (∀ r ∈ compositeReferences name interfaces fields, NoBreak r.name.toList) →
      NoBreak (implementsMark interfaces) := by
    intro interfaces fields hr
    refine noBreak_implementsMark fun n hn => ?_
    exact hr ⟨n, .interfaces name⟩ (List.mem_append_left _ (List.mem_map.mpr ⟨n, hn, rfl⟩))
  cases body with
  | scalar url =>
    left
    cases url with
    | none =>
      change NoBreak []
      decide
    | some url => simpa [bodyDocument] using noBreak_specifiedBy url
  | object interfaces fields =>
    exact marked_noBreak_or_endsFirmly _ (hinterfaces interfaces fields h)
  | interface interfaces fields =>
    exact marked_noBreak_or_endsFirmly _ (hinterfaces interfaces fields h)
  | union members =>
    left
    have hmembers : ∀ n ∈ members, NoBreak n.toList := fun n hn =>
      h ⟨n, .members name⟩ (List.mem_map.mpr ⟨n, hn, rfl⟩)
    have hmark := noBreak_members hmembers
    cases members with
    | nil =>
      change NoBreak []
      decide
    | cons member members => simpa [bodyDocument] using hmark
  | enum values =>
    have hnone : NoBreak [] := by decide
    exact marked_noBreak_or_endsFirmly _ hnone
  | inputObject oneOf fields => exact marked_noBreak_or_endsFirmly _ (noBreak_oneOf oneOf)

/-- **A type ends with a brace or with the line of its name.** -/
theorem endsFirmly_typeDocument {t : TypeDefinition} (hname : NoBreak t.name.toList)
    (h : ∀ r ∈ typeReferences t, NoBreak r.name.toList) :
    EndsFirmly ((typeDocument t).write .shown) := by
  have hwrite : (typeDocument t).write .shown = (describe 0 t.description).write .shown ++
      ((keyword t.kind).toList ++ t.name.toList ++ (bodyDocument t.body).write .shown) := by
    simp [typeDocument]
  rw [hwrite]
  refine endsFirmly_describe _ ?_
  rcases body_noBreak_or_endsFirmly h with hbody | hbody
  · have hkeyword : NoBreak (keyword t.kind).toList := by cases t.kind <;> decide
    have hline : NoBreak ((keyword t.kind).toList ++ t.name.toList ++
        (bodyDocument t.body).write .shown) := by
      rw [noBreak_append, noBreak_append]
      exact ⟨⟨hkeyword, hname⟩, hbody⟩
    refine Firm.endsFirmly ?_
    revert hline
    cases t.kind <;> exact fun hline => Firm.of_head hline (by decide) (by decide)
  · exact hbody _

/-- The locations of a directive, of which there need not be any, behind the word for them. -/
theorem endsFirmly_locations (locations : List Location) (text : List Char) :
    EndsFirmly (text ++ (" on ".toList ++
      List.intercalate " | ".toList (locations.map (·.name.toList)))) := by
  have hbreak : NoBreak (List.intercalate " | ".toList (locations.map (·.name.toList))) :=
    noBreak_intercalate (by decide) (List.forall_mem_map.mpr fun l _ => noBreak_location l)
  have hquote : '"' ∉ List.intercalate " | ".toList (locations.map (·.name.toList)) :=
    not_mem_intercalate (by decide) (List.forall_mem_map.mpr fun l _ => by cases l <;> decide)
  have hon : 'o' ∈ " on ".toList := by decide
  refine endsFirmly_append ?_ ?_ (List.mem_append_left _ hon) (by decide) text
  · exact List.mem_append.not.mpr (not_or.mpr ⟨by decide, hbreak⟩)
  · exact List.mem_append.not.mpr (not_or.mpr ⟨by decide, hquote⟩)

/-- **A directive ends with its locations.** -/
theorem endsFirmly_directiveDocument (d : Directive) :
    EndsFirmly ((directiveDocument d).write .shown) := by
  have hwrite : (directiveDocument d).write .shown = (describe 0 d.description).write .shown ++
      ("directive @".toList ++ d.name.toList ++ (argumentList 0 d.arguments).write .shown ++
        (if d.repeatable then " repeatable".toList else []) ++
        (" on ".toList ++ List.intercalate " | ".toList (d.locations.map (·.name.toList)))) := by
    simp only [directiveDocument, Document.write_append, Document.write_cons, Document.write_nil,
      Piece.write_source, List.append_assoc, List.cons_append, List.append_nil]
  rw [hwrite]
  exact endsFirmly_describe _ (endsFirmly_locations d.locations _)

theorem endsFirmly_schemaDocument (s : Schema) :
    EndsFirmly ((schemaDocument s).write .shown) := by
  have hwrite : (schemaDocument s).write .shown = (describe 0 s.description).write .shown ++
      ("schema \x7b\n".toList ++ Operation.all.flatMap (rootLine s) ++ "\x7d".toList) := by
    simp [schemaDocument]
  rw [hwrite]
  exact endsFirmly_describe _
    (endsFirmly_append (by decide) (by decide) (c := '\x7d') (by decide) (by decide) _)

/-! ### Schemas -/

theorem endsFirmly_documents {s : Schema} (hc : check s = .ok ())
    (hn : ∀ name ∈ declaredNames s, NoBreak name.toList) :
    ∀ d ∈ documents s, EndsFirmly (d.write .shown) := by
  have hr : ∀ r ∈ references s, NoBreak r.name.toList := fun r hr =>
    hn _ (mem_declaredNames_of_reference hc hr)
  refine forall_mem_documents (endsFirmly_schemaDocument s)
    (fun d _ => endsFirmly_directiveDocument d) fun t ht => endsFirmly_typeDocument ?_ ?_
  · exact hn _ (type_mem_declaredNames ht List.mem_cons_self)
  · exact fun r hmem => hr r (type_mem_references ht hmem)

theorem endsFirmly_writeAll {documents : List Document} (hne : documents ≠ [])
    (h : ∀ d ∈ documents, EndsFirmly (d.write .shown)) :
    EndsFirmly (writeAll .shown documents) := by
  induction documents with
  | nil => exact absurd rfl hne
  | cons d documents ih =>
    rw [List.forall_mem_cons] at h
    cases documents with
    | nil => simpa [writeAll, List.intercalate_singleton] using h.1
    | cons next documents =>
      have hrest := ih (List.cons_ne_nil next documents) h.2
      have hwrite : writeAll .shown (d :: next :: documents) =
          (d.write .shown ++ ['\n']) ++ '\n' :: writeAll .shown (next :: documents) := by
        simp [writeAll, List.intercalate_cons_cons]
      rw [hwrite]
      exact hrest.after _

/-- **What is printed of a schema ends with a line that ends no block**, if anything is printed. -/
theorem endsFirmly_print {s : Schema} {text : List Char} (h : print .shown s = .ok text)
    (hn : ∀ name ∈ declaredNames s, NoBreak name.toList) : text = [] ∨ EndsFirmly text := by
  obtain ⟨hc, rfl⟩ := print_eq_ok_iff.mp h
  rcases eq_or_ne (documents s) [] with hnone | hne
  · left
    rw [hnone]
    rfl
  · right
    exact endsFirmly_writeAll hne (endsFirmly_documents hc hn)

/-- **Neither what is printed nor what is left of it when it is stripped ends with a line feed.** -/
theorem getLast?_apply_ne {s : Schema} {text : List Char} (h : print .shown s = .ok text)
    (hn : ∀ name ∈ declaredNames s, NoBreak name.toList) (choice : DescriptionChoice) :
    (choice.apply text).getLast? ≠ some '\n' := by
  rcases endsFirmly_print h hn with rfl | hend
  · cases choice <;> decide
  · cases choice with
    | keep => exact hend.getLast?_ne
    | strip => exact hend.getLast?_strip_ne

end IntrospectSdl.Proofs.Stripping.Ending
