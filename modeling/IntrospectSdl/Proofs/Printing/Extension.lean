import IntrospectSdl.Proofs.Legibility.Closure
import IntrospectSdl.Proofs.Printing.Printable

/-! # Printing: one more type

A type is added under a name that a printed schema does not declare. No type of the schema refers
to that name, so what was resolvable stays so (`resolvable_declare_iff`), and no interface of the
schema leads to the new one (`implements_of_declare`): the only cycle that can come about is that
the new type lists itself (`hasCycle_declare_iff`). Whether the larger schema is printed can
therefore be told from the new type alone (`Fits`), and its text is that of the schema with the new
definition at the end (`print_declare`). -/

namespace IntrospectSdl.Proofs.Printing.Extension

open IntrospectSdl.Sdl IntrospectSdl.Proofs.Declarations
open IntrospectSdl.Proofs.Interfaces.Cycles IntrospectSdl.Proofs.Legibility.Closure
open IntrospectSdl.Proofs.Printing.Acceptance IntrospectSdl.Proofs.Printing.Printable
open IntrospectSdl.Proofs.Legibility.Basic.Legible (intercalate_cons)
open Relation (TransGen ReflTransGen)

/-- The schema with one more type, unless its name is declared. -/
def declare (s : Schema) (t : TypeDefinition) : Schema := { s with types := s.types.insert t }

/-- **What a type refers to is there**: it implements interfaces, but not itself, and all other
types that it uses are declared. -/
structure Fits (s : Schema) (t : TypeDefinition) : Prop where
  interfaces : ∀ name ∈ t.body.interfaces, kindIn s name = some .interface ∧ name ≠ t.name
  used : ∀ name ∈ usedByType t, Declared s name

/-! ### Resolvable types -/

section

variable {s : Schema}

theorem forall_usedByField_iff {f : Field} :
    (∀ name ∈ usedByField f, Declared s name) ↔ ResolvableField s f := by
  rw [usedByField, List.forall_mem_cons, List.forall_mem_map]
  constructor
  · rintro ⟨htype, harguments⟩
    exact ⟨htype, harguments⟩
  · rintro ⟨htype, harguments⟩
    exact ⟨htype, harguments⟩

theorem resolvableComposite_iff {interfaces : List String} {fields : List Field} :
    (∀ name ∈ interfaces, kindIn s name = some .interface) ∧ (∀ f ∈ fields, ResolvableField s f) ↔
      (∀ name ∈ interfaces, kindIn s name = some .interface) ∧
        ∀ name ∈ interfaces ++ fields.flatMap usedByField, Declared s name := by
  refine and_congr_right fun hinterfaces => ?_
  have hdeclared : ∀ name ∈ interfaces, Declared s name := fun name hname =>
    declared_of_kindIn (hinterfaces name hname)
  rw [List.forall_mem_append, and_iff_right hdeclared, List.forall_mem_flatMap]
  exact forall₂_congr fun f _ => forall_usedByField_iff.symm

/-- **A type is resolvable if the interfaces that it lists and the types it uses are there.** -/
theorem resolvableBody_iff {t : TypeDefinition} : ResolvableBody s t.body ↔
    (∀ name ∈ t.body.interfaces, kindIn s name = some .interface) ∧
      ∀ name ∈ usedByType t, Declared s name := by
  obtain ⟨name, description, body⟩ := t
  cases body with
  | object interfaces fields => exact resolvableComposite_iff
  | interface interfaces fields => exact resolvableComposite_iff
  | scalar url => simp [ResolvableBody, TypeBody.interfaces, usedByType]
  | union members => simp [ResolvableBody, TypeBody.interfaces, usedByType]
  | enum values => simp [ResolvableBody, TypeBody.interfaces, usedByType]
  | inputObject oneOf fields =>
    simp [ResolvableBody, TypeBody.interfaces, usedByType, usedByInput]

theorem fits_iff {t : TypeDefinition} :
    Fits s t ↔ ResolvableBody s t.body ∧ t.name ∉ t.body.interfaces := by
  rw [resolvableBody_iff]
  constructor
  · intro h
    exact ⟨⟨fun name hname => (h.interfaces name hname).1, h.used⟩,
      fun hself => (h.interfaces t.name hself).2 rfl⟩
  · rintro ⟨⟨hinterfaces, hused⟩, hself⟩
    exact ⟨fun name hname => ⟨hinterfaces name hname, fun heq => hself (heq ▸ hname)⟩, hused⟩

end

/-! ### The larger schema -/

section

variable {s : Schema} {t : TypeDefinition} (hnew : ¬ Declared s t.name)
include hnew

theorem toList_declare : (declare s t).types.toList = s.types.toList ++ [t] := by
  have hcontains : s.types.contains t.name = false := by
    rw [Bool.eq_false_iff, Ne, TypeTable.contains_iff]
    exact hnew
  show (s.types.insert t).toList = s.types.toList ++ [t]
  rw [TypeTable.toList_insert, hcontains]
  rfl

theorem mem_declare_iff {u : TypeDefinition} :
    u ∈ (declare s t).types.toList ↔ u ∈ s.types.toList ∨ u = t := by
  rw [toList_declare hnew, List.mem_append, List.mem_singleton]

theorem declared_declare {name : String} (h : Declared s name) : Declared (declare s t) name := by
  obtain ⟨u, hu, hname⟩ := h
  exact ⟨u, (mem_declare_iff hnew).mpr (.inl hu), hname⟩

theorem kindIn_declare {name : String} {kind : TypeKind} (h : kindIn s name = some kind) :
    kindIn (declare s t) name = some kind := by
  obtain ⟨u, hu, hname, hkind⟩ := kindIn_eq_some_iff.mp h
  exact kindIn_eq_some_iff.mpr ⟨u, (mem_declare_iff hnew).mpr (.inl hu), hname, hkind⟩

theorem eq_of_mem_declare {u : TypeDefinition} (hu : u ∈ (declare s t).types.toList)
    (hname : u.name = t.name) : u = t := by
  rcases (mem_declare_iff hnew).mp hu with hold | hlast
  · exact absurd ⟨u, hold, hname⟩ hnew
  · exact hlast

/-! ### References -/

theorem resolvableBody_declare {u : TypeDefinition} (h : ResolvableBody s u.body) :
    ResolvableBody (declare s t) u.body := by
  obtain ⟨hinterfaces, hused⟩ := resolvableBody_iff.mp h
  exact resolvableBody_iff.mpr
    ⟨fun name hname => kindIn_declare hnew (hinterfaces name hname),
      fun name hname => declared_declare hnew (hused name hname)⟩

/-- **With one more type a schema stays resolvable if that type is.** -/
theorem resolvable_declare_iff (hs : Resolvable s) :
    Resolvable (declare s t) ↔ ResolvableBody (declare s t) t.body := by
  constructor
  · intro h
    exact h.types t ((mem_declare_iff hnew).mpr (.inr rfl))
  · intro h
    exact
      { roots := fun operation name hname =>
          kindIn_declare hnew (hs.roots operation name (by cases operation <;> exact hname))
        types := fun u hu => by
          rcases (mem_declare_iff hnew).mp hu with hold | rfl
          · exact resolvableBody_declare hnew (hs.types u hold)
          · exact h
        directives := fun d hd a ha => declared_declare hnew (hs.directives d hd a ha) }

/-! ### Cycles -/

/-- **What implements in the larger schema, but is not new, does so in the schema**, and does not
lead to the new type. -/
theorem implements_of_declare (hs : Resolvable s) {a b : String} (ha : a ≠ t.name)
    (h : Implements (declare s t) a b) : Implements s a b ∧ b ≠ t.name := by
  obtain ⟨u, hu, rfl, hkind, hmem, -⟩ := h
  rcases (mem_declare_iff hnew).mp hu with hold | rfl
  · have hb : kindIn s b = some .interface :=
      (resolvableBody_iff.mp (hs.types u hold)).1 b hmem
    refine ⟨⟨u, hold, rfl, hkind, hmem, hb⟩, ?_⟩
    rintro rfl
    exact hnew (declared_of_kindIn hb)
  · exact absurd rfl ha

/-- Nor does a chain lead to the new type. -/
theorem transGen_of_declare (hs : Resolvable s) {a b : String} (ha : a ≠ t.name)
    (h : TransGen (Implements (declare s t)) a b) :
    TransGen (Implements s) a b ∧ b ≠ t.name := by
  induction h with
  | single hab =>
    obtain ⟨hstep, hb⟩ := implements_of_declare hnew hs ha hab
    exact ⟨.single hstep, hb⟩
  | tail _ hbc ih =>
    obtain ⟨hchain, hb⟩ := ih
    obtain ⟨hstep, hc⟩ := implements_of_declare hnew hs hb hbc
    exact ⟨.tail hchain hstep, hc⟩

/-- **The only new cycle is that the new type lists itself.** -/
theorem hasCycle_declare_iff (hs : Resolvable s) (hacyclic : ¬ HasCycle s)
    (ht : ResolvableBody (declare s t) t.body) :
    HasCycle (declare s t) ↔ t.name ∈ t.body.interfaces := by
  constructor
  · rintro ⟨name, hcycle⟩
    by_cases hname : name = t.name
    · obtain ⟨next, hnext, hback⟩ := TransGen.head'_iff.mp (hname ▸ hcycle)
      obtain ⟨u, hu, huname, -, hmem, -⟩ := hnext
      obtain rfl := eq_of_mem_declare hnew hu huname
      -- A way back from another interface would lead to the new one.
      have hself : next = u.name := by
        by_contra hne
        rcases ReflTransGen.cases_head hback with heq | ⟨_, hstep, hrest⟩
        · exact hne heq
        · exact (transGen_of_declare hnew hs hne (TransGen.head' hstep hrest)).2 rfl
      exact hself ▸ hmem
    · exact absurd ⟨name, (transGen_of_declare hnew hs hname hcycle).1⟩ hacyclic
  · intro hself
    have hkind : kindIn (declare s t) t.name = some .interface :=
      (resolvableBody_iff.mp ht).1 t.name hself
    obtain ⟨u, hu, huname, hukind⟩ := kindIn_eq_some_iff.mp hkind
    obtain rfl := eq_of_mem_declare hnew hu huname
    exact ⟨u.name, .single ⟨u, hu, rfl, hukind, hself, hkind⟩⟩

/-- **Whether a schema with one more type can be printed is told from that type.** -/
theorem printable_declare_iff (hs : Resolvable s) (hacyclic : ¬ HasCycle s) :
    Resolvable (declare s t) ∧ ¬ HasCycle (declare s t) ↔ Fits (declare s t) t := by
  rw [resolvable_declare_iff hnew hs, fits_iff]
  exact and_congr_right fun ht => not_congr (hasCycle_declare_iff hnew hs hacyclic ht)

/-! ### The text -/

theorem documents_declare : documents (declare s t) =
    documents s ++ if isBuiltInType t.name then [] else [typeDocument t] := by
  have hblock : needsSchemaBlock (declare s t) = needsSchemaBlock s := rfl
  have hdocument : schemaDocument (declare s t) = schemaDocument s := rfl
  have hdirectives : printedDirectives (declare s t) = printedDirectives s := rfl
  have htypes : printedTypes (declare s t) =
      printedTypes s ++ if isBuiltInType t.name then [] else [t] := by
    unfold printedTypes
    rw [toList_declare hnew, List.filter_append]
    cases hbuiltIn : isBuiltInType t.name <;> simp [hbuiltIn]
  unfold documents
  rw [hblock, hdocument, hdirectives, htypes, List.map_append, ← List.append_assoc]
  cases isBuiltInType t.name <;> rfl

end

theorem write_ne_nil_of_mem {document : Document} {text : List Char}
    (h : .source text ∈ document) (hne : text ≠ []) (descriptions : Descriptions) :
    document.write descriptions ≠ [] := by
  intro hnil
  exact hne (List.flatMap_eq_nil_iff.mp hnil _ h)

theorem write_ne_nil (descriptions : Descriptions) (s : Schema) :
    ∀ document ∈ documents s, document.write descriptions ≠ [] := by
  refine forall_mem_documents ?_ (fun d _ => ?_) fun t _ => ?_
  · have htext : "\x7d".toList ≠ [] := by decide
    exact write_ne_nil_of_mem (List.mem_append_right _ List.mem_cons_self)
      (List.append_ne_nil_of_right_ne_nil _ htext) descriptions
  · have htext : "directive @".toList ≠ [] := by decide
    exact write_ne_nil_of_mem
      (List.mem_append_left _ (List.mem_append_right _ List.mem_cons_self))
      (List.append_ne_nil_of_left_ne_nil htext _) descriptions
  · have htext : (keyword t.kind).toList ≠ [] := by cases t.kind <;> decide
    exact write_ne_nil_of_mem (List.mem_append_right _ List.mem_cons_self)
      (List.append_ne_nil_of_left_ne_nil htext _) descriptions

section

variable {descriptions : Descriptions} {ds : List Document}
  (h : ∀ document ∈ ds, document.write descriptions ≠ [])
include h

theorem writeAll_eq_nil_iff : writeAll descriptions ds = [] ↔ ds = [] := by
  cases ds with
  | nil => simp [writeAll, List.intercalate]
  | cons document ds =>
    rw [writeAll, List.map_cons, intercalate_cons, List.append_eq_nil_iff]
    simp [h document List.mem_cons_self]

/-- A definition at the end is set off by a blank line, unless it is the only one. -/
theorem writeAll_concat (document : Document) :
    writeAll descriptions (ds ++ [document]) = writeAll descriptions ds ++
      (if writeAll descriptions ds = [] then [] else ['\n', '\n']) ++
        document.write descriptions := by
  cases hds : ds with
  | nil => simp [writeAll, List.intercalate]
  | cons first rest =>
    have hne : writeAll descriptions ds ≠ [] := by
      rw [Ne, writeAll_eq_nil_iff h, hds]
      exact List.cons_ne_nil first rest
    rw [← hds, if_neg hne, hds]
    unfold writeAll
    rw [List.cons_append, List.map_cons, List.map_cons, intercalate_cons, intercalate_cons,
      List.map_append, List.flatMap_append]
    simp only [List.map_cons, List.map_nil, List.flatMap_cons, List.flatMap_nil, List.append_nil,
      List.append_assoc]

end

/-- **One more type only adds to the text of a schema.** Under a name that is not declared it can be
added if it fits, and then the text is the one of before, if every service provides the type;
otherwise its definition, which is the same in all schemas, follows after a blank line. -/
theorem print_declare {descriptions : Descriptions} {s : Schema} {text : List Char}
    (h : print descriptions s = .ok text) {t : TypeDefinition} (hnew : ¬ Declared s t.name) :
    ((∃ text', print descriptions (declare s t) = .ok text') ↔ Fits (declare s t) t) ∧
      ∀ text', print descriptions (declare s t) = .ok text' →
        (Provided t.name → text' = text) ∧
        (¬ Provided t.name → text' = text ++ (if text = [] then [] else ['\n', '\n']) ++
          (typeDocument t).write descriptions) := by
  obtain ⟨hcheck, rfl⟩ := print_eq_ok_iff.mp h
  obtain ⟨hs, hacyclic⟩ := check_eq_ok_iff_resolvable.mp hcheck
  constructor
  · rw [exists_print_eq_ok_iff, check_eq_ok_iff_resolvable,
      printable_declare_iff hnew hs hacyclic]
  intro text' h'
  obtain ⟨-, rfl⟩ := print_eq_ok_iff.mp h'
  rw [documents_declare hnew, provided_iff]
  constructor
  · intro hprovided
    rw [if_pos hprovided, List.append_nil]
  · intro hprinted
    rw [if_neg hprinted, writeAll_concat (write_ne_nil descriptions s)]

/-- A schema with an interface, and a scalar that every service provides. -/
def single : Schema where
  description := none
  query := none
  mutation := none
  subscription := none
  types := .ofList [⟨"ID", none, .scalar none⟩,
    ⟨"Node", none, .interface [] [⟨"id", none, [], .named "ID", none⟩]⟩]
  directives := []

/-- An interface that uses itself, but does not list itself. -/
def further : TypeDefinition :=
  ⟨"Page", none, .interface ["Node"] [⟨"id", none, [], .named "ID", none⟩,
    ⟨"next", none, [], .named "Page", none⟩]⟩

theorem print_declare_further :
    print .shown single = .ok "interface Node \x7b\n  id: ID\n\x7d".toList ∧
      ¬ Declared single further.name ∧ Fits (declare single further) further ∧
      print .shown (declare single further) =
        .ok ("interface Node \x7b\n  id: ID\n\x7d\n\n" ++
          "interface Page implements Node \x7b\n  id: ID\n  next: Page\n\x7d").toList := by
  have hreferences : checkReferences single = .ok () := by decide +kernel
  have hcycles : checkInterfaceCycles single = .ok () := by
    have hinterfaces : interfaceNames single = ["Node"] := by decide +kernel
    have hnode : implementedBy single "Node" = [] := by decide +kernel
    simp [checkInterfaceCycles, searchAll, search, hinterfaces, hnode, bind, Except.bind, pure,
      Except.pure]
  have h : print .shown single = .ok "interface Node \x7b\n  id: ID\n\x7d".toList :=
    print_eq_ok_iff.mpr ⟨check_eq_ok_iff.mpr ⟨hreferences, hcycles⟩, by decide +kernel⟩
  have hnew : ¬ Declared single further.name := by decide +kernel
  have hfits : Fits (declare single further) further :=
    ⟨by decide +kernel, by decide +kernel⟩
  have hprovided : ¬ Provided further.name := by
    rw [provided_iff]
    decide +kernel
  obtain ⟨hprinted, htext⟩ := print_declare h hnew
  obtain ⟨text, hlarger⟩ := hprinted.mpr hfits
  refine ⟨h, hnew, hfits, hlarger.trans (congrArg Except.ok ?_)⟩
  rw [(htext text hlarger).2 hprovided]
  decide +kernel

end IntrospectSdl.Proofs.Printing.Extension
