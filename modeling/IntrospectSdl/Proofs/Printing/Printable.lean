import IntrospectSdl.Proofs.Interfaces.Cycles
import IntrospectSdl.Proofs.Interfaces.Steps
import IntrospectSdl.Proofs.Printing.Acceptance

/-! # Printing: the schemas that are printed

A schema is resolvable if its roots are declared objects, what its types implement are declared
interfaces, and all other names that refer to types are declared (`Resolvable`). This is said along
the parts of a schema, whether they are printed or not, and without the list of references that the
check goes through; part by part, the references pass if the part is resolvable
(`forall_references_iff`). The resolvable schemas without cycles of interfaces are the ones that are
printed, and to tell this the search for a cycle takes a number of steps that is bounded by the size
of the schema (`print_ok_iff`). -/

namespace IntrospectSdl.Proofs.Printing.Printable

open IntrospectSdl.Sdl IntrospectSdl.Proofs.Chains IntrospectSdl.Proofs.Declarations
open IntrospectSdl.Proofs.Interfaces.Cycles IntrospectSdl.Proofs.Interfaces.Steps
open IntrospectSdl.Proofs.Printing.Acceptance

section

variable (s : Schema)

/-! ### Resolvable schemas -/

/-- Some type has the name. -/
def Declared (name : String) : Prop := ∃ t ∈ s.types.toList, t.name = name

instance (name : String) : Decidable (Declared s name) :=
  inferInstanceAs (Decidable (∃ t ∈ s.types.toList, t.name = name))

/-- The types that a field refers to are declared. -/
structure ResolvableField (f : Field) : Prop where
  type : Declared s f.type.innermost
  arguments : ∀ a ∈ f.arguments, Declared s a.type.innermost

/-- What a type refers to is declared, and as an interface where the type implements it. -/
def ResolvableBody : TypeBody → Prop
  | .object interfaces fields | .interface interfaces fields =>
    (∀ name ∈ interfaces, kindIn s name = some .interface) ∧ ∀ f ∈ fields, ResolvableField s f
  | .union members => ∀ name ∈ members, Declared s name
  | .inputObject _ fields => ∀ f ∈ fields, Declared s f.type.innermost
  | .scalar _ | .enum _ => True

/-- **All that a schema refers to is declared**, its roots as objects. -/
structure Resolvable : Prop where
  roots : ∀ operation, ∀ name ∈ s.root operation, kindIn s name = some .object
  types : ∀ t ∈ s.types.toList, ResolvableBody s t.body
  directives : ∀ d ∈ s.directives, ∀ a ∈ d.arguments, Declared s a.type.innermost

/-- A reference is to a declared type that may stand there. -/
def Passes (r : Reference) : Prop :=
  ∃ kind, kindIn s r.name = some kind ∧ ∀ wanted ∈ demanded r.site, kind = wanted

end

variable {s : Schema}

/-! ### References that pass -/

theorem declared_of_kindIn {name : String} {kind : TypeKind} (h : kindIn s name = some kind) :
    Declared s name := by
  obtain ⟨t, ht, hname, -⟩ := kindIn_eq_some_iff.mp h
  exact ⟨t, ht, hname⟩

theorem passes_iff_declared {r : Reference} (h : demanded r.site = none) :
    Passes s r ↔ Declared s r.name := by
  rw [Passes, h]
  constructor
  · rintro ⟨kind, hkind, -⟩
    exact declared_of_kindIn hkind
  · rintro ⟨t, ht, hname⟩
    exact ⟨t.kind, kindIn_eq_some_iff.mpr ⟨t, ht, hname, rfl⟩, by simp⟩

theorem passes_iff_kind {r : Reference} {kind : TypeKind} (h : demanded r.site = some kind) :
    Passes s r ↔ kindIn s r.name = some kind := by
  rw [Passes, h]
  constructor
  · rintro ⟨found, hfound, hwanted⟩
    rw [hfound, hwanted kind rfl]
  · intro hkind
    exact ⟨kind, hkind, fun wanted hwanted => Option.some_inj.mp hwanted⟩

theorem forall_fieldReferences_iff {type : String} {f : Field} :
    (∀ r ∈ fieldReferences type f, Passes s r) ↔ ResolvableField s f := by
  rw [fieldReferences, List.forall_mem_cons, List.forall_mem_map, passes_iff_declared rfl]
  constructor
  · rintro ⟨htype, harguments⟩
    exact ⟨htype, fun a ha => (passes_iff_declared rfl).mp (harguments a ha)⟩
  · rintro ⟨htype, harguments⟩
    exact ⟨htype, fun a ha => (passes_iff_declared rfl).mpr (harguments a ha)⟩

theorem forall_compositeReferences_iff {type : String} {interfaces : List String}
    {fields : List Field} :
    (∀ r ∈ compositeReferences type interfaces fields, Passes s r) ↔
      (∀ name ∈ interfaces, kindIn s name = some .interface) ∧
        ∀ f ∈ fields, ResolvableField s f := by
  rw [compositeReferences, List.forall_mem_append, List.forall_mem_map, List.forall_mem_flatMap]
  exact and_congr (forall₂_congr fun name _ => passes_iff_kind rfl)
    (forall₂_congr fun f _ => forall_fieldReferences_iff)

/-- **The references of a type pass if its body is resolvable.** -/
theorem forall_typeReferences_iff {t : TypeDefinition} :
    (∀ r ∈ typeReferences t, Passes s r) ↔ ResolvableBody s t.body := by
  obtain ⟨name, description, body⟩ := t
  cases body with
  | scalar url => simp [typeReferences, ResolvableBody]
  | object interfaces fields => exact forall_compositeReferences_iff
  | interface interfaces fields => exact forall_compositeReferences_iff
  | union members =>
    rw [typeReferences, List.forall_mem_map]
    exact forall₂_congr fun name _ => passes_iff_declared rfl
  | enum values => simp [typeReferences, ResolvableBody]
  | inputObject oneOf fields =>
    rw [typeReferences, List.forall_mem_map]
    exact forall₂_congr fun f _ => passes_iff_declared rfl

theorem forall_directiveReferences_iff {d : Directive} :
    (∀ r ∈ directiveReferences d, Passes s r) ↔
      ∀ a ∈ d.arguments, Declared s a.type.innermost := by
  rw [directiveReferences, List.forall_mem_map]
  exact forall₂_congr fun a _ => passes_iff_declared rfl

theorem forall_rootReferences_iff :
    (∀ r ∈ rootReferences s, Passes s r) ↔
      ∀ operation, ∀ name ∈ s.root operation, kindIn s name = some .object := by
  constructor
  · intro h operation name hname
    have hall : operation ∈ Operation.all := by cases operation <;> decide
    have hmem : ⟨name, .root operation⟩ ∈ rootReferences s :=
      List.mem_filterMap.mpr ⟨operation, hall, by rw [hname]; rfl⟩
    exact (passes_iff_kind rfl).mp (h _ hmem)
  · intro h r hr
    obtain ⟨operation, -, hroot⟩ := List.mem_filterMap.mp hr
    obtain ⟨name, hname, rfl⟩ := Option.map_eq_some_iff.mp hroot
    exact (passes_iff_kind rfl).mpr (h operation name hname)

/-- **All references of a schema pass if it is resolvable.** -/
theorem forall_references_iff : (∀ r ∈ references s, Passes s r) ↔ Resolvable s := by
  rw [references, List.forall_mem_append, List.forall_mem_append, forall_rootReferences_iff,
    List.forall_mem_flatMap, List.forall_mem_flatMap]
  simp only [forall_typeReferences_iff, forall_directiveReferences_iff]
  constructor
  · rintro ⟨⟨hroots, htypes⟩, hdirectives⟩
    exact ⟨hroots, htypes, hdirectives⟩
  · rintro ⟨hroots, htypes, hdirectives⟩
    exact ⟨⟨hroots, htypes⟩, hdirectives⟩

/-! ### The check -/

theorem checkReferences_eq_ok_iff : checkReferences s = .ok () ↔ Resolvable s := by
  rw [checkReferences, forM_eq_ok_iff, ← forall_references_iff]
  exact forall₂_congr fun r _ => checkReference_eq_ok_iff

theorem checkInterfaceCycles_eq_ok_iff : checkInterfaceCycles s = .ok () ↔ ¬ HasCycle s := by
  rw [← (checkInterfaceCycles_eq_error_iff s).1]
  cases checkInterfaceCycles s <;> simp

theorem check_eq_ok_iff_resolvable : check s = .ok () ↔ Resolvable s ∧ ¬ HasCycle s := by
  rw [check_eq_ok_iff, checkReferences_eq_ok_iff, checkInterfaceCycles_eq_ok_iff]

/-- The number of steps that are enough to search a schema for cycles: two for each interface, one
for each that an interface implements, and one more. -/
def searchSteps (s : Schema) : Nat :=
  2 * (interfaceNames s).length + ((interfaceNames s).flatMap (implementedBy s)).length + 1

/-- **A schema is printed exactly if it is resolvable and its interfaces do not implement each other
in a circle**, and the search for a circle comes to its end in as many steps as the schema is
large. -/
theorem print_ok_iff (descriptions : Descriptions) (s : Schema) :
    ((∃ text, print descriptions s = .ok text) ↔ Resolvable s ∧ ¬ HasCycle s) ∧
      (advance (implementedBy s))^[searchSteps s]
          (.running (interfaceNames s) (interfaceNames s) []) =
        .ended (searchAll (implementedBy s) (interfaceNames s)) := by
  constructor
  · rw [← checkReferences_eq_ok_iff, ← checkInterfaceCycles_eq_ok_iff, ← check_eq_ok_iff]
    simp only [print_eq_ok_iff, exists_and_left, exists_eq', and_true]
  · exact iterate_searchAll (implementedBy s) (interfaceNames s)

end IntrospectSdl.Proofs.Printing.Printable
