import Mathlib.Tactic.SplitIfs
import IntrospectSdl.Proofs.Chains
import IntrospectSdl.Proofs.Declarations
import IntrospectSdl.Sdl.Printer

/-! # Printing: what an accepted schema is

A schema is printed if its check succeeds (`print_eq_ok_iff`). Then each of its references passes,
and so each name that refers to a type is the name of a declared one, and of an object or an
interface where it has to be (`kind_of_check`). -/

namespace IntrospectSdl.Proofs.Printing.Acceptance

open IntrospectSdl.Sdl IntrospectSdl.Proofs.Chains IntrospectSdl.Proofs.Declarations

theorem check_eq_ok_iff {s : Schema} :
    check s = .ok () ↔ checkReferences s = .ok () ∧ checkInterfaceCycles s = .ok () := by
  rw [check]
  cases checkReferences s <;> simp [bind, Except.bind]

theorem print_eq_ok_iff {s : Schema} {d : Descriptions} {text : List Char} :
    print d s = .ok text ↔ check s = .ok () ∧ writeAll d (documents s) = text := by
  rw [print]
  cases check s <;> simp [bind, Except.bind, pure, Except.pure]

theorem exists_print_eq_ok_iff {s : Schema} {descriptions : Descriptions} :
    (∃ text, print descriptions s = .ok text) ↔ check s = .ok () := by
  simp only [print_eq_ok_iff, exists_and_left, exists_eq', and_true]

theorem print_eq_error_iff {s : Schema} {descriptions : Descriptions} {e : PrintError} :
    print descriptions s = .error e ↔ check s = .error e := by
  rw [print, bind_eq_error_iff, or_iff_left]
  rintro ⟨_, _, hpure⟩
  cases hpure

theorem forall_mem_documents {s : Schema} {p : Document → Prop} (hblock : p (schemaDocument s))
    (hdirectives : ∀ d ∈ s.directives, p (directiveDocument d))
    (htypes : ∀ t ∈ s.types.toList, p (typeDocument t)) : ∀ d ∈ documents s, p d := by
  intro d hd
  rw [documents, List.mem_append, List.mem_append] at hd
  rcases hd with (hd | hd) | hd
  · split_ifs at hd
    · rw [List.mem_singleton.mp hd]
      exact hblock
    · cases hd
  · obtain ⟨directive, hm, rfl⟩ := List.mem_map.mp hd
    exact hdirectives _ (List.mem_filter.mp hm).1
  · obtain ⟨t, hm, rfl⟩ := List.mem_map.mp hd
    exact htypes _ (List.mem_filter.mp hm).1

/-! ### References -/

theorem root_mem_references {s : Schema} {operation : Operation} {name : String}
    (h : s.root operation = some name) : ⟨name, .root operation⟩ ∈ references s := by
  have hall : operation ∈ Operation.all := by cases operation <;> decide
  have hroot : ⟨name, .root operation⟩ ∈ rootReferences s :=
    List.mem_filterMap.mpr ⟨operation, hall, by rw [h]; rfl⟩
  exact List.mem_append_left _ (List.mem_append_left _ hroot)

theorem type_mem_references {s : Schema} {t : TypeDefinition} {r : Reference}
    (ht : t ∈ s.types.toList) (hr : r ∈ typeReferences t) : r ∈ references s :=
  List.mem_append_left _ (List.mem_append_right _ (List.mem_flatMap.mpr ⟨t, ht, hr⟩))

theorem directive_mem_references {s : Schema} {d : Directive} {r : Reference}
    (hd : d ∈ s.directives) (hr : r ∈ directiveReferences d) : r ∈ references s :=
  List.mem_append_right _ (List.mem_flatMap.mpr ⟨d, hd, hr⟩)

/-- The kind that a type has to be of to stand at a site, if only one will do. -/
def demanded : Site → Option TypeKind
  | .root _ => some .object
  | .interfaces _ => some .interface
  | _ => none

theorem checkReference_eq_ok_iff {s : Schema} {r : Reference} :
    checkReference s.types r = .ok () ↔
      ∃ kind, kindIn s r.name = some kind ∧ ∀ wanted ∈ demanded r.site, kind = wanted := by
  obtain ⟨name, site⟩ := r
  rw [checkReference, kindIn]
  cases s.types.find? name with
  | none => simp
  | some t => cases site <;> simp [demanded]

/-- **Every reference of an accepted schema is to a declared type that may stand there.** -/
theorem kind_of_check {s : Schema} (h : check s = .ok ()) {r : Reference}
    (hr : r ∈ references s) :
    ∃ kind, kindIn s r.name = some kind ∧ ∀ wanted ∈ demanded r.site, kind = wanted :=
  checkReference_eq_ok_iff.mp (forM_eq_ok_iff.mp (check_eq_ok_iff.mp h).1 r hr)

theorem declared_of_check {s : Schema} (h : check s = .ok ()) {r : Reference}
    (hr : r ∈ references s) : ∃ t ∈ s.types.toList, t.name = r.name := by
  obtain ⟨kind, hkind, -⟩ := kind_of_check h hr
  obtain ⟨t, ht, hname, -⟩ := kindIn_eq_some_iff.mp hkind
  exact ⟨t, ht, hname⟩

end IntrospectSdl.Proofs.Printing.Acceptance
