import IntrospectSdl.Convert
import IntrospectSdl.Proofs.Interfaces.Cycles
import IntrospectSdl.Proofs.Printing.Printable

/-! # Conversion: the one reason not to print

The import and the printer each check the references of a schema. What the import lets through is
well-formed, and what a well-formed schema refers to is declared, so that its references pass the
check of the printer (`checkReferences_of_wellFormed`). So an imported schema can only fail to be
printed because its interfaces implement each other in a circle (`convert_eq_notPrintable_iff`). -/

namespace IntrospectSdl.Proofs.Conversion

open IntrospectSdl.Introspection IntrospectSdl.Sdl IntrospectSdl.Proofs.Chains
open IntrospectSdl.Proofs.Declarations
open IntrospectSdl.Proofs.Import.Resolution IntrospectSdl.Proofs.Interfaces.Cycles
open IntrospectSdl.Proofs.Printing.Acceptance IntrospectSdl.Proofs.Printing.Printable

/-! ### Well-formed schemas -/

section

variable {s : Schema}

theorem declared_of_resolves {usage : Usage} {type : TypeRef}
    (h : Resolves (kindIn s) usage type) : Declared s type.innermost := by
  induction type with
  | named name =>
    obtain ⟨kind, -, hkind⟩ := h
    exact declared_of_kindIn hkind
  | list item ih => exact ih h
  | nonNull type ih => exact ih h.2

theorem resolvableField_of_resolvedField {f : Field} (h : ResolvedField (kindIn s) f) :
    ResolvableField s f :=
  ⟨declared_of_resolves h.type, fun a ha => declared_of_resolves (h.arguments a ha)⟩

theorem resolvableBody_of_resolvedBody {body : TypeBody} (h : ResolvedBody (kindIn s) body) :
    ResolvableBody s body := by
  cases body with
  | scalar url => trivial
  | object interfaces fields =>
    exact ⟨h.1, fun f hf => resolvableField_of_resolvedField (h.2 f hf)⟩
  | interface interfaces fields =>
    exact ⟨h.1, fun f hf => resolvableField_of_resolvedField (h.2 f hf)⟩
  | union members => exact fun member hmember => declared_of_kindIn (h member hmember)
  | enum values => trivial
  | inputObject oneOf fields => exact fun f hf => declared_of_resolves (h f hf)

/-- **What a well-formed schema refers to is declared.** -/
theorem resolvable_of_wellFormed (h : WellFormed s) : Resolvable s where
  roots := h.roots
  types t ht := resolvableBody_of_resolvedBody (h.types t ht)
  directives d hd a ha := declared_of_resolves (h.directives d hd a ha)

end

/-- **The references of a well-formed schema pass the check of the printer.** -/
theorem checkReferences_of_wellFormed {s : Schema} (h : WellFormed s) :
    checkReferences s = .ok () :=
  checkReferences_eq_ok_iff.mpr (resolvable_of_wellFormed h)

theorem check_of_wellFormed {s : Schema} (h : WellFormed s) :
    check s = checkInterfaceCycles s := by
  rw [check, checkReferences_of_wellFormed h]
  rfl

/-! ### Conversion -/

theorem wellFormed_of_readSchema {text : String} {s : Schema} (h : readSchema text = .ok s) :
    WellFormed s := by
  obtain ⟨p, -, hp⟩ := bind_eq_ok_iff.mp h
  exact wellFormed_of_toSchema (mapError_eq_ok_iff.mp hp)

theorem readSchema_ne_notPrintable (text : String) (e : PrintError) :
    readSchema text ≠ .error (.notPrintable e) := by
  simp [readSchema, readPayload, bind_eq_error_iff, mapError_eq_error_iff]

/-- A conversion fails to print what it has imported if the check for cycles fails. -/
theorem convert_eq_error_iff {choice : DescriptionChoice} {text : String} {e : PrintError} :
    convert choice text = .error (.notPrintable e) ↔
      ∃ s, readSchema text = .ok s ∧ checkInterfaceCycles s = .error e := by
  rw [convert, bind_eq_error_iff]
  refine (or_iff_right (readSchema_ne_notPrintable text e)).trans
    (exists_congr fun s => and_congr_right fun hs => ?_)
  rw [← check_of_wellFormed (wellFormed_of_readSchema hs), bind_eq_error_iff,
    mapError_eq_error_iff]
  constructor
  · rintro (⟨e', he', heq⟩ | ⟨_, _, hpure⟩)
    · obtain rfl := ConvertError.notPrintable.inj heq
      exact print_eq_error_iff.mp he'
    · cases hpure
  · exact fun he => .inl ⟨e, print_eq_error_iff.mpr he, rfl⟩

theorem message_interfaceCycle (path : List String) :
    (ConvertError.notPrintable (.interfaceCycle path)).message =
      "Failed to print schema: interface implementation cycle: " ++ " -> ".intercalate path := by
  have hprefix : "Failed to print schema: " ++ "interface implementation cycle: " =
      "Failed to print schema: interface implementation cycle: " := by decide
  rw [← hprefix, String.append_assoc]
  rfl

/-- **An imported schema is printed unless its interfaces implement each other in a circle**, and
then this is what is said, whether or not descriptions are to be kept. -/
theorem convert_eq_notPrintable_iff (choice : DescriptionChoice) (text : String) :
    ((∃ e, convert choice text = .error (.notPrintable e)) ↔
        ∃ s, readSchema text = .ok s ∧ HasCycle s) ∧
      ∀ e, convert choice text = .error (.notPrintable e) →
        ∃ path : List String, e = .interfaceCycle path ∧ (ConvertError.notPrintable e).message =
          "Failed to print schema: interface implementation cycle: " ++
            " -> ".intercalate path := by
  simp only [convert_eq_error_iff]
  constructor
  · rw [exists_comm]
    refine exists_congr fun s => ?_
    rw [exists_and_left, (checkInterfaceCycles_eq_error_iff s).1]
  · rintro e ⟨s, -, he⟩
    obtain ⟨path, rfl, -⟩ := (checkInterfaceCycles_eq_error_iff s).2 e he
    exact ⟨path, rfl, message_interfaceCycle path⟩

end IntrospectSdl.Proofs.Conversion
