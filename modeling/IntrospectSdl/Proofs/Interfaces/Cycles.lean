import IntrospectSdl.Proofs.Import.Resolution
import IntrospectSdl.Proofs.Interfaces.Search
import IntrospectSdl.Sdl.InterfaceCycle

/-! # Interfaces: cycles of a schema

An interface implements another if it lists it (`Implements`), and a schema has a cycle if some
interface implements itself along a chain (`HasCycle`). The check for cycles fails exactly for the
schemas that have one, and the path that it reports has closed one
(`checkInterfaceCycles_eq_error_iff`). -/

namespace IntrospectSdl.Proofs.Interfaces.Cycles

open IntrospectSdl.Sdl IntrospectSdl.Proofs.Declarations IntrospectSdl.Proofs.Import.Resolution
open IntrospectSdl.Proofs.Interfaces.Search
open Relation (TransGen)

/-- An interface lists another one among those that it implements. -/
def Implements (s : Schema) (a b : String) : Prop :=
  ∃ t ∈ s.types.toList, t.name = a ∧ t.kind = .interface ∧ b ∈ t.body.interfaces ∧
    kindIn s b = some .interface

/-- An interface implements itself, at once or along a chain of others. -/
def HasCycle (s : Schema) : Prop := ∃ name, TransGen (Implements s) name name

theorem mem_interfaceNames {s : Schema} {name : String} :
    name ∈ interfaceNames s ↔ kindIn s name = some .interface := by
  simp only [interfaceNames, kindIn_eq_some_iff, List.mem_map, List.mem_filter, decide_eq_true_eq]
  constructor
  · rintro ⟨t, ⟨ht, hkind⟩, hname⟩
    exact ⟨t, ht, hname, hkind⟩
  · rintro ⟨t, ht, hname, hkind⟩
    exact ⟨t, ⟨ht, hkind⟩, hname⟩

theorem nodup_interfaceNames (s : Schema) : (interfaceNames s).Nodup :=
  (nodup_names s.types).sublist (List.filter_sublist.map _)

theorem implementedBy_eq {s : Schema} {t : TypeDefinition} (ht : t ∈ s.types.toList)
    (hkind : t.kind = .interface) : implementedBy s t.name = t.body.interfaces := by
  have hfind : s.types.find? t.name = some t := TypeTable.find?_eq_some_iff.mpr ⟨ht, rfl⟩
  obtain ⟨name, description, body⟩ := t
  cases body with
  | interface interfaces fields =>
    simp [implementedBy, TypeTable.interface?, hfind, TypeBody.interfaces]
  | _ => cases hkind

/-- The search goes from an interface to those that it implements. -/
theorem leads_iff {s : Schema} {a b : String} :
    Leads (implementedBy s) (interfaceNames s) a b ↔ Implements s a b := by
  rw [Leads, mem_interfaceNames, mem_interfaceNames, kindIn_eq_some_iff, Implements]
  constructor
  · rintro ⟨⟨t, ht, rfl, hkind⟩, hb, hmem⟩
    exact ⟨t, ht, rfl, hkind, implementedBy_eq ht hkind ▸ hmem, hb⟩
  · rintro ⟨t, ht, rfl, hkind, hmem, hb⟩
    exact ⟨⟨t, ht, rfl, hkind⟩, hb, (implementedBy_eq ht hkind).symm ▸ hmem⟩

theorem leads_eq (s : Schema) : Leads (implementedBy s) (interfaceNames s) = Implements s :=
  funext₂ fun _ _ => propext leads_iff

/-- **The check for cycles fails exactly if there is one**, and reports a path that closes one. -/
theorem checkInterfaceCycles_eq_error_iff (s : Schema) :
    ((∃ e, checkInterfaceCycles s = .error e) ↔ HasCycle s) ∧
      ∀ e, checkInterfaceCycles s = .error e → ∃ path, e = .interfaceCycle path ∧
        ClosesCycle (implementedBy s) (interfaceNames s) path := by
  obtain ⟨hiff, hcloses⟩ := searchAll_eq_error_iff (implementedBy s) (nodup_interfaceNames s)
  rw [leads_eq] at hiff
  rw [HasCycle, ← hiff, checkInterfaceCycles]
  cases hresult : searchAll (implementedBy s) (interfaceNames s) with
  | ok fresh => simp
  | error path =>
    refine ⟨by simp, fun e he => ⟨path, (Except.error.inj he).symm, hcloses path hresult⟩⟩

end IntrospectSdl.Proofs.Interfaces.Cycles
