import Std.Data.ExtTreeMap
import IntrospectSdl.Schema.Definition

/-! # Type tables

The types of a schema in the order of their declaration, with an index from names to positions. The
first definition of a name counts, and later ones are refused. The index and the definitions cannot
drift apart: a table holds the proof that each name leads to the one definition that has it. -/

namespace IntrospectSdl

/-- The types of a schema. -/
structure TypeTable where
  definitions : Array TypeDefinition
  positions : Std.ExtTreeMap String Nat
  /-- The index leads from a name to a position exactly if the definition there has the name. -/
  indexed : ∀ (name : String) (i : Nat),
    positions[name]? = some i ↔ definitions[i]?.map TypeDefinition.name = some name

namespace TypeTable

/-- The table without types. -/
def empty : TypeTable := ⟨#[], ∅, by simp⟩

instance : Inhabited TypeTable := ⟨empty⟩

/-- The definitions in the order of their declaration. -/
def toList (t : TypeTable) : List TypeDefinition := t.definitions.toList

/-- The number of types. -/
def size (t : TypeTable) : Nat := t.definitions.size

/-- Whether the name is declared. -/
def contains (t : TypeTable) (name : String) : Bool := t.positions.contains name

theorem contains_iff {t : TypeTable} {name : String} :
    t.contains name = true ↔ ∃ d ∈ t.toList, d.name = name := by
  rw [contains, ← Std.ExtTreeMap.isSome_getElem?_eq_contains, Option.isSome_iff_exists]
  simp only [t.indexed, Option.map_eq_some_iff]
  constructor
  · rintro ⟨i, d, hi, hd⟩
    exact ⟨d, Array.mem_toList_iff.mpr (Array.mem_of_getElem? hi), hd⟩
  · rintro ⟨d, hd, rfl⟩
    obtain ⟨i, hi⟩ := Array.getElem?_of_mem (Array.mem_toList_iff.mp hd)
    exact ⟨i, d, hi, rfl⟩

theorem indexed_push (t : TypeTable) {d : TypeDefinition} (h : t.contains d.name = false)
    (name : String) (i : Nat) :
    (t.positions.insert d.name t.size)[name]? = some i ↔
      (t.definitions.push d)[i]?.map TypeDefinition.name = some name := by
  rw [Std.ExtTreeMap.getElem?_insert, Array.getElem?_push, size]
  by_cases hn : d.name = name
  · subst hn
    by_cases hi : i = t.definitions.size
    · simp [hi]
    · have hnew : t.positions[d.name]? ≠ some i := fun he => by
        rw [contains, ← Std.ExtTreeMap.isSome_getElem?_eq_contains, he] at h
        cases h
      rw [Ne, t.indexed] at hnew
      simpa [hi, Ne.symm hi, eq_comm] using hnew
  · by_cases hi : i = t.definitions.size
    · have hold : t.positions[name]? ≠ some i := by simp [t.indexed, hi]
      simpa [hn, hi] using hold
    · simp [hn, hi, t.indexed]

/-- The table with one more definition, or nothing if its name is declared already. -/
def insert? (t : TypeTable) (definition : TypeDefinition) : Option TypeTable :=
  if h : t.contains definition.name then none
  else some ⟨t.definitions.push definition, t.positions.insert definition.name t.size,
    t.indexed_push (Bool.eq_false_iff.mpr h)⟩

/-- The table with one more definition, unless its name is declared already. -/
def insert (t : TypeTable) (definition : TypeDefinition) : TypeTable :=
  (t.insert? definition).getD t

/-- The table of definitions, of which the first counts where several have one name. -/
def ofList (definitions : List TypeDefinition) : TypeTable := definitions.foldl insert empty

/-- The definition of a name. -/
def find? (t : TypeTable) (name : String) : Option TypeDefinition := do
  t.definitions[← t.positions[name]?]?

/-- The interfaces that the interface of a name implements; nothing if it is not one. -/
def interface? (t : TypeTable) (name : String) : Option (List String) := do
  match (← t.find? name).body with
  | .interface interfaces _ => some interfaces
  | _ => none

@[simp] theorem toList_empty : empty.toList = [] := rfl

theorem toList_insert (t : TypeTable) (d : TypeDefinition) :
    (t.insert d).toList = if t.contains d.name then t.toList else t.toList ++ [d] := by
  by_cases h : t.contains d.name <;> simp [insert, insert?, toList, h]

theorem find?_eq_some_iff {t : TypeTable} {name : String} {d : TypeDefinition} :
    t.find? name = some d ↔ d ∈ t.toList ∧ d.name = name := by
  simp only [find?, Option.bind_eq_bind, Option.bind_eq_some_iff]
  constructor
  · rintro ⟨i, hp, hi⟩
    rw [t.indexed, hi] at hp
    exact ⟨Array.mem_toList_iff.mpr (Array.mem_of_getElem? hi), by simpa using hp⟩
  · rintro ⟨hd, rfl⟩
    obtain ⟨i, hi⟩ := Array.getElem?_of_mem (Array.mem_toList_iff.mp hd)
    exact ⟨i, by rw [t.indexed, hi]; rfl, hi⟩

end TypeTable

end IntrospectSdl
