import Mathlib.Data.List.Induction
import Mathlib.Data.List.Nodup
import IntrospectSdl.Schema.Basic

/-! # Declarations: what a type table holds

No two definitions of a table have one name (`nodup_names`), and so the definition of a name is
found by looking through the definitions in order (`find?_eq`). A table is told by its definitions
alone (`eq_of_toList_eq`): a list of definitions becomes the table of the first one of each name
(`toList_ofList_eq`), which are all of them if their names differ (`toList_ofList`), and every table
comes about in this way (`ofList_toList`). What matters for most references is the kind of type that
a name is declared for (`kindIn`). -/

namespace IntrospectSdl.Proofs.Declarations

/-- The names of definitions, in order. -/
def names (definitions : List TypeDefinition) : List String := definitions.map (·.name)

/-- **Names are declared once.** -/
theorem nodup_names (t : TypeTable) : (names t.toList).Nodup := by
  rw [List.nodup_iff_getElem?_ne_getElem?]
  intro i j hij hj heq
  have hat : ∀ k : Nat,
      (names t.toList)[k]? = t.definitions[k]?.map TypeDefinition.name := fun k => by
    rw [names, List.getElem?_map, TypeTable.toList, Array.getElem?_toList]
  obtain ⟨name, hname⟩ : ∃ name, (names t.toList)[j]? = some name :=
    ⟨_, List.getElem?_eq_getElem hj⟩
  have hi : t.positions[name]? = some i := by rw [t.indexed, ← hat, heq, hname]
  have hj : t.positions[name]? = some j := by rw [t.indexed, ← hat, hname]
  rw [hi, Option.some_inj] at hj
  omega

theorem find?_eq (t : TypeTable) (name : String) :
    t.find? name = t.toList.find? (·.name == name) := by
  cases h : t.toList.find? (·.name == name) with
  | none =>
    rw [Option.eq_none_iff_forall_ne_some]
    intro d hd
    rw [TypeTable.find?_eq_some_iff] at hd
    exact absurd (beq_iff_eq.mpr hd.2) (List.find?_eq_none.mp h d hd.1)
  | some d =>
    rw [TypeTable.find?_eq_some_iff]
    exact ⟨List.mem_of_find?_eq_some h, by simpa using List.find?_some h⟩

theorem eq_of_toList_eq {t u : TypeTable} (h : t.toList = u.toList) : t = u := by
  have hd : t.definitions = u.definitions := Array.toList_inj.mp h
  have hp : t.positions = u.positions := by
    refine Std.ExtTreeMap.ext_getElem? fun name => Option.ext fun i => ?_
    rw [t.indexed, u.indexed, hd]
  obtain ⟨definitions, positions, indexed⟩ := t
  obtain ⟨definitions', positions', indexed'⟩ := u
  subst hd
  subst hp
  rfl

/-! ### Tables of definitions -/

/-- Definitions without those whose name occurs before. -/
def firstOnes : List TypeDefinition → List TypeDefinition
  | [] => []
  | d :: rest => d :: (firstOnes rest).filter (·.name ≠ d.name)

theorem mem_names_firstOnes {definitions : List TypeDefinition} {name : String} :
    name ∈ names (firstOnes definitions) ↔ name ∈ names definitions := by
  induction definitions with
  | nil => rfl
  | cons d rest ih =>
    simp only [names, firstOnes, List.map_cons, List.mem_cons, List.mem_map,
      List.mem_filter] at ih ⊢
    rw [← ih]
    by_cases hname : name = d.name
    · simp [hname]
    · simp only [hname, false_or]
      refine exists_congr fun e => ⟨fun h => ⟨h.1.1, h.2⟩, fun h => ⟨⟨h.1, ?_⟩, h.2⟩⟩
      simpa [h.2] using hname

theorem firstOnes_concat (definitions : List TypeDefinition) (d : TypeDefinition) :
    firstOnes (definitions ++ [d]) =
      if d.name ∈ names definitions then firstOnes definitions
      else firstOnes definitions ++ [d] := by
  induction definitions with
  | nil => rfl
  | cons e rest ih =>
    rw [List.cons_append, firstOnes, ih]
    by_cases hrest : d.name ∈ names rest
    · have hmem : d.name ∈ names (e :: rest) := List.mem_cons_of_mem _ hrest
      rw [if_pos hrest, if_pos hmem, firstOnes]
    · rw [if_neg hrest, List.filter_append]
      by_cases hname : d.name = e.name
      · have hmem : d.name ∈ names (e :: rest) := hname ▸ List.mem_cons_self
        rw [if_pos hmem, firstOnes, List.filter_cons_of_neg (by simp [hname]), List.filter_nil,
          List.append_nil]
      · have hmem : d.name ∉ names (e :: rest) := List.not_mem_cons_of_ne_of_not_mem hname hrest
        rw [if_neg hmem, firstOnes, List.filter_cons_of_pos (by simp [hname])]
        rfl

theorem firstOnes_eq_self {definitions : List TypeDefinition} (h : (names definitions).Nodup) :
    firstOnes definitions = definitions := by
  induction definitions with
  | nil => rfl
  | cons d rest ih =>
    rw [names, List.map_cons, List.nodup_cons] at h
    rw [firstOnes, ih h.2, List.filter_eq_self.mpr]
    intro e he
    have hname : e.name ≠ d.name := fun heq => h.1 (heq ▸ List.mem_map_of_mem he)
    exact decide_eq_true hname

theorem ofList_concat (definitions : List TypeDefinition) (d : TypeDefinition) :
    TypeTable.ofList (definitions ++ [d]) = (TypeTable.ofList definitions).insert d :=
  List.foldl_concat ..

/-- **The table of a list of definitions holds the first ones.** -/
theorem toList_ofList_eq (definitions : List TypeDefinition) :
    (TypeTable.ofList definitions).toList = firstOnes definitions := by
  induction definitions using List.reverseRecOn with
  | nil => rfl
  | append_singleton definitions d ih =>
    have hcontains : (TypeTable.ofList definitions).contains d.name = true ↔
        d.name ∈ names definitions := by
      rw [TypeTable.contains_iff, ih, ← mem_names_firstOnes, names, List.mem_map]
    rw [ofList_concat, TypeTable.toList_insert, ih, firstOnes_concat]
    exact if_congr hcontains rfl rfl

/-- **A list of definitions with different names becomes the table of these definitions.** -/
theorem toList_ofList {definitions : List TypeDefinition} (h : (names definitions).Nodup) :
    (TypeTable.ofList definitions).toList = definitions := by
  rw [toList_ofList_eq, firstOnes_eq_self h]

/-- **Every table is made by inserting its definitions in order.** -/
theorem ofList_toList (t : TypeTable) : TypeTable.ofList t.toList = t :=
  eq_of_toList_eq (toList_ofList (nodup_names t))

/-! ### Kinds -/

/-- The kind of the type that a schema declares under a name. -/
def kindIn (s : Schema) (name : String) : Option TypeKind := (s.types.find? name).map (·.kind)

theorem kindIn_eq_some_iff {s : Schema} {name : String} {kind : TypeKind} :
    kindIn s name = some kind ↔ ∃ t ∈ s.types.toList, t.name = name ∧ t.kind = kind := by
  simp only [kindIn, Option.map_eq_some_iff, TypeTable.find?_eq_some_iff, and_assoc]

end IntrospectSdl.Proofs.Declarations
