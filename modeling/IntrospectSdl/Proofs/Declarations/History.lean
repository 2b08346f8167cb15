import Mathlib.Data.Finset.Card
import IntrospectSdl.Convert
import IntrospectSdl.Proofs.Chains
import IntrospectSdl.Proofs.Declarations

/-! # Declarations: what a schema has been given

A schema is changed step by step: it is emptied, replaced by an imported one, its other parts are
set, and definitions are inserted, of which those are refused whose names are declared. Each step
keeps to one equation: the types are the table of the definitions that the schema has been given
since it was last replaced (`types_perform`), and so they are after any number of steps
(`types_run`). What a table holds can then be told from these definitions alone, without looking at
the index: the first definition of each name, in order (`Records`, `records_run`). -/

namespace IntrospectSdl.Proofs.Declarations.History

open IntrospectSdl.Introspection IntrospectSdl.Proofs.Chains

/-! ### Steps -/

/-- What can be done to a schema. -/
inductive Step where
  /-- Everything is taken out. -/
  | clear
  /-- The schema is replaced by that of a payload, if its references resolve. -/
  | load (payload : Payload)
  /-- The schema is replaced by that of a text, if there is a payload in it that can be loaded. -/
  | read (text : String)
  | describe (description : Option String)
  | setRoot (operation : Operation) (name : Option String)
  | setDirectives (directives : List Directive)
  /-- A definition is added, unless its name is declared. -/
  | insert (definition : TypeDefinition)

/-- The schema with another root type. -/
def withRoot (s : Schema) (name : Option String) : Operation → Schema
  | .query => { s with query := name }
  | .mutation => { s with mutation := name }
  | .subscription => { s with subscription := name }

/-- The schema after a step. A step that fails changes nothing. -/
def perform (s : Schema) : Step → Schema
  | .clear => .empty
  | .load payload => payload.toSchema.toOption.getD s
  | .read text => (readSchema text).toOption.getD s
  | .describe description => { s with description }
  | .setRoot operation name => withRoot s name operation
  | .setDirectives directives => { s with directives }
  | .insert definition => { s with types := s.types.insert definition }

/-- The schema after steps from nothing. -/
def run (steps : List Step) : Schema := steps.foldl perform .empty

/-- Whether a definition is taken when it is inserted. -/
def accepts (s : Schema) (definition : TypeDefinition) : Bool :=
  (s.types.insert? definition).isSome

/-! ### What is given -/

/-- The definitions that a payload gives to its schema, one for each type, if it can be loaded. -/
def definitionsOf (payload : Payload) : Except ImportError (List TypeDefinition) := do
  let _ ← payload.toSchema
  let kinds ← declareAll payload.data.schema.types
  payload.data.schema.types.mapM (importType kinds)

/-- The definitions that a schema has been given, with those of one more step. What was given to a
schema that is replaced does not count. -/
def give (given : List TypeDefinition) : Step → List TypeDefinition
  | .clear => []
  | .load payload => (definitionsOf payload).toOption.getD given
  | .read text => ((readPayload text).toOption.bind (definitionsOf · |>.toOption)).getD given
  | .insert definition => given ++ [definition]
  | .describe _ | .setRoot _ _ | .setDirectives _ => given

/-- The definitions that a schema has been given in some steps since it was last replaced. -/
def given (steps : List Step) : List TypeDefinition := steps.foldl give []

theorem find?_filter_of_ne {name other : String} (h : other ≠ name)
    (definitions : List TypeDefinition) :
    (definitions.filter (·.name ≠ other)).find? (·.name == name) =
      definitions.find? (·.name == name) := by
  induction definitions with
  | nil => rfl
  | cons d rest ih =>
    by_cases hd : d.name = other
    · have hname : (d.name == name) = false := by simpa [hd] using h
      rw [List.filter_cons_of_neg (by simp [hd]), List.find?_cons, hname, ih]
    · rw [List.filter_cons_of_pos (by simp [hd]), List.find?_cons, List.find?_cons, ih]

theorem find?_firstOnes (definitions : List TypeDefinition) (name : String) :
    (firstOnes definitions).find? (·.name == name) = definitions.find? (·.name == name) := by
  induction definitions with
  | nil => rfl
  | cons d rest ih =>
    rw [firstOnes, List.find?_cons, List.find?_cons, ← ih]
    cases hname : d.name == name with
    | true => rfl
    | false => exact find?_filter_of_ne (by simpa using hname) (firstOnes rest)

/-! ### What a table holds -/

/-- The table of definitions is the one that has been given just these: its index has the names of
the definitions that it holds, each with the place of the only definition of the name; it holds the
first definition of each name, in order; what is found under a name is the first definition of this
name; and there are as many definitions as different names. -/
structure Records (t : TypeTable) (given : List TypeDefinition) : Prop where
  keys : ∀ name, t.positions.contains name = true ↔ name ∈ names t.toList
  positions : ∀ name i, t.positions[name]? = some i → ∃ d, t.definitions[i]? = some d ∧
    d.name = name ∧ ∀ (j : Nat) e, t.definitions[j]? = some e → e.name = name → j = i
  order : t.toList = firstOnes given
  found : ∀ name, t.find? name = given.find? (·.name == name)
  size : t.size = (names given).toFinset.card

theorem contains_iff_mem_names {t : TypeTable} {name : String} :
    t.contains name = true ↔ name ∈ names t.toList := by
  rw [TypeTable.contains_iff, names, List.mem_map]

theorem exists_only_definition {t : TypeTable} {name : String} {i : Nat}
    (h : t.positions[name]? = some i) : ∃ d, t.definitions[i]? = some d ∧ d.name = name ∧
      ∀ (j : Nat) e, t.definitions[j]? = some e → e.name = name → j = i := by
  obtain ⟨d, hd, hname⟩ := Option.map_eq_some_iff.mp ((t.indexed name i).mp h)
  refine ⟨d, hd, hname, fun j e he hename => ?_⟩
  have hj : t.positions[name]? = some j :=
    (t.indexed name j).mpr (Option.map_eq_some_iff.mpr ⟨e, he, hename⟩)
  exact Option.some_inj.mp (hj.symm.trans h)

theorem records_ofList (definitions : List TypeDefinition) :
    Records (.ofList definitions) definitions where
  keys _ := contains_iff_mem_names
  positions _ _ h := exists_only_definition h
  order := toList_ofList_eq definitions
  found name := by rw [find?_eq, toList_ofList_eq, find?_firstOnes]
  size := by
    have hset : (names definitions).toFinset = (names (firstOnes definitions)).toFinset :=
      Finset.ext fun name => by rw [List.mem_toFinset, List.mem_toFinset, mem_names_firstOnes]
    have hnodup : (names (firstOnes definitions)).Nodup :=
      toList_ofList_eq definitions ▸ nodup_names _
    rw [hset, List.toFinset_card_of_nodup hnodup, names, List.length_map, ← toList_ofList_eq]
    rfl

/-! ### What steps do to the table -/

theorem types_of_toSchema {p : Payload} {s : Schema} (h : p.toSchema = .ok s) :
    ∃ definitions, definitionsOf p = .ok definitions ∧ s.types = .ofList definitions := by
  have hdefinitions : definitionsOf p = (do
      let kinds ← declareAll p.data.schema.types
      p.data.schema.types.mapM (importType kinds)) := by
    rw [definitionsOf, h]
    rfl
  rw [Payload.toSchema] at h
  simp only [bind_eq_ok_iff] at h
  obtain ⟨kinds, hkinds, query, -, mutation, -, subscription, -, types, htypes, directives, -,
    h⟩ := h
  obtain rfl := Except.ok.inj h
  exact ⟨types, hdefinitions.trans (bind_eq_ok_iff.mpr ⟨kinds, hkinds, htypes⟩), rfl⟩

theorem definitionsOf_of_toSchema {p : Payload} {e : ImportError} (h : p.toSchema = .error e) :
    definitionsOf p = .error e := by
  rw [definitionsOf, h]
  rfl

/-- Loading a payload gives the definitions of the payload, and if it fails those of before. -/
theorem types_load {s : Schema} {given : List TypeDefinition} (h : s.types = .ofList given)
    (p : Payload) : (p.toSchema.toOption.getD s).types =
      .ofList ((definitionsOf p).toOption.getD given) := by
  cases hp : p.toSchema with
  | ok t =>
    obtain ⟨definitions, hdefinitions, htypes⟩ := types_of_toSchema hp
    rw [hdefinitions]
    exact htypes
  | error e =>
    rw [definitionsOf_of_toSchema hp]
    exact h

/-- **After a step the types are still the table of what has been given.** -/
theorem types_perform {s : Schema} {given : List TypeDefinition} (h : s.types = .ofList given)
    (step : Step) : (perform s step).types = .ofList (give given step) := by
  cases step with
  | clear => rfl
  | load payload => exact types_load h payload
  | read text =>
    rw [perform, give, readSchema]
    cases readPayload text with
    | error e => exact h
    | ok payload =>
      have hread : (payload.toSchema.mapError ConvertError.wrongReference).toOption =
          payload.toSchema.toOption := by
        cases payload.toSchema <;> rfl
      refine Eq.trans ?_ (types_load h payload)
      rw [← hread]
      rfl
  | describe description => exact h
  | setRoot operation name => cases operation <;> exact h
  | setDirectives directives => exact h
  | insert definition =>
    rw [perform, give, h]
    exact (ofList_concat given definition).symm

/-- **After any steps the types are the table of what has been given.** -/
theorem types_run (steps : List Step) : (run steps).types = .ofList (given steps) := by
  induction steps using List.reverseRecOn with
  | nil => rfl
  | append_singleton steps step ih =>
    have hrun : run (steps ++ [step]) = perform (run steps) step := List.foldl_concat ..
    have hgiven : given (steps ++ [step]) = give (given steps) step := List.foldl_concat ..
    rw [hrun, hgiven]
    exact types_perform ih step

/-! ### Definitions that are taken -/

theorem accepts_iff {s : Schema} {definition : TypeDefinition} :
    accepts s definition = true ↔ definition.name ∉ names s.types.toList := by
  rw [← contains_iff_mem_names, accepts, TypeTable.insert?]
  by_cases h : s.types.contains definition.name = true <;> simp [h]

theorem perform_insert_of_accepts {s : Schema} {definition : TypeDefinition}
    (h : accepts s definition = false) : perform s (.insert definition) = s := by
  have hnone : s.types.insert? definition = none := by simpa [accepts] using h
  rw [perform, TypeTable.insert, hnone]
  rfl

/-- **After any steps the list and the index of the types record what has been given**, and a
definition is taken just if it is the first one of its name. -/
theorem records_run (steps : List Step) :
    Records (run steps).types (given steps) ∧
      ∀ definition,
        (accepts (run steps) definition = true ↔ definition.name ∉ names (given steps)) ∧
        (accepts (run steps) definition = false →
          perform (run steps) (.insert definition) = run steps) := by
  refine ⟨types_run steps ▸ records_ofList (given steps), fun definition => ⟨?_, ?_⟩⟩
  · rw [accepts_iff, types_run, toList_ofList_eq, mem_names_firstOnes]
  · exact perform_insert_of_accepts

end IntrospectSdl.Proofs.Declarations.History
