import IntrospectSdl.Proofs.Printing.Acceptance

/-! # Printing: names

A name consists of letters, digits and underscores and does not begin with a digit (`isName`). The
names that a schema declares are those of its types, fields, arguments, enumeration values and
directives (`declaredNames`); its default values are those of its arguments and input fields
(`inputValues`). Where all declared names are names, so are the names that refer to types, provided
that the schema is accepted (`named_of_check`): what is written between the punctuation of a printed
schema is then known throughout (`NamedType`, `NamedDirective`). -/

namespace IntrospectSdl.Proofs.Printing.Names

open IntrospectSdl.Sdl IntrospectSdl.Proofs.Printing.Acceptance

/-! ### Names -/

/-- Letters and the underscore begin a name. -/
def isNameStart (c : Char) : Bool := c == '_' || c.isAlpha

/-- Letters, digits and the underscore continue a name. -/
def isNameChar (c : Char) : Bool := c == '_' || c.isAlphanum

/-- Whether a text is a name. -/
def isName (name : String) : Bool :=
  match name.toList with
  | [] => false
  | c :: rest => isNameStart c && rest.all isNameChar

theorem isNameChar_of_isNameStart {c : Char} (h : isNameStart c = true) : isNameChar c = true := by
  rw [isNameStart, Bool.or_eq_true] at h
  rw [isNameChar, Char.isAlphanum, Bool.or_eq_true, Bool.or_eq_true]
  exact h.imp_right Or.inl

theorem isName_iff {name : String} : isName name = true ↔ ∃ c rest, name.toList = c :: rest ∧
    isNameStart c = true ∧ ∀ d ∈ c :: rest, isNameChar d = true := by
  cases h : name.toList with
  | nil => simp [isName, h]
  | cons c rest =>
    rw [isName, h, Bool.and_eq_true, List.all_eq_true]
    constructor
    · rintro ⟨hc, hr⟩
      exact ⟨c, rest, rfl, hc, List.forall_mem_cons.mpr ⟨isNameChar_of_isNameStart hc, hr⟩⟩
    · rintro ⟨_, _, ⟨rfl, rfl⟩, hc, hr⟩
      exact ⟨hc, (List.forall_mem_cons.mp hr).2⟩

theorem isNameChar_of_mem {name : String} (h : isName name = true) {c : Char}
    (hc : c ∈ name.toList) : isNameChar c = true := by
  obtain ⟨d, rest, hn, -, hall⟩ := isName_iff.mp h
  exact hall c (hn ▸ hc)

/-! ### The names and default values of a schema -/

/-- The names that a field declares. -/
def fieldNames (f : Field) : List String := f.name :: f.arguments.map (·.name)

/-- The names that a type declares. -/
def typeNames (t : TypeDefinition) : List String :=
  t.name :: match t.body with
    | .object _ fields | .interface _ fields => fields.flatMap fieldNames
    | .enum values => values.map (·.name)
    | .inputObject _ fields => fields.map (·.name)
    | .scalar _ | .union _ => []

/-- The names that a directive declares. -/
def directiveNames (d : Directive) : List String := d.name :: d.arguments.map (·.name)

/-- The names that a schema declares. -/
def declaredNames (s : Schema) : List String :=
  s.types.toList.flatMap typeNames ++ s.directives.flatMap directiveNames

/-- The arguments and input fields of a type. -/
def typeInputValues (t : TypeDefinition) : List InputValue :=
  match t.body with
  | .object _ fields | .interface _ fields => fields.flatMap (·.arguments)
  | .inputObject _ fields => fields
  | .scalar _ | .union _ | .enum _ => []

/-- The arguments and input fields of a schema. -/
def inputValues (s : Schema) : List InputValue :=
  s.types.toList.flatMap typeInputValues ++ s.directives.flatMap (·.arguments)

/-! ### Definitions of which all names are names -/

section

variable (ok : String → Prop)

/-- The names of an argument or input field are names, and its default value is of some kind. -/
structure NamedInput (v : InputValue) : Prop where
  name : isName v.name = true
  type : isName v.type.innermost = true
  default : ∀ d ∈ v.defaultValue, ok d

/-- All names of a field are names, and the default values are of some kind. -/
structure NamedField (f : Field) : Prop where
  name : isName f.name = true
  type : isName f.type.innermost = true
  arguments : ∀ a ∈ f.arguments, NamedInput ok a

/-- All names in the body of a type are names, and the default values are of some kind. -/
def NamedBody : TypeBody → Prop
  | .scalar _ => True
  | .object interfaces fields | .interface interfaces fields =>
    (∀ name ∈ interfaces, isName name = true) ∧ ∀ f ∈ fields, NamedField ok f
  | .union members => ∀ name ∈ members, isName name = true
  | .enum values => ∀ v ∈ values, isName v.name = true
  | .inputObject _ fields => ∀ f ∈ fields, NamedInput ok f

/-- All names of a type are names, and the default values are of some kind. -/
structure NamedType (t : TypeDefinition) : Prop where
  name : isName t.name = true
  body : NamedBody ok t.body

/-- All names of a directive are names, and the default values are of some kind. -/
structure NamedDirective (d : Directive) : Prop where
  name : isName d.name = true
  arguments : ∀ a ∈ d.arguments, NamedInput ok a

/-- All names of a schema are names, and the default values are of some kind. -/
structure NamedSchema (s : Schema) : Prop where
  roots : ∀ operation, ∀ name ∈ s.root operation, isName name = true
  types : ∀ t ∈ s.types.toList, NamedType ok t
  directives : ∀ d ∈ s.directives, NamedDirective ok d

end

/-! ### Accepted schemas -/

variable {ok : String → Prop} {s : Schema}

theorem type_mem_declaredNames {t : TypeDefinition} {name : String} (ht : t ∈ s.types.toList)
    (hname : name ∈ typeNames t) : name ∈ declaredNames s :=
  List.mem_append_left _ (List.mem_flatMap.mpr ⟨t, ht, hname⟩)

theorem mem_declaredNames_of_reference (hc : check s = .ok ()) {r : Reference}
    (hr : r ∈ references s) : r.name ∈ declaredNames s := by
  obtain ⟨t, ht, hname⟩ := declared_of_check hc hr
  exact hname ▸ type_mem_declaredNames ht List.mem_cons_self

theorem namedField {type : String} {fields : List Field}
    (hn : ∀ name ∈ fields.flatMap fieldNames, isName name = true)
    (hr : ∀ r ∈ fields.flatMap (fieldReferences type), isName r.name = true)
    (hd : ∀ v ∈ fields.flatMap (·.arguments), ∀ d ∈ v.defaultValue, ok d) {f : Field}
    (hf : f ∈ fields) : NamedField ok f := by
  have hn' : ∀ name ∈ fieldNames f, isName name = true :=
    fun n h => hn n (List.mem_flatMap.mpr ⟨f, hf, h⟩)
  have hr' : ∀ r ∈ fieldReferences type f, isName r.name = true :=
    fun r h => hr r (List.mem_flatMap.mpr ⟨f, hf, h⟩)
  refine ⟨hn' _ List.mem_cons_self, hr' _ List.mem_cons_self, fun a ha => ⟨?_, ?_, ?_⟩⟩
  · exact hn' _ (List.mem_cons_of_mem _ (List.mem_map_of_mem ha))
  · exact hr' _ (List.mem_cons_of_mem _ (List.mem_map_of_mem
      (f := fun a => (⟨a.type.innermost, .argument type f.name a.name⟩ : Reference)) ha))
  · exact hd a (List.mem_flatMap.mpr ⟨f, hf, ha⟩)

theorem namedComposite {type : String} {interfaces : List String} {fields : List Field}
    (hn : ∀ name ∈ fields.flatMap fieldNames, isName name = true)
    (hr : ∀ r ∈ compositeReferences type interfaces fields, isName r.name = true)
    (hd : ∀ v ∈ fields.flatMap (·.arguments), ∀ d ∈ v.defaultValue, ok d) :
    (∀ name ∈ interfaces, isName name = true) ∧ ∀ f ∈ fields, NamedField ok f := by
  refine ⟨fun name h => ?_, fun f hf => ?_⟩
  · exact hr ⟨name, .interfaces type⟩ (List.mem_append_left _ (List.mem_map.mpr ⟨name, h, rfl⟩))
  · exact namedField hn (fun r h => hr r (List.mem_append_right _ h)) hd hf

theorem namedType {t : TypeDefinition} (hn : ∀ name ∈ typeNames t, isName name = true)
    (hr : ∀ r ∈ typeReferences t, isName r.name = true)
    (hd : ∀ v ∈ typeInputValues t, ∀ d ∈ v.defaultValue, ok d) : NamedType ok t := by
  obtain ⟨name, description, body⟩ := t
  refine ⟨hn name List.mem_cons_self, ?_⟩
  have hn' := fun n h => hn n (List.mem_cons_of_mem _ h)
  cases body with
  | scalar url => trivial
  | object interfaces fields => exact namedComposite hn' hr hd
  | interface interfaces fields => exact namedComposite hn' hr hd
  | union members =>
    exact fun m hm => hr ⟨m, .members name⟩ (List.mem_map.mpr ⟨m, hm, rfl⟩)
  | enum values => exact fun v hv => hn' _ (List.mem_map_of_mem hv)
  | inputObject oneOf fields =>
    refine fun f hf => ⟨hn' _ (List.mem_map_of_mem hf), ?_, hd f hf⟩
    exact hr ⟨f.type.innermost, .inputField name f.name⟩ (List.mem_map.mpr ⟨f, hf, rfl⟩)

theorem namedDirective {d : Directive} (hn : ∀ name ∈ directiveNames d, isName name = true)
    (hr : ∀ r ∈ directiveReferences d, isName r.name = true)
    (hd : ∀ v ∈ d.arguments, ∀ t ∈ v.defaultValue, ok t) : NamedDirective ok d := by
  refine ⟨hn _ List.mem_cons_self, fun a ha => ⟨?_, ?_, hd a ha⟩⟩
  · exact hn _ (List.mem_cons_of_mem _ (List.mem_map_of_mem ha))
  · exact hr ⟨a.type.innermost, .directiveArgument d.name a.name⟩ (List.mem_map.mpr ⟨a, ha, rfl⟩)

/-- **In an accepted schema whose declared names are names, all names are names.** -/
theorem named_of_check (hc : check s = .ok ())
    (hn : ∀ name ∈ declaredNames s, isName name = true)
    (hd : ∀ v ∈ inputValues s, ∀ d ∈ v.defaultValue, ok d) : NamedSchema ok s := by
  have hr : ∀ r ∈ references s, isName r.name = true := fun r hr =>
    hn _ (mem_declaredNames_of_reference hc hr)
  refine ⟨fun operation name h => ?_, fun t ht => ?_, fun d hmem => ?_⟩
  · exact hr ⟨name, .root operation⟩ (root_mem_references h)
  · refine namedType (fun n h => hn n ?_) (fun r h => hr r (type_mem_references ht h))
      fun v h => hd v ?_
    · exact type_mem_declaredNames ht h
    · exact List.mem_append_left _ (List.mem_flatMap.mpr ⟨t, ht, h⟩)
  · refine namedDirective (fun n h => hn n ?_) (fun r h => hr r (directive_mem_references hmem h))
      fun v h => hd v ?_
    · exact List.mem_append_right _ (List.mem_flatMap.mpr ⟨d, hmem, h⟩)
    · exact List.mem_append_right _ (List.mem_flatMap.mpr ⟨d, hmem, h⟩)

end IntrospectSdl.Proofs.Printing.Names
