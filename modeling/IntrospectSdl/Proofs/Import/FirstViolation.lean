import Mathlib.Tactic.SplitIfs
import IntrospectSdl.Proofs.Import.Violations

/-! # Import: the first violation is reported

The import stops at its first error, and that is the first violation of the payload
(`reports_toSchema`). A step of the import reports the first of its own violations (`Reports`), and
steps that run one after the other report the first of their lists put together (`Reports.bind`,
`Reports.mapM`). Once the types are declared, the kinds that the steps look up are those of the
first types of a name (`getElem?_declareAll`). -/

namespace IntrospectSdl.Proofs.Import.FirstViolation

open IntrospectSdl.Introspection IntrospectSdl.Proofs.Import.Violations

/-! ### Steps that report the first of a list -/

/-- A step that fails with the first violation of a list, and succeeds if there is none. -/
def Reports {α : Type} (x : Except ImportError α) (vs : List ImportError) : Prop :=
  match x with
  | .ok _ => vs = []
  | .error e => vs.head? = some e

section

variable {α β : Type} {x : Except ImportError α} {vs ws : List ImportError}

theorem reports_ok (a : α) : Reports (.ok a : Except ImportError α) [] := rfl

theorem reports_error (e : ImportError) : Reports (.error e : Except ImportError α) [e] := rfl

/-- One step after another reports what the first does, or else what the second does. -/
theorem Reports.bind {f : α → Except ImportError β} (h : Reports x vs)
    (hf : ∀ a, x = .ok a → Reports (f a) ws) : Reports (x >>= f) (vs ++ ws) := by
  cases x with
  | ok a =>
    have hvs : vs = [] := h
    rw [hvs]
    exact hf a rfl
  | error e =>
    have hvs : vs.head? = some e := h
    change (vs ++ ws).head? = some e
    rw [List.head?_append, hvs]
    rfl

theorem Reports.bind_pure (h : Reports x vs) (g : α → β) :
    Reports (x >>= fun a => pure (g a)) vs := by
  have := h.bind fun a _ => reports_ok (g a)
  rwa [List.append_nil] at this

theorem Reports.mapM {f : α → Except ImportError β} {v : α → List ImportError}
    (h : ∀ a, Reports (f a) (v a)) (l : List α) : Reports (l.mapM f) (l.flatMap v) := by
  induction l with
  | nil => exact reports_ok []
  | cons a l ih =>
    rw [List.mapM_cons, List.flatMap_cons]
    exact (h a).bind fun b _ => ih.bind_pure (b :: ·)

theorem Reports.iff (h : Reports x vs) :
    ((∃ a, x = .ok a) ↔ vs = []) ∧ ∀ e, x = .error e ↔ vs.head? = some e := by
  cases x with
  | ok a =>
    have hvs : vs = [] := h
    simp [hvs]
  | error e =>
    have hvs : vs.head? = some e := h
    refine ⟨⟨?_, ?_⟩, fun e' => ?_⟩
    · rintro ⟨a, ha⟩
      cases ha
    · rintro rfl
      cases hvs
    · rw [hvs, Option.some_inj, Except.error.injEq]

end

/-! ### Declarations -/

theorem declare_ok {kinds : Kinds} {t : TypeRecord} (h : kinds.contains t.name = false) :
    declare kinds t = .ok (kinds.insert t.name t.kind) := by
  rw [declare, h]
  rfl

theorem declare_error {kinds : Kinds} {t : TypeRecord} (h : kinds.contains t.name = true) :
    declare kinds t = .error (.duplicateType t.name) := by
  rw [declare, if_pos h]

theorem reports_declare (types : List TypeRecord) {kinds : Kinds} {earlier : List String}
    (h : ∀ name, kinds.contains name = true ↔ name ∈ earlier) :
    Reports (types.foldlM declare kinds) (duplicates earlier types) := by
  induction types generalizing kinds earlier with
  | nil => exact reports_ok kinds
  | cons t types ih =>
    rw [List.foldlM_cons, duplicates]
    by_cases ht : t.name ∈ earlier
    · rw [if_pos ht, declare_error ((h t.name).mpr ht)]
      exact (reports_error _).bind fun _ hok => by cases hok
    · have hnew : kinds.contains t.name = false := by
        rw [Bool.eq_false_iff, Ne, h]
        exact ht
      rw [if_neg ht, declare_ok hnew]
      refine ih fun name => ?_
      rw [Std.ExtTreeMap.contains_insert, Bool.or_eq_true, Std.compare_beq_iff_eq, h, List.mem_cons,
        eq_comm]

/-- What is found under a name later on was there before or is declared on the way. -/
theorem getElem?_declare {types : List TypeRecord} {kinds kinds' : Kinds}
    (h : types.foldlM declare kinds = .ok kinds') (name : String) :
    kinds'[name]? = kinds[name]?.or (declaredKind types name) := by
  induction types generalizing kinds with
  | nil =>
    obtain rfl : kinds = kinds' := Except.ok.inj h
    simp [declaredKind]
  | cons t types ih =>
    rw [List.foldlM_cons] at h
    by_cases hc : kinds.contains t.name = true
    · rw [declare_error hc] at h
      cases h
    · rw [Bool.not_eq_true] at hc
      rw [declare_ok hc] at h
      rw [ih h, Std.ExtTreeMap.getElem?_insert]
      by_cases hn : t.name = name
      · subst hn
        have hnone : kinds[t.name]? = none :=
          Std.ExtTreeMap.getElem?_eq_none_of_contains_eq_false hc
        simp [declaredKind, hnone]
      · simp [declaredKind, hn]

/-- **The kinds of the declared types** are those of the first types of their names. -/
theorem getElem?_declareAll {types : List TypeRecord} {kinds : Kinds}
    (h : declareAll types = .ok kinds) (name : String) :
    kinds[name]? = declaredKind types name := by
  rw [getElem?_declare h]
  simp

theorem reports_declareAll (types : List TypeRecord) :
    Reports (declareAll types) (duplicates [] types) :=
  reports_declare types fun name => by simp

/-! ### References -/

theorem allows_iff (usage : Usage) (kind : TypeKind) :
    usage.allows kind = true ↔ kind ∉ forbidden usage := by
  cases usage <;> cases kind <;> decide

section

variable {kinds : Kinds} {kindOf : String → Option TypeKind}
  (hk : ∀ name, kinds[name]? = kindOf name)
include hk

theorem reports_importName (site : Site) (wanted : TypeKind) (name : String) :
    Reports (importName kinds site wanted name) (nameViolations kindOf site wanted name) := by
  rw [importName, resolve, nameViolations, hk]
  cases kindOf name with
  | none => exact reports_error _
  | some found =>
    change Reports (if found = wanted then _ else _) (if found = wanted then _ else _)
    split_ifs
    · exact reports_ok name
    · exact reports_error _

theorem reports_importInnermost (usage : Usage) (site : Site) (name : Option String) :
    Reports (importInnermost kinds usage site name)
      (innermostViolation kindOf usage site name).toList := by
  cases name with
  | none => exact reports_error _
  | some name =>
    rw [importInnermost, resolve, innermostViolation, hk]
    cases kindOf name with
    | none => exact reports_error _
    | some found =>
      change Reports (if usage.allows found = true then _ else _)
        (if found ∈ forbidden usage then _ else none : Option ImportError).toList
      by_cases hf : found ∈ forbidden usage
      · have hallows : usage.allows found ≠ true := fun h => (allows_iff usage found).mp h hf
        rw [if_neg hallows, if_pos hf]
        exact reports_error _
      · rw [if_pos ((allows_iff usage found).mpr hf), if_neg hf]
        exact reports_ok _

/-- **A reference is reported by its outermost faulty wrapping**, or else by its end. -/
theorem reports_importRef (usage : Usage) (site : Site) (r : TypeRefRecord) :
    Reports (importRef kinds usage site r) (refViolation kindOf usage site r).toList := by
  induction r with
  | last kind name =>
    cases kind with
    | type kind => exact reports_importInnermost hk usage site name
    | list => exact reports_error _
    | nonNull => exact reports_error _
  | around kind name ofType ih =>
    cases kind with
    | type kind => exact reports_importInnermost hk usage site name
    | list => exact ih.bind_pure TypeRef.list
    | nonNull =>
      rw [importRef, refViolation, wrappings, List.findSome?_cons, wrappingViolation]
      by_cases hd : ofType.kind = .nonNull
      · rw [if_pos hd, if_pos hd]
        exact reports_error _
      · rw [if_neg hd, if_neg hd]
        exact ih.bind_pure TypeRef.nonNull

/-! ### Definitions -/

theorem reports_importInputValues (site : String → Site) (values : List InputValueRecord) :
    Reports (values.mapM fun v => importInputValue kinds (site v.name) v)
      (inputViolations kindOf site values) :=
  Reports.mapM (fun _ => (reports_importRef hk .input _ _).bind_pure _) values

theorem reports_importField (type : String) (f : FieldRecord) :
    Reports (importField kinds type f) (fieldViolations kindOf type f) := by
  rw [importField, fieldViolations]
  refine (reports_importInputValues hk (.argument type f.name ·) f.args).bind fun arguments _ => ?_
  exact (reports_importRef hk .output (.field type f.name) f.type).bind_pure _

theorem reports_composite {α : Type} (type : String) (interfaces : List String)
    (fields : List FieldRecord) (g : List String → List Field → α) :
    Reports (do
        let interfaces ← interfaces.mapM (importName kinds (.interfaces type) .interface)
        let fields ← fields.mapM (importField kinds type)
        return g interfaces fields)
      (interfaces.flatMap (nameViolations kindOf (.interfaces type) .interface) ++
        fields.flatMap (fieldViolations kindOf type)) := by
  refine (Reports.mapM (reports_importName hk (.interfaces type) .interface) interfaces).bind
    fun names _ => ?_
  exact (Reports.mapM (reports_importField hk type) fields).bind_pure (g names)

theorem reports_importType (t : TypeRecord) :
    Reports (importType kinds t) (typeViolations kindOf t) := by
  obtain ⟨name, description, body⟩ := t
  refine Reports.bind_pure (x := importBody kinds name body) ?_ _
  cases body with
  | scalar url => exact reports_ok _
  | object fields interfaces => exact reports_composite hk name interfaces fields TypeBody.object
  | interface fields interfaces =>
    exact reports_composite hk name (interfaces.getD []) fields TypeBody.interface
  | union members =>
    exact (Reports.mapM (reports_importName hk (.members name) .object) members).bind_pure _
  | enum values => exact reports_ok _
  | inputObject fields isOneOf =>
    exact (reports_importInputValues hk (.inputField name ·) fields).bind_pure _

omit hk in
theorem reports_importLocation (directive location : String) :
    Reports (importLocation directive location) (locationViolations directive location) := by
  rw [importLocation, locationViolations]
  cases hl : Location.ofName? location with
  | some l =>
    have hm : location ∈ Location.all.map Location.name :=
      List.mem_map.mpr ⟨l, Location.mem_all l, Location.name_of_ofName? hl⟩
    rw [if_pos hm]
    exact reports_ok l
  | none =>
    have hm : location ∉ Location.all.map Location.name := by
      intro hm
      obtain ⟨l, -, rfl⟩ := List.mem_map.mp hm
      rw [Location.ofName?_name] at hl
      cases hl
    rw [if_neg hm]
    exact reports_error _

theorem reports_importDirective (d : DirectiveRecord) :
    Reports (importDirective kinds d) (directiveViolations kindOf d) := by
  rw [importDirective, directiveViolations]
  refine (Reports.mapM (reports_importLocation d.name) d.locations).bind fun locations _ => ?_
  exact (reports_importInputValues hk (.directiveArgument d.name ·) d.args).bind_pure _

theorem reports_importRoot (operation : Operation) (name : Option String) :
    Reports (importRoot kinds operation name) (rootViolations kindOf operation name) := by
  cases name with
  | none => exact reports_ok none
  | some name =>
    have := (reports_importName hk (.root operation) .object name).bind_pure some
    rwa [rootViolations, Option.toList_some, List.flatMap_singleton]

end

/-! ### Payloads -/

theorem reports_toSchema (p : Payload) : Reports p.toSchema (violations p) := by
  obtain ⟨⟨s⟩⟩ := p
  rw [violations]
  simp only [List.append_assoc]
  refine (reports_declareAll s.types).bind fun kinds hkinds => ?_
  have hk := getElem?_declareAll hkinds
  refine (reports_importRoot hk .query s.queryType).bind fun query _ => ?_
  refine (reports_importRoot hk .mutation s.mutationType).bind fun mutation _ => ?_
  refine (reports_importRoot hk .subscription s.subscriptionType).bind fun subscription _ => ?_
  refine (Reports.mapM (reports_importType hk) s.types).bind fun types _ => ?_
  exact (Reports.mapM (reports_importDirective hk) (s.directives.getD [])).bind_pure _

/-- **The payloads without violations are imported, and of every other the first violation is
reported.** -/
theorem toSchema_iff (p : Payload) :
    ((∃ s, p.toSchema = .ok s) ↔ violations p = []) ∧
      ∀ e, p.toSchema = .error e ↔ (violations p).head? = some e :=
  (reports_toSchema p).iff

end IntrospectSdl.Proofs.Import.FirstViolation
