import Mathlib.Data.List.Nodup
import Mathlib.Logic.Relation
import IntrospectSdl.Proofs.Wire.Structures

/-! # The wire format: edits that do not matter

Services of different ages answer with different keys. An edit drops, somewhere in a document, a key
that the record there does not declare, or one that is optional and null (`Edit`). Nothing else is
changed, and so the members under declared keys stay as they are (`Matches`), up to a null that is
dropped (`matches_dropped`) and up to an edit further inside, of a member (`matches_member`) or at a
position (`matches_zip`). -/

namespace IntrospectSdl.Proofs.Wire.Edits

open IntrospectSdl.Introspection IntrospectSdl.Proofs.Wire.Structures
open IntrospectSdl.Json (Value)

/-! ### Declared keys -/

/-- What stands under a key: no structure, a structure, or an array of structures. -/
inductive Role where
  | plain
  | one (s : Structure)
  | many (s : Structure)
deriving DecidableEq, Repr

/-- A key that a record declares. Under an optional key, null stands for nothing. -/
structure Key where
  name : String
  role : Role
  optional : Bool
deriving DecidableEq, Repr

/-- The keys of a type of some kind, apart from the kind. -/
def typeKeys : TypeKind → List Key
  | .scalar => [⟨"name", .plain, false⟩, ⟨"description", .plain, true⟩,
      ⟨"specifiedByURL", .plain, true⟩]
  | .object => [⟨"name", .plain, false⟩, ⟨"description", .plain, true⟩,
      ⟨"fields", .many .field, false⟩, ⟨"interfaces", .many .root, false⟩]
  | .interface => [⟨"name", .plain, false⟩, ⟨"description", .plain, true⟩,
      ⟨"fields", .many .field, false⟩, ⟨"interfaces", .many .root, true⟩]
  | .union => [⟨"name", .plain, false⟩, ⟨"description", .plain, true⟩,
      ⟨"possibleTypes", .many .root, false⟩]
  | .enum => [⟨"name", .plain, false⟩, ⟨"description", .plain, true⟩,
      ⟨"enumValues", .many .enumValue, false⟩]
  | .inputObject => [⟨"name", .plain, false⟩, ⟨"description", .plain, true⟩,
      ⟨"inputFields", .many .inputValue, false⟩, ⟨"isOneOf", .plain, true⟩]

/-- The kind that a type says it is of. -/
def kindOf? : Value → Option TypeKind
  | .object members => named (lookup "kind" members)
  | .array items => named items.head?
  | _ => none
where
  /-- The kind of a name. -/
  named : Option Value → Option TypeKind
    | some (.string name) => TypeKind.ofPayloadName? name
    | _ => none

/-- The keys that a record declares, in order. Those of a type depend on its kind; a kind is told by
its name and has no keys. -/
def declared (v : Value) : Structure → List Key
  | .payload => [⟨"data", .one .data, false⟩]
  | .data => [⟨"__schema", .one .schema, false⟩]
  | .schema => [⟨"description", .plain, true⟩, ⟨"queryType", .one .root, true⟩,
      ⟨"mutationType", .one .root, true⟩, ⟨"subscriptionType", .one .root, true⟩,
      ⟨"types", .many .type, false⟩, ⟨"directives", .many .directive, true⟩]
  | .root => [⟨"name", .plain, false⟩]
  | .type => ⟨"kind", .plain, false⟩ :: ((kindOf? v).map typeKeys).getD []
  | .field => [⟨"name", .plain, false⟩, ⟨"description", .plain, true⟩,
      ⟨"args", .many .inputValue, false⟩, ⟨"type", .one .typeRef, false⟩,
      ⟨"isDeprecated", .plain, false⟩, ⟨"deprecationReason", .plain, true⟩]
  | .inputValue => [⟨"name", .plain, false⟩, ⟨"description", .plain, true⟩,
      ⟨"type", .one .typeRef, false⟩, ⟨"defaultValue", .plain, true⟩,
      ⟨"isDeprecated", .plain, true⟩, ⟨"deprecationReason", .plain, true⟩]
  | .enumValue => [⟨"name", .plain, false⟩, ⟨"description", .plain, true⟩,
      ⟨"isDeprecated", .plain, false⟩, ⟨"deprecationReason", .plain, true⟩]
  | .directive => [⟨"name", .plain, false⟩, ⟨"description", .plain, true⟩,
      ⟨"isRepeatable", .plain, true⟩, ⟨"locations", .plain, false⟩,
      ⟨"args", .many .inputValue, false⟩]
  | .typeRef => [⟨"kind", .one .kind, false⟩, ⟨"name", .plain, true⟩,
      ⟨"ofType", .one .typeRef, true⟩]
  | .kind => []

theorem nodup_declared (v : Value) (s : Structure) : ((declared v s).map Key.name).Nodup := by
  cases s with
  | type =>
    rw [declared]
    rcases kindOf? v with _ | kind
    · decide
    · cases kind <;> decide
  | _ => exact of_decide_eq_true rfl

theorem eq_of_name_eq {v : Value} {s : Structure} {k l : Key} (hk : k ∈ declared v s)
    (hl : l ∈ declared v s) (h : k.name = l.name) : k = l :=
  List.inj_on_of_nodup_map (nodup_declared v s) hk hl h

/-! ### Edits -/

/-- **A value with less in it**: an unknown key or an optional null is dropped from an object that
stands for a record, there or anywhere in its members, whether records are given as objects or as
arrays. -/
inductive Edit : Role → Value → Value → Prop
  | unknown {s : Structure} {before after : List (String × Value)} {name : String} {v : Value}
    (record : s ≠ .kind)
    (undeclared : ∀ k ∈ declared (.object (before ++ (name, v) :: after)) s, k.name ≠ name) :
    Edit (.one s) (.object (before ++ (name, v) :: after)) (.object (before ++ after))
  | null {s : Structure} {before after : List (String × Value)} {k : Key}
    (mem : k ∈ declared (.object (before ++ (k.name, .null) :: after)) s)
    (optional : k.optional = true) (absent : ∀ m ∈ before ++ after, m.1 ≠ k.name) :
    Edit (.one s) (.object (before ++ (k.name, .null) :: after)) (.object (before ++ after))
  | member {s : Structure} {before after : List (String × Value)} {k : Key} {v v' : Value}
    (mem : k ∈ declared (.object (before ++ (k.name, v) :: after)) s) (inside : Edit k.role v v') :
    Edit (.one s) (.object (before ++ (k.name, v) :: after))
      (.object (before ++ (k.name, v') :: after))
  | position {s : Structure} {before after : List Value} {k : Key} {v v' : Value}
    (place : (declared (.array (before ++ v :: after)) s)[before.length]? = some k)
    (inside : Edit k.role v v') :
    Edit (.one s) (.array (before ++ v :: after)) (.array (before ++ v' :: after))
  | item {s : Structure} {before after : List Value} {v v' : Value}
    (inside : Edit (.one s) v v') :
    Edit (.many s) (.array (before ++ v :: after)) (.array (before ++ v' :: after))

/-- Documents that any number of edits, made or undone, lead from one to the other. -/
def Edited : Value → Value → Prop := Relation.EqvGen (Edit (.one .payload))

/-! ### What is found under the declared keys -/

/-- Two values that are read alike in a role. -/
def Role.Alike (r : Role) (v v' : Value) : Prop :=
  (v = .null ↔ v' = .null) ∧ match r with
    | .plain => v = v'
    | .one s => ∀ setting, s.read setting v = s.read setting v'
    | .many s => ∀ setting, readList (s.read setting) v = readList (s.read setting) v'

theorem Role.Alike.refl (r : Role) (v : Value) : r.Alike v v := by
  cases r with
  | plain => exact ⟨Iff.rfl, rfl⟩
  | one s => exact ⟨Iff.rfl, fun _ => rfl⟩
  | many s => exact ⟨Iff.rfl, fun _ => rfl⟩

/-- What is found under a key in two records of one form, in the second after an edit. -/
inductive Matches (form : Form) (k : Key) : Option Value → Option Value → Prop
  | absent : Matches form k none none
  | present {v v' : Value} (alike : k.role.Alike v v') : Matches form k (some v) (some v')
  | dropped (object : form = .object) (optional : k.optional = true) :
    Matches form k (some .null) none

theorem Matches.refl (form : Form) (k : Key) (o : Option Value) : Matches form k o o := by
  cases o with
  | none => exact .absent
  | some v => exact .present (.refl _ v)

theorem lookup_eq_none {key : String} {members : List (String × Value)}
    (h : ∀ m ∈ members, m.1 ≠ key) : lookup key members = none := by
  rw [lookup, Option.map_eq_none_iff, List.find?_eq_none]
  exact fun m hm => by simpa using h m hm

section

variable {s : Structure} {before after : List (String × Value)} {k l : Key} {form : Form}

theorem lookup_dropped {name key : String} {v : Value} (h : name ≠ key) :
    lookup key (before ++ (name, v) :: after) = lookup key (before ++ after) := by
  rw [lookup_append, lookup_cons, if_neg h, lookup_append]

theorem matches_dropped {w : Value} (hk : k ∈ declared w s) (hl : l ∈ declared w s)
    (optional : k.optional = true) (absent : ∀ m ∈ before ++ after, m.1 ≠ k.name) :
    Matches .object l (lookup l.name (before ++ (k.name, .null) :: after))
      (lookup l.name (before ++ after)) := by
  by_cases h : k.name = l.name
  · obtain rfl := eq_of_name_eq hk hl h
    have hnone := lookup_eq_none absent
    rw [lookup_append, Option.or_eq_none_iff] at hnone
    rw [lookup_append, lookup_append, hnone.1, hnone.2, lookup_cons, if_pos rfl]
    exact .dropped rfl optional
  · rw [lookup_dropped h]
    exact .refl _ _ _

theorem matches_member {w v v' : Value} (hk : k ∈ declared w s) (hl : l ∈ declared w s)
    (h : k.role.Alike v v') : Matches form l (lookup l.name (before ++ (k.name, v) :: after))
      (lookup l.name (before ++ (k.name, v') :: after)) := by
  rw [lookup_append, lookup_append, lookup_cons, lookup_cons]
  by_cases hn : k.name = l.name
  · obtain rfl := eq_of_name_eq hk hl hn
    rw [if_pos rfl, if_pos rfl]
    cases lookup k.name before with
    | none => exact .present h
    | some u => exact .refl _ _ _
  · rw [if_neg hn, if_neg hn]
    exact .refl _ _ _

end

/-- In an array, the value at the position of a key is found under the key. -/
theorem matches_zip {keys : List Key} (hnodup : (keys.map Key.name).Nodup)
    {before after : List Value} {v v' : Value} {k l : Key} {form : Form}
    (hk : keys[before.length]? = some k) (hl : l ∈ keys) (h : k.role.Alike v v') :
    Matches form l (lookup l.name ((keys.map Key.name).zip (before ++ v :: after)))
      (lookup l.name ((keys.map Key.name).zip (before ++ v' :: after))) := by
  induction before generalizing keys with
  | nil =>
    cases keys with
    | nil => cases hl
    | cons first keys =>
      obtain rfl : first = k := Option.some.inj hk
      rw [List.nil_append, List.nil_append, List.map_cons, List.zip_cons_cons, List.zip_cons_cons,
        lookup_cons, lookup_cons]
      by_cases hn : first.name = l.name
      · obtain rfl := List.inj_on_of_nodup_map hnodup List.mem_cons_self hl hn
        rw [if_pos rfl, if_pos rfl]
        exact .present h
      · rw [if_neg hn, if_neg hn]
        exact .refl _ _ _
  | cons u before ih =>
    cases keys with
    | nil => cases hl
    | cons first keys =>
      rw [List.cons_append, List.cons_append, List.map_cons, List.zip_cons_cons,
        List.zip_cons_cons, lookup_cons, lookup_cons]
      by_cases hn : first.name = l.name
      · rw [if_pos hn, if_pos hn]
        exact .refl _ _ _
      · rw [if_neg hn, if_neg hn]
        have hl : l ∈ keys := (List.mem_cons.mp hl).resolve_left fun he => hn (he ▸ rfl)
        exact ih (List.nodup_cons.mp hnodup).2 hk hl

end IntrospectSdl.Proofs.Wire.Edits
