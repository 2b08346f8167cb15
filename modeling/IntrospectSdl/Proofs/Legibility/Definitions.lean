import IntrospectSdl.Proofs.Legibility.Members

/-! # Legibility: definitions

A definition is told by its text up to the blank line behind it (`legible_definition`). Its opening,
behind the description, tells what is defined: no opening begins another. Then the text is read part
by part, of which some can be absent: interfaces, marks and members in braces. -/

namespace IntrospectSdl.Proofs.Legibility.Definitions

open IntrospectSdl.Sdl IntrospectSdl.Proofs.BlockString.Layout
open IntrospectSdl.Proofs.Legibility.Basic IntrospectSdl.Proofs.Legibility.Atoms
open IntrospectSdl.Proofs.Legibility.Members IntrospectSdl.Proofs.Printing.Names

/-! ### What is told -/

/-- The body of a type as its text tells it. -/
def toldBody : TypeBody → TypeBody
  | .scalar url => .scalar url
  | .object interfaces fields => .object interfaces (fields.map toldField)
  | .interface interfaces fields => .interface interfaces (fields.map toldField)
  | .union members => .union members
  | .enum values => .enum (values.map toldEnumValue)
  | .inputObject oneOf fields => .inputObject oneOf (fields.map toldInput)

/-- A type as its text tells it. -/
def toldType (t : TypeDefinition) : TypeDefinition :=
  { t with
    description := t.description.map unified
    body := toldBody t.body }

/-- A directive as its text tells it. -/
def toldDirective (d : Directive) : Directive :=
  { d with
    description := d.description.map unified
    arguments := d.arguments.map toldInput }

/-! ### Lists of names -/

/-- What follows a definition: nothing, or a blank line. -/
def AfterDefinition (text : List Char) : Prop := Follows (· == '\n') text

theorem AfterDefinition.follows_name {r : List Char} (h : AfterDefinition r) :
    Follows (!isNameChar ·) r :=
  h.mono fun c hc => by rw [beq_iff_eq.mp hc]; rfl

/-- What follows the head of a definition: its members in braces, or its end. -/
def AfterHead (text : List Char) : Prop := AfterDefinition text ∨ " \x7b".toList <+: text

theorem AfterHead.follows_name {r : List Char} (h : AfterHead r) : Follows (!isNameChar ·) r := by
  rcases h with h | ⟨t, rfl⟩
  · exact h.follows_name
  · rfl

/-- The head of a definition is not continued by a blank without a brace. -/
theorem AfterHead.not_prefix {r : List Char} (h : AfterHead r) {c : Char} (hc : c ≠ '\x7b')
    (text : List Char) : ¬ ' ' :: c :: text <+: r := by
  rintro ⟨t, rfl⟩
  rcases h with h | ⟨u, hu⟩
  · cases h
  · exact hc (List.cons_eq_cons.mp (List.cons_eq_cons.mp hu).2).1.symm

theorem afterHead_block {α : Type} (f : α → Document) (l : List α) {r : List Char}
    (hr : AfterDefinition r) : AfterHead ((block (l.map f)).write .shown ++ r) := by
  rw [write_block]
  split_ifs
  · exact Or.inl hr
  · exact Or.inr ⟨_, rfl⟩

theorem legible_names (sep : List Char) {stop : List Char → Prop}
    (hsep : Begins (!isNameChar ·) sep) (hstop : ∀ r, stop r → Follows (!isNameChar ·) r)
    (hdiff : ∀ r, stop r → ¬ sep <+: r) :
    Legible (fun l : List String => ∀ n ∈ l, isName n = true) stop
      (fun l => List.intercalate sep (l.map String.toList)) id := by
  refine (legible_name.intercalate (Begins isNameStart) (fun n r h => (begins_name h).append r)
    (fun r hr => (hstop r hr).not_begins fun c hc => ?_) hdiff fun r hr => ?_).view
    fun _ _ _ _ h => by simpa using h
  · rw [Bool.eq_false_iff]
    intro hs
    rw [isNameChar_of_isNameStart hs] at hc
    cases hc
  · rcases hr with ⟨t, rfl⟩ | hr
    · exact (hsep.append t).follows
    · exact hstop r hr

theorem legible_implementsMark :
    Legible (fun l => ∀ n ∈ l, isName n = true) AfterHead implementsMark id := by
  have names := legible_names " & ".toList rfl (fun _ h => AfterHead.follows_name h)
    fun _ h => h.not_prefix (by decide) _
  exact Legible.unlessEmpty (" i".toList <+: ·)
    ((names.text_append " implements ".toList).mono (fun _ h => h.2) fun _ => id)
    (fun _ _ _ _ => ⟨_, rfl⟩) fun _ h => h.not_prefix (by decide) _

/-! ### Bodies of types -/

theorem legible_scalar :
    Legible Any AfterDefinition (fun url => (bodyDocument (.scalar url)).write .shown) id := by
  have mark : Legible Any AfterDefinition
      (fun url => " @specifiedBy(url: ".toList ++ literal url ++ [')']) id :=
    (legible_literal.text_append _).append_text _ fun _ _ => trivial
  have blank : Begins (· == ' ') " @specifiedBy(url: ".toList := rfl
  have heq : (fun url => (bodyDocument (.scalar url)).write .shown) = fun url =>
      url.elim [] fun url => " @specifiedBy(url: ".toList ++ literal url ++ [')'] := by
    funext url
    cases url with
    | none => rfl
    | some url => exact List.append_nil _
  rw [heq]
  refine ((mark.option (Begins (· == ' ')) (fun _ _ _ => ((blank.append _).append _).append _)
    fun r hr => hr.not_begins fun c hc => ?_).mono (fun _ _ _ _ => trivial) fun _ => id).view
    fun _ _ _ _ h => by simpa using h
  rw [beq_iff_eq.mp hc]
  rfl

theorem legible_composite : Legible
    (fun p : List String × List Field =>
      (∀ n ∈ p.1, isName n = true) ∧ ∀ f ∈ p.2, NamedField Plain f)
    AfterDefinition (fun p => implementsMark p.1 ++ (block (p.2.map fieldLines)).write .shown)
    fun p => (p.1, p.2.map toldField) :=
  (legible_implementsMark.part _ Prod.fst fun _ h => h.1).append
    ((legible_block legible_fieldLines spaces_prefix_fieldLines).part _ Prod.snd fun _ h => h.2)
    fun _ _ _ hr => afterHead_block _ _ hr

theorem legible_union : Legible (fun l => ∀ n ∈ l, isName n = true) AfterDefinition
    (fun members => (bodyDocument (.union members)).write .shown) id := by
  have names := legible_names " | ".toList rfl (fun _ h => AfterDefinition.follows_name h)
    fun _ h => AfterHead.not_prefix (Or.inl h) (by decide) _
  have heq : (fun members => (bodyDocument (.union members)).write .shown) = fun members =>
      if members.isEmpty then []
      else " = ".toList ++ List.intercalate " | ".toList (members.map String.toList) := by
    funext members
    cases members with
    | nil => rfl
    | cons m members => exact List.append_nil _
  rw [heq]
  exact Legible.unlessEmpty (" =".toList <+: ·)
    ((names.text_append " = ".toList).mono (fun _ h => h.2) fun _ => id)
    (fun _ _ _ _ => ⟨_, rfl⟩) fun _ h => AfterHead.not_prefix (Or.inl h) (by decide) _

theorem legible_inputObject : Legible
    (fun p : Bool × List InputValue => ∀ f ∈ p.2, NamedInput Plain f) AfterDefinition
    (fun p => (if p.1 then " @oneOf".toList else []) ++
      (block (p.2.map (inputValueLine step))).write .shown)
    fun p => (p.1, p.2.map toldInput) := by
  have mark : Legible Any AfterHead
      (fun oneOf : Bool => if oneOf then " @oneOf".toList else []) id :=
    Legible.flag fun _ h => AfterHead.not_prefix h (by decide) _
  have fields := legible_block (legible_inputValueLine step) (spaces_prefix_inputValueLine step)
  exact (mark.part _ Prod.fst fun _ _ => trivial).append (fields.part _ Prod.snd fun _ h => h)
    fun _ _ _ hr => afterHead_block _ _ hr

/-- **The body of a type is told by its text**, once its kind is known. -/
theorem toldBody_eq {a b : TypeBody} (hk : a.kind = b.kind) (ha : NamedBody Plain a)
    (hb : NamedBody Plain b) {r s : List Char} (hr : AfterDefinition r) (hs : AfterDefinition s)
    (h : (bodyDocument a).write .shown ++ r = (bodyDocument b).write .shown ++ s) :
    toldBody a = toldBody b ∧ r = s := by
  cases a with
  | scalar url =>
    cases b with
    | scalar url' =>
      exact (legible_scalar trivial trivial hr hs h).imp_left (congrArg TypeBody.scalar)
    | _ => cases hk
  | object interfaces fields =>
    cases b with
    | object interfaces' fields' =>
      exact (legible_composite (a := (interfaces, fields)) (b := (interfaces', fields'))
        ha hb hr hs h).imp_left (congrArg fun p : _ × _ => TypeBody.object p.1 p.2)
    | _ => cases hk
  | interface interfaces fields =>
    cases b with
    | interface interfaces' fields' =>
      exact (legible_composite (a := (interfaces, fields)) (b := (interfaces', fields'))
        ha hb hr hs h).imp_left (congrArg fun p : _ × _ => TypeBody.interface p.1 p.2)
    | _ => cases hk
  | union members =>
    cases b with
    | union members' => exact (legible_union ha hb hr hs h).imp_left (congrArg TypeBody.union)
    | _ => cases hk
  | enum values =>
    cases b with
    | enum values' =>
      exact (legible_block legible_enumValueLines spaces_prefix_enumValueLines
        ha hb hr hs h).imp_left (congrArg TypeBody.enum)
    | _ => cases hk
  | inputObject oneOf fields =>
    cases b with
    | inputObject oneOf' fields' =>
      exact (legible_inputObject (a := (oneOf, fields)) (b := (oneOf', fields'))
        ha hb hr hs h).imp_left (congrArg fun p : _ × _ => TypeBody.inputObject p.1 p.2)
    | _ => cases hk

theorem follows_bodyDocument (body : TypeBody) {r : List Char} (hr : AfterDefinition r) :
    Follows (!isNameChar ·) ((bodyDocument body).write .shown ++ r) := by
  have composite : ∀ (interfaces : List String) (fields : List Field), Follows (!isNameChar ·)
      (implementsMark interfaces ++ (block (fields.map fieldLines)).write .shown ++ r) := by
    intro interfaces fields
    rw [List.append_assoc]
    refine Follows.append ?_ (afterHead_block _ _ hr).follows_name
    unfold implementsMark
    split_ifs <;> rfl
  cases body with
  | scalar url =>
    cases url with
    | none => exact hr.follows_name
    | some url => rfl
  | object interfaces fields => exact composite interfaces fields
  | interface interfaces fields => exact composite interfaces fields
  | union members =>
    cases members with
    | nil => exact hr.follows_name
    | cons m members => rfl
  | enum values => exact (afterHead_block _ _ hr).follows_name
  | inputObject oneOf fields =>
    have hblock := afterHead_block (inputValueLine step) fields hr
    cases oneOf with
    | false => exact hblock.follows_name
    | true => rfl

end IntrospectSdl.Proofs.Legibility.Definitions
