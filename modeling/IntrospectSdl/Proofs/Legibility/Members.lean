import IntrospectSdl.Proofs.Legibility.Atoms

/-! # Legibility: arguments and members

Arguments, input fields, fields and enumeration values are told by their lines
(`legible_inputValueLine`, `legible_fieldLines`, `legible_enumValueLines`), and lists of arguments
by their text in parentheses, whether they share a line or not (`legible_argumentList`). A list of
members ends at its closing brace, which is not indented as members are (`legible_block`). -/

namespace IntrospectSdl.Proofs.Legibility.Members

open IntrospectSdl.Sdl IntrospectSdl.Proofs.BlockString.Layout
open IntrospectSdl.Proofs.Legibility.Basic IntrospectSdl.Proofs.Legibility.Atoms
open IntrospectSdl.Proofs.Printing.Names

/-! ### What is told -/

/-- A deprecation with its reason. -/
def toldDeprecation (d : Deprecation) : Deprecation := ⟨some (reasonOf d)⟩

/-- An argument or input field as its text tells it. -/
def toldInput (v : InputValue) : InputValue :=
  { v with
    description := v.description.map unified
    deprecation := v.deprecation.map toldDeprecation }

/-- A field as its text tells it. -/
def toldField (f : Field) : Field :=
  { f with
    description := f.description.map unified
    arguments := f.arguments.map toldInput
    deprecation := f.deprecation.map toldDeprecation }

/-- An enumeration value as its text tells it. -/
def toldEnumValue (v : EnumValue) : EnumValue :=
  { v with
    description := v.description.map unified
    deprecation := v.deprecation.map toldDeprecation }

theorem map_toldDeprecation {a b : Option Deprecation} (h : a.map reasonOf = b.map reasonOf) :
    a.map toldDeprecation = b.map toldDeprecation := by
  have hmap : ∀ d : Option Deprecation,
      d.map toldDeprecation = (d.map reasonOf).map (⟨some ·⟩) := fun d => by
    rw [Option.map_map]
    rfl
  rw [hmap, hmap, h]

/-! ### Arguments and input fields -/

theorem legible_inputValue : Legible (NamedInput Plain) (Follows endsItem) inputValue
    fun v => (((v.name, v.type), v.defaultValue), v.deprecation.map reasonOf) := by
  have name : Legible (NamedInput Plain) Any (fun v => v.name.toList ++ ": ".toList) (·.name) :=
    (legible_name.part (NamedInput Plain) (·.name) fun _ h => h.name).append_text _ fun _ _ => rfl
  have type := legible_type.part (NamedInput Plain) (·.type) fun _ h => h.type
  have value := legible_defaultMark.part (NamedInput Plain) (·.defaultValue) fun _ h => h.default
  have deprecation := legible_deprecationMark.part (NamedInput Plain) (·.deprecation)
    fun _ _ => trivial
  exact ((name.append type fun _ _ _ _ => trivial).append value
    fun _ _ _ => follows_defaultMark _).append deprecation
    fun _ _ _ => endsDefault_deprecationMark _

theorem begins_inputValue {v : InputValue} (h : NamedInput Plain v) :
    Begins isNameStart (inputValue v) :=
  ((((begins_name h.name).append _).append _).append _).append _

theorem ne_quote_of_isNameStart {c : Char} (h : isNameStart c = true) : (c != '"') = true := by
  rw [bne_iff_ne]
  rintro rfl
  revert h
  decide

theorem described_of_begins {indent : Nat} {text : List Char} (h : Begins isNameStart text)
    (rest : List Char) : Described indent (spaces indent ++ text ++ rest) :=
  ⟨text ++ rest, List.append_assoc .., ((h.mono fun _ => ne_quote_of_isNameStart).append _).follows⟩

/-- **An argument or input field is told by its lines.** -/
theorem legible_inputValueLine (indent : Nat) :
    Legible (NamedInput Plain) Any (fun v => (inputValueLine indent v).write .shown) toldInput := by
  have description := (legible_describe indent).part (NamedInput Plain) (·.description)
    fun _ _ => trivial
  have line : Legible (NamedInput Plain) Any (fun v => spaces indent ++ inputValue v ++ ['\n']) _ :=
    (legible_inputValue.text_append (spaces indent)).append_text _ fun _ _ => rfl
  have heq : (fun v => (inputValueLine indent v).write .shown) = fun v =>
      (describe indent v.description).write .shown ++
        (spaces indent ++ inputValue v ++ ['\n']) := by
    funext v
    simp [inputValueLine]
  rw [heq]
  refine (description.append line fun v r hv _ => ?_).view fun a b _ _ h => ?_
  · rw [List.append_assoc]
    exact described_of_begins (begins_inputValue hv) _
  · simp only [Prod.mk.injEq] at h
    obtain ⟨hd, ⟨⟨hn, ht⟩, hv⟩, hm⟩ := h
    simp only [toldInput, hd, hn, ht, hv, map_toldDeprecation hm]

/-! ### Lists of arguments -/

/-- Arguments on one line. -/
def inlineArguments (arguments : List InputValue) : List Char :=
  '(' :: List.intercalate ", ".toList (arguments.map inputValue) ++ [')']

/-- Arguments on lines of their own. -/
def argumentLines (indent : Nat) (arguments : List InputValue) : List Char :=
  "(\n".toList ++ (arguments.flatMap fun a => (inputValueLine (indent + step) a).write .shown) ++
    (spaces indent ++ [')'])

theorem write_argumentList (indent : Nat) (arguments : List InputValue) :
    (argumentList indent arguments).write .shown =
      if arguments.isEmpty then []
      else if arguments.all (·.description.isNone) then inlineArguments arguments
      else argumentLines indent arguments := by
  unfold argumentList
  split_ifs
  · rfl
  · simp [inlineArguments]
  · simp [argumentLines, source, Document.write, List.flatMap_assoc]

theorem legible_inlineArguments :
    Legible (fun l => ∀ a ∈ l, NamedInput Plain a ∧ a.description = none) Any inlineArguments
      (List.map toldInput) := by
  have item : Legible (fun a => NamedInput Plain a ∧ a.description = none) (Follows endsItem)
      inputValue toldInput := by
    refine (legible_inputValue.mono (fun _ h => h.1) fun _ => id).view fun a b ha hb h => ?_
    simp only [Prod.mk.injEq] at h
    obtain ⟨⟨⟨hn, ht⟩, hv⟩, hm⟩ := h
    simp only [toldInput, ha.2, hb.2, hn, ht, hv, map_toldDeprecation hm]
  have list : Legible (fun l => ∀ a ∈ l, NamedInput Plain a ∧ a.description = none)
      (Follows (· == ')')) (fun l => List.intercalate ", ".toList (l.map inputValue))
      (List.map toldInput) := by
    refine item.intercalate (Begins isNameStart) (fun a r h => (begins_inputValue h.1).append r)
      (fun r hr => hr.not_begins fun c hc => ?_) (fun r hr => ?_) fun r hr => ?_
    · rw [beq_iff_eq.mp hc]
      rfl
    · rintro ⟨t, rfl⟩
      cases hr
    · rcases hr with ⟨t, rfl⟩ | hr
      · rfl
      · exact hr.mono fun c hc => endsItem_iff.mpr (Or.inr (Or.inl (beq_iff_eq.mp hc)))
  exact (list.append_text [')'] fun _ _ => rfl).text_append ['(']

theorem spaces_prefix_describe (indent : Nat) (description : Option String) (text : List Char) :
    spaces indent <+: (describe indent description).write .shown ++ (spaces indent ++ text) := by
  cases description with
  | none => exact List.prefix_append _ _
  | some d => simp [describe, Piece.write, descriptionLines]

theorem spaces_prefix_inputValueLine (indent : Nat) (v : InputValue) :
    spaces indent <+: (inputValueLine indent v).write .shown := by
  have := spaces_prefix_describe indent v.description (inputValue v ++ ['\n'])
  simpa [inputValueLine] using this

/-- The closing parenthesis is indented less than the arguments. -/
theorem legible_argumentLines (indent : Nat) : Legible (fun l => ∀ a ∈ l, NamedInput Plain a) Any
    (argumentLines indent) (List.map toldInput) := by
  have lines : Legible (fun l => ∀ a ∈ l, NamedInput Plain a)
      (fun r => ∃ t, r = spaces indent ++ ')' :: t)
      (List.flatMap fun a => (inputValueLine (indent + step) a).write .shown)
      (List.map toldInput) := by
    refine (legible_inputValueLine (indent + step)).flatMap (spaces indent ++ [' '] <+: ·)
      (fun a r _ => ?_) ?_ fun _ _ => trivial
    · have hstep : spaces indent ++ [' '] <+: spaces (indent + step) := by
        rw [spaces, spaces, List.replicate_add]
        exact (List.prefix_append_right_inj _).mpr ⟨[' '], rfl⟩
      exact (hstep.trans (spaces_prefix_inputValueLine _ a)).trans (List.prefix_append _ _)
    · rintro _ ⟨t, rfl⟩ h
      rw [List.prefix_append_right_inj] at h
      obtain ⟨u, hu⟩ := h
      exact absurd (List.cons_eq_cons.mp hu).1 (by decide)
  exact (lines.text_append "(\n".toList).append_text _ fun r _ => ⟨r, List.append_assoc ..⟩

/-- A name follows the parenthesis of arguments on one line, and a line feed that of others. -/
theorem inlineArguments_ne_argumentLines {l m : List InputValue} {indent : Nat} {r s : List Char}
    (hne : l ≠ []) (hl : ∀ a ∈ l, NamedInput Plain a) :
    inlineArguments l ++ r ≠ argumentLines indent m ++ s := by
  intro h
  obtain ⟨a, l, rfl⟩ := List.exists_cons_of_ne_nil hne
  have hname : Begins isNameStart (List.intercalate ", ".toList ((a :: l).map inputValue)) := by
    rw [List.map_cons, Legible.intercalate_cons]
    exact (begins_inputValue (hl a List.mem_cons_self)).append _
  have hname := (hname.append [')']).append r
  obtain ⟨t, ht⟩ : ∃ t, argumentLines indent m ++ s = '(' :: '\n' :: t := ⟨_, rfl⟩
  rw [ht] at h
  have h : List.intercalate ", ".toList ((a :: l).map inputValue) ++ [')'] ++ r = '\n' :: t :=
    (List.cons_eq_cons.mp h).2
  rw [h] at hname
  exact absurd (begins_cons.mp hname) (by decide)

/-- What follows a list of arguments. -/
def afterArguments (c : Char) : Bool := c == ':' || c == ' '

theorem follows_argumentList (indent : Nat) (arguments : List InputValue) {r : List Char}
    (hr : Follows afterArguments r) :
    Follows (!isNameChar ·) ((argumentList indent arguments).write .shown ++ r) := by
  rw [write_argumentList]
  split_ifs
  · refine hr.mono fun c hc => ?_
    rw [afterArguments, Bool.or_eq_true, beq_iff_eq, beq_iff_eq] at hc
    rcases hc with rfl | rfl <;> rfl
  · rfl
  · rfl

/-- **A list of arguments is told by its text.** -/
theorem legible_argumentList (indent : Nat) :
    Legible (fun l => ∀ a ∈ l, NamedInput Plain a) (Follows afterArguments)
      (fun l => (argumentList indent l).write .shown) (List.map toldInput) := by
  have absent : ∀ {l : List InputValue}, l.all (·.description.isNone) = true →
      (∀ a ∈ l, NamedInput Plain a) → ∀ a ∈ l, NamedInput Plain a ∧ a.description = none :=
    fun hd hl a ha => ⟨hl a ha, by simpa using List.all_eq_true.mp hd a ha⟩
  simp only [write_argumentList]
  refine Legible.unlessEmpty (Begins (· == '(')) ?_ (fun l r _ _ => ?_) fun r hr =>
    hr.not_begins fun c hc => ?_
  · rintro l m r s ⟨hne, hl⟩ ⟨hne', hm⟩ _ _ h
    dsimp only at h
    split_ifs at h with hd hd' hd'
    · exact legible_inlineArguments (absent hd hl) (absent hd' hm) trivial trivial h
    · exact absurd h (inlineArguments_ne_argumentLines hne hl)
    · exact absurd h.symm (inlineArguments_ne_argumentLines hne' hm)
    · exact legible_argumentLines indent hl hm trivial trivial h
  · split_ifs <;> rfl
  · rw [afterArguments, Bool.or_eq_true, beq_iff_eq, beq_iff_eq] at hc
    rcases hc with rfl | rfl <;> rfl

/-! ### Fields and enumeration values -/

/-- What is behind the name and the arguments of a field. -/
def fieldEnd (f : Field) : List Char :=
  (": ".toList ++ f.type.chars) ++ (deprecationMark f.deprecation ++ ['\n'])

theorem write_fieldLines (f : Field) : (fieldLines f).write .shown =
    (describe step f.description).write .shown ++ (spaces step ++ f.name.toList) ++
      (argumentList step f.arguments).write .shown ++ fieldEnd f := by
  simp [fieldLines, fieldEnd]

/-- **A field is told by its lines.** -/
theorem legible_fieldLines :
    Legible (NamedField Plain) Any (fun f => (fieldLines f).write .shown) toldField := by
  have description := (legible_describe step).part (NamedField Plain) (·.description)
    fun _ _ => trivial
  have name := (legible_name.part (NamedField Plain) (·.name) fun _ h => h.name).text_append
    (spaces step)
  have arguments := (legible_argumentList step).part (NamedField Plain) (·.arguments)
    fun _ h => h.arguments
  have type := (legible_type.part (NamedField Plain) (·.type) fun _ h => h.type).text_append
    ": ".toList
  have deprecation : Legible (NamedField Plain) Any _ _ :=
    (legible_deprecationMark.part (NamedField Plain) (·.deprecation) fun _ _ => trivial).append_text
      ['\n'] fun _ _ => rfl
  have tail : Legible (NamedField Plain) Any fieldEnd _ := type.append deprecation fun f r _ _ => by
    rw [List.append_assoc]
    exact follows_of_endsDefault (endsDefault_deprecationMark _ rfl)
  have parts := ((description.append name fun f r hf _ => ?_).append arguments
    fun f r _ hr => ?_).append tail fun f r _ _ => rfl
  · simp only [← write_fieldLines] at parts
    refine parts.view fun a b _ _ h => ?_
    simp only [Prod.mk.injEq] at h
    obtain ⟨⟨⟨hd, hn⟩, ha⟩, ht, hm⟩ := h
    simp only [id_eq] at hn ht
    simp only [toldField, hd, hn, ha, ht, map_toldDeprecation hm]
  · exact described_of_begins (begins_name hf.name) r
  · exact follows_argumentList step f.arguments hr

/-- **An enumeration value is told by its lines.** -/
theorem legible_enumValueLines : Legible (fun v => isName v.name = true) Any
    (fun v => (enumValueLines v).write .shown) toldEnumValue := by
  have description := (legible_describe step).part (fun v : EnumValue => isName v.name = true)
    (·.description) fun _ _ => trivial
  have name := (legible_name.part (fun v : EnumValue => isName v.name = true) (·.name)
    fun _ h => h).text_append (spaces step)
  have deprecation : Legible (fun v : EnumValue => isName v.name = true) Any _ _ :=
    (legible_deprecationMark.part _ (·.deprecation) fun _ _ => trivial).append_text
      ['\n'] fun _ _ => rfl
  have parts := (description.append name fun v r hv _ => ?_).append deprecation fun v r _ _ => ?_
  · have heq : ∀ v : EnumValue, (enumValueLines v).write .shown =
        (describe step v.description).write .shown ++ (spaces step ++ v.name.toList) ++
          (deprecationMark v.deprecation ++ ['\n']) := fun v => by
      simp [enumValueLines]
    simp only [← heq] at parts
    refine parts.view fun a b _ _ h => ?_
    simp only [Prod.mk.injEq, id_eq] at h
    obtain ⟨⟨hd, hn⟩, hm⟩ := h
    simp only [toldEnumValue, hd, hn, map_toldDeprecation hm]
  · exact described_of_begins (begins_name hv) r
  · have hr : Follows endsItem (['\n'] ++ r) := rfl
    rw [List.append_assoc]
    exact (follows_of_endsDefault (endsDefault_deprecationMark _ hr)).mono fun c hc => by
      rw [isTypeChar, Bool.not_or, Bool.and_eq_true] at hc
      exact hc.1

/-! ### Members in braces -/

theorem write_block {α : Type} (f : α → Document) (l : List α) :
    (block (l.map f)).write .shown = if l.isEmpty then []
      else " \x7b\n".toList ++ (l.flatMap fun a => (f a).write .shown) ++ "\x7d".toList := by
  unfold block
  rw [List.isEmpty_map]
  split_ifs
  · rfl
  · simp [source, Document.write, List.flatMap_def, Function.comp_def, List.flatten_flatten]

/-- **Members in braces are told by their text** if each is by its own. -/
theorem legible_block {α β : Type} {ok : α → Prop} {f : α → Document} {v : α → β}
    (h : Legible ok Any (fun a => (f a).write .shown) v)
    (hstart : ∀ a, spaces step <+: (f a).write .shown) :
    Legible (fun l => ∀ a ∈ l, ok a) (Follows (· == '\n'))
      (fun l => (block (l.map f)).write .shown) (List.map v) := by
  have members : Legible (fun l => ∀ a ∈ l, ok a) (Begins (· == '\x7d'))
      (List.flatMap fun a => (f a).write .shown) (List.map v) := by
    refine h.flatMap (Begins (· == ' ')) (fun a r _ => ?_) (fun r hr => ?_) fun _ _ => trivial
    · obtain ⟨t, ht⟩ := hstart a
      rw [← ht]
      rfl
    · exact hr.follows.not_begins fun c hc => by rw [beq_iff_eq.mp hc]; rfl
  simp only [write_block]
  refine Legible.unlessEmpty (Begins (· == ' ')) ?_ (fun _ _ _ _ => rfl) fun r hr =>
    hr.not_begins fun c hc => by rw [beq_iff_eq.mp hc]; rfl
  exact ((members.text_append " \x7b\n".toList).append_text "\x7d".toList fun _ _ => rfl).mono
    (fun _ h => h.2) fun _ _ => trivial

theorem spaces_prefix_fieldLines (f : Field) : spaces step <+: (fieldLines f).write .shown := by
  rw [write_fieldLines, List.append_assoc]
  exact (spaces_prefix_describe step f.description f.name.toList).trans (List.prefix_append _ _)

theorem spaces_prefix_enumValueLines (v : EnumValue) :
    spaces step <+: (enumValueLines v).write .shown := by
  have := spaces_prefix_describe step v.description
    (v.name.toList ++ (deprecationMark v.deprecation ++ ['\n']))
  simpa [enumValueLines] using this

end IntrospectSdl.Proofs.Legibility.Members
