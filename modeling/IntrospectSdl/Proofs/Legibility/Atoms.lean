import IntrospectSdl.Proofs.BlockString.Layout
import IntrospectSdl.Proofs.Legibility.Basic
import IntrospectSdl.Proofs.Printing.Names
import IntrospectSdl.Proofs.StringLiteral.Reading
import IntrospectSdl.Proofs.TypeRefs

/-! # Legibility: names, types, literals, descriptions and marks

What is written between the punctuation of a schema is legible: names and type references up to the
first character of another kind, string literals and descriptions up to their closing quotes. A
default value ends before the comma, parenthesis, line feed or directive behind it, as long as it
holds none of these itself (`Plain`). Two things are told up to a choice of words: descriptions with
line feeds for their line ends (`unified`), and deprecations with the reason that they have when
none is given (`reasonOf`). -/

namespace IntrospectSdl.Proofs.Legibility.Atoms

open IntrospectSdl.Sdl IntrospectSdl.Sdl.BlockString
open IntrospectSdl.Proofs.BlockString.Fences IntrospectSdl.Proofs.BlockString.Layout
open IntrospectSdl.Proofs.Legibility.Basic IntrospectSdl.Proofs.Printing.Names
open IntrospectSdl.Proofs.StringLiteral.Reading
open IntrospectSdl.Proofs.TypeRefs (Unmarked chars_injective mem_chars)

/-! ### Names and type references -/

theorem legible_name : Legible (isName · = true) (Follows (!isNameChar ·)) String.toList id := by
  intro a b r s ha hb hr hs h
  have hab := append_eq_append_of_follows (fun _ => isNameChar_of_mem ha)
    (fun _ => isNameChar_of_mem hb) hr hs h
  exact hab.imp_left String.toList_inj.mp

theorem isNameChar_location (l : Location) : ∀ c ∈ l.name.toList, isNameChar c = true := by
  have hall : l.name.toList.all isNameChar = true := by cases l <;> decide
  exact List.all_eq_true.mp hall

theorem legible_location :
    Legible Any (Follows (!isNameChar ·)) (fun l : Location => l.name.toList) id := by
  intro a b r s _ _ hr hs h
  obtain ⟨hab, hrs⟩ := append_eq_append_of_follows (isNameChar_location a) (isNameChar_location b)
    hr hs h
  have hab := congrArg Location.ofName? (String.toList_inj.mp hab)
  rw [Location.ofName?_name, Location.ofName?_name] at hab
  exact ⟨Option.some_inj.mp hab, hrs⟩

/-- The characters of type references. -/
def isTypeChar (c : Char) : Bool := isNameChar c || c ∈ ['[', ']', '!']

theorem isTypeChar_of_mem {type : TypeRef} (h : isName type.innermost = true) {c : Char}
    (hc : c ∈ type.chars) : isTypeChar c = true := by
  rw [isTypeChar, Bool.or_eq_true]
  rcases mem_chars hc with hmark | hname
  · exact Or.inr hmark
  · exact Or.inl (isNameChar_of_mem h hname)

theorem unmarked_of_isName {type : TypeRef} (h : isName type.innermost = true) :
    Unmarked type := by
  intro c hc
  rw [Bool.eq_false_iff]
  intro hmark
  have hall : ['[', ']', '!'].all (!isNameChar ·) = true := by decide
  have hnot := List.all_eq_true.mp hall c (of_decide_eq_true hmark)
  rw [isNameChar_of_mem h hc] at hnot
  cases hnot

theorem legible_type : Legible (fun t => isName t.innermost = true) (Follows (!isTypeChar ·))
    TypeRef.chars id := by
  intro a b r s ha hb hr hs h
  have hab := append_eq_append_of_follows (fun _ => isTypeChar_of_mem ha)
    (fun _ => isTypeChar_of_mem hb) hr hs h
  exact hab.imp_left (chars_injective (unmarked_of_isName ha) (unmarked_of_isName hb))

/-! ### Literals and descriptions -/

theorem legible_literal : Legible Any Any literal id := by
  intro a b r s _ _ _ _ h
  have h := congrArg readLiteral h
  rw [literal, literal, readLiteral_encode, readLiteral_encode, Option.some_inj, Prod.mk.injEq] at h
  exact h.imp_left String.toList_inj.mp

/-- A description with line feeds for its line ends. -/
def unified (text : String) : String := String.ofList (unifyLineEnds text.toList)

/-- **A description is told up to its line ends.** -/
theorem legible_descriptionLines (indent : Nat) :
    Legible Any Any (fun text : String => descriptionLines indent text.toList) unified := by
  intro a b r s _ _ _ _ h
  simp only [descriptionLines_eq, List.append_assoc] at h
  have h := congrArg splitAtFence (List.append_cancel_left (List.append_cancel_left h))
  rw [splitAtFence_closed (apart_laidOut indent _), splitAtFence_closed (apart_laidOut indent _),
    Option.some_inj, Prod.mk.injEq] at h
  have hab := laidOut_injective _ (escapeFences_injective h.1)
  exact ⟨congrArg String.ofList hab, List.append_cancel_left h.2⟩

/-- What is described stands behind the indentation of its description and does not begin with a
quote. -/
def Described (indent : Nat) (text : List Char) : Prop :=
  ∃ rest, text = spaces indent ++ rest ∧ Follows (· != '"') rest

theorem legible_describe (indent : Nat) :
    Legible Any (Described indent) (fun d => (describe indent d).write .shown)
      (Option.map unified) := by
  have heq : ∀ d, (describe indent d).write .shown =
      d.elim [] fun text : String => descriptionLines indent text.toList := by
    rintro (- | text)
    · rfl
    · exact List.append_nil _
  simp only [heq]
  have lines : Legible Any (Described indent) _ unified :=
    (legible_descriptionLines indent).mono (fun _ => id) fun _ _ => trivial
  refine (lines.option (spaces indent ++ ['"'] <+: ·) (fun text r _ => ?_) ?_).mono
    (fun _ _ _ _ => trivial) fun _ => id
  · rw [descriptionLines_eq]
    simp only [fence, List.append_assoc, List.cons_append, List.prefix_append_right_inj]
    exact ⟨_, rfl⟩
  · rintro _ ⟨rest, rfl, hf⟩ hp
    rw [List.prefix_append_right_inj] at hp
    obtain ⟨t, rfl⟩ := hp
    cases follows_cons.mp hf

/-! ### Deprecations and default values -/

/-- What follows an argument, an input field, a field or an enumeration value. -/
def endsItem (c : Char) : Bool := c ∈ [',', ')', '\n']

/-- The reason of a deprecation. -/
def reasonOf (d : Deprecation) : String := d.reason.getD defaultReason

/-- A reason as it is written, unless it is the one that goes without saying. -/
def written (reason : String) : Option String :=
  if reason = defaultReason then none else some reason

theorem deprecationMark_eq (d : Option Deprecation) : deprecationMark d =
    d.elim [] fun d => " @deprecated".toList ++ (written (reasonOf d)).elim []
      fun reason => "(reason: ".toList ++ literal reason ++ [')'] := by
  unfold deprecationMark
  rcases d with _ | ⟨_ | reason⟩
  · rfl
  · have hw : written (reasonOf ⟨none⟩) = none := if_pos rfl
    rw [Option.elim_some, hw, Option.elim_none, List.append_nil]
  · by_cases h : reason = defaultReason
    · have hw : written (reasonOf ⟨some reason⟩) = none := if_pos h
      rw [Option.elim_some, hw, Option.elim_none, List.append_nil]
      exact if_pos h
    · have hw : written (reasonOf ⟨some reason⟩) = some reason := if_neg h
      rw [Option.elim_some, hw, Option.elim_some]
      refine (if_neg h).trans ?_
      simp

theorem endsItem_iff {c : Char} : endsItem c = true ↔ c = ',' ∨ c = ')' ∨ c = '\n' := by
  simp [endsItem]

theorem not_begins_of_endsItem {c : Char} (hc : endsItem c = false) {r : List Char}
    (h : Follows endsItem r) : ¬ Begins (· == c) r :=
  h.not_begins fun d hd => beq_eq_false_iff_ne.mpr fun hdc => by
    rw [hdc, hc] at hd
    cases hd

/-- **A deprecation is told with its reason**, the usual one if none is given. -/
theorem legible_deprecationMark :
    Legible Any (Follows endsItem) deprecationMark (Option.map reasonOf) := by
  have reason : Legible Any (Follows endsItem)
      (fun d => (written (reasonOf d)).elim []
        fun reason => "(reason: ".toList ++ literal reason ++ [')']) reasonOf := by
    have marked : Legible Any (Follows endsItem)
        (fun reason => "(reason: ".toList ++ literal reason ++ [')']) id :=
      (legible_literal.text_append _).append_text _ fun _ _ => trivial
    have bracket : Begins (· == '(') "(reason: ".toList := rfl
    have optional := marked.option (Begins (· == '('))
      (fun _ _ _ => ((bracket.append _).append _).append _)
      fun _ => not_begins_of_endsItem (by decide)
    refine (optional.part Any (written ∘ reasonOf) fun _ _ _ _ => trivial).view ?_
    intro a b _ _ h
    simp only [Option.map_id_fun, id_eq, Function.comp_apply, written] at h
    split_ifs at h with ha hb hb
    · rw [ha, hb]
    · exact Option.some_inj.mp h
  have blank : Begins (· == ' ') " @deprecated".toList := rfl
  have heq : deprecationMark = _ := funext deprecationMark_eq
  rw [heq]
  exact ((reason.text_append " @deprecated".toList).option (Begins (· == ' '))
    (fun _ _ _ => (blank.append _).append _) fun _ => not_begins_of_endsItem (by decide)).mono
    (fun _ _ _ _ => trivial) fun _ => id

/-- A default value without line feeds, commas, closing parentheses and at signs. -/
def Plain (value : String) : Prop := ∀ c ∈ value.toList, c ∉ ['\n', ',', ')', '@']

instance (value : String) : Decidable (Plain value) :=
  List.decidableBAll (· ∉ ['\n', ',', ')', '@']) value.toList

/-- What follows a default value. -/
def EndsDefault (text : List Char) : Prop := Follows endsItem text ∨ " @".toList <+: text

/-- **A plain default value is told from what follows it.** The blank before the mark of a
deprecation is not part of the value, though it could be. -/
theorem legible_plain : Legible Plain EndsDefault String.toList id := by
  intro a b r s ha hb hr hs h
  let isPlain : Char → Bool := fun c => c ∉ ['\n', ',', ')', '@']
  have hplain : ∀ {v : String}, Plain v → ∀ c ∈ v.toList, isPlain c = true :=
    fun hv c hc => decide_eq_true (hv c hc)
  have hblank : ∀ {v : String}, Plain v → ∀ c ∈ v.toList ++ [' '], isPlain c = true := by
    intro v hv c hc
    rcases List.mem_append.mp hc with hc | hc
    · exact hplain hv c hc
    · rw [List.mem_singleton.mp hc]
      rfl
  have hends : ∀ {r}, Follows endsItem r → Follows (!isPlain ·) r := fun hr =>
    hr.mono fun c hc => by rcases endsItem_iff.mp hc with rfl | rfl | rfl <;> rfl
  have hmark : ∀ t, Follows (!isPlain ·) ('@' :: t) := fun t => follows_cons.mpr rfl
  have split : ∀ (v : String) (t : List Char),
      v.toList ++ (" @".toList ++ t) = (v.toList ++ [' ']) ++ '@' :: t := by
    intro v t
    rw [List.append_assoc]
    rfl
  rcases hr with hr | ⟨t, rfl⟩
  · rcases hs with hs | ⟨u, rfl⟩
    · obtain ⟨hab, hrs⟩ :=
        append_eq_append_of_follows (hplain ha) (hplain hb) (hends hr) (hends hs) h
      exact ⟨String.toList_inj.mp hab, hrs⟩
    · rw [split] at h
      obtain ⟨-, rfl⟩ :=
        append_eq_append_of_follows (hplain ha) (hblank hb) (hends hr) (hmark u) h
      cases follows_cons.mp hr
  · rcases hs with hs | ⟨u, rfl⟩
    · rw [split] at h
      obtain ⟨-, rfl⟩ :=
        append_eq_append_of_follows (hblank ha) (hplain hb) (hmark t) (hends hs) h
      cases follows_cons.mp hs
    · rw [split, split] at h
      obtain ⟨hab, hrs⟩ :=
        append_eq_append_of_follows (hblank ha) (hblank hb) (hmark t) (hmark u) h
      exact ⟨String.toList_inj.mp (List.append_cancel_right hab),
        congrArg (' ' :: ·) hrs⟩

theorem legible_defaultMark :
    Legible (fun o => ∀ v ∈ o, Plain v) EndsDefault defaultMark id := by
  have heq : defaultMark = fun o => o.elim [] fun v : String => " = ".toList ++ v.toList := by
    funext o
    cases o <;> rfl
  rw [heq]
  refine ((legible_plain.text_append " = ".toList).option (" = ".toList <+: ·) ?_ ?_).view ?_
  · exact fun v r _ => ⟨v.toList ++ r, (List.append_assoc ..).symm⟩
  · rintro r (hr | ⟨t, rfl⟩) ⟨u, hu⟩
    · rw [← hu] at hr
      cases hr
    · exact absurd (List.cons_eq_cons.mp (List.cons_eq_cons.mp hu).2).1 (by decide)
  · exact fun a b _ _ h => by simpa using h

/-! ### What marks begin with -/

theorem deprecationMark_begins (d : Option Deprecation) :
    deprecationMark d = [] ∨ ∃ rest, deprecationMark d = " @".toList ++ rest := by
  rw [deprecationMark_eq]
  cases d with
  | none => exact Or.inl rfl
  | some d => exact Or.inr ⟨"deprecated".toList ++ _, rfl⟩

theorem endsDefault_deprecationMark (d : Option Deprecation) {r : List Char}
    (hr : Follows endsItem r) : EndsDefault (deprecationMark d ++ r) := by
  rcases deprecationMark_begins d with h | ⟨rest, h⟩
  · rw [h]
    exact Or.inl hr
  · rw [h, List.append_assoc]
    exact Or.inr (List.prefix_append _ _)

theorem follows_of_endsDefault {r : List Char} (hr : EndsDefault r) :
    Follows (!isTypeChar ·) r := by
  rcases hr with hr | ⟨t, rfl⟩
  · exact hr.mono fun c hc => by rcases endsItem_iff.mp hc with rfl | rfl | rfl <;> rfl
  · rfl

theorem follows_defaultMark (value : Option String) {r : List Char} (hr : EndsDefault r) :
    Follows (!isTypeChar ·) (defaultMark value ++ r) := by
  cases value with
  | none => exact follows_of_endsDefault hr
  | some v => rfl

theorem begins_name {name : String} (h : isName name = true) : Begins isNameStart name.toList := by
  obtain ⟨c, rest, hc, hs, -⟩ := isName_iff.mp h
  rw [hc]
  exact hs

end IntrospectSdl.Proofs.Legibility.Atoms
