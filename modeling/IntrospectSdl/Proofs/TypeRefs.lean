import IntrospectSdl.Proofs.Legibility.Basic
import IntrospectSdl.Schema.TypeRef

/-! # Type references as they are written

Around the name at the core of a type reference stand marks: opening brackets before it and, behind
it, from the inside out, a closing bracket for each list and an exclamation mark for each type that
may not be null (`chars_eq`). What stands behind the name tells how it is wrapped
(`foldl_wrap_closing`), and with it how many brackets were opened. A name without marks ends where
the marks behind it begin. So the text tells the reference, and it is the name once its marks are
taken out (`text_unambiguous`). -/

namespace IntrospectSdl.Proofs.TypeRefs

open IntrospectSdl.Proofs.Legibility.Basic

/-! ### Marks -/

/-- The marks of wrapped types. -/
def isMark (c : Char) : Bool := c ∈ ['[', ']', '!']

/-- The marks that stand behind what they wrap. -/
def closes (c : Char) : Bool := c ∈ [']', '!']

/-- The name at the core of the reference holds no marks. -/
def Unmarked (type : TypeRef) : Prop := ∀ c ∈ type.innermost.toList, isMark c = false

instance (type : TypeRef) : Decidable (Unmarked type) :=
  List.decidableBAll (isMark · = false) type.innermost.toList

/-- A text without its marks. -/
def withoutMarks (text : String) : String := String.ofList (text.toList.filter (!isMark ·))

/-- The marks behind the name, from the inside out. -/
def closing : TypeRef → List Char
  | .named _ => []
  | .list item => closing item ++ [']']
  | .nonNull type => closing type ++ ['!']

/-- The brackets before the name, of which each is closed by one of the marks behind it. -/
def opening (closing : List Char) : List Char := List.replicate (closing.count ']') '['

/-- A type with one more mark behind it. -/
def wrap (type : TypeRef) (mark : Char) : TypeRef :=
  if mark = ']' then .list type else .nonNull type

theorem isMark_of_closes {c : Char} (h : closes c = true) : isMark c = true :=
  decide_eq_true (List.mem_cons_of_mem _ (of_decide_eq_true h))

theorem closes_of_mem_closing {type : TypeRef} {c : Char} (h : c ∈ closing type) :
    closes c = true := by
  induction type with
  | named name => cases h
  | list item ih =>
    rcases List.mem_append.mp h with h | h
    · exact ih h
    · exact List.mem_singleton.mp h ▸ rfl
  | nonNull type ih =>
    rcases List.mem_append.mp h with h | h
    · exact ih h
    · exact List.mem_singleton.mp h ▸ rfl

theorem eq_bracket_of_mem_opening {marks : List Char} {c : Char} (h : c ∈ opening marks) :
    c = '[' :=
  List.eq_of_mem_replicate h

theorem opening_concat_bracket (marks : List Char) :
    opening (marks ++ [']']) = '[' :: opening marks := by
  rw [opening, List.count_append, List.count_singleton_self, List.replicate_succ, opening]

theorem opening_concat_exclamation (marks : List Char) :
    opening (marks ++ ['!']) = opening marks := by
  have hnone : List.count ']' ['!'] = 0 := rfl
  rw [opening, List.count_append, hnone, Nat.add_zero, opening]

/-! ### The text of a reference -/

/-- **A reference is written as its name between the brackets before and the marks behind it.** -/
theorem chars_eq (type : TypeRef) :
    type.chars = opening (closing type) ++ type.innermost.toList ++ closing type := by
  induction type with
  | named name => exact (List.append_nil name.toList).symm
  | list item ih =>
    rw [TypeRef.chars, ih, closing, opening_concat_bracket, TypeRef.innermost]
    simp only [List.cons_append, List.append_assoc]
  | nonNull type ih =>
    rw [TypeRef.chars, ih, closing, opening_concat_exclamation, TypeRef.innermost]
    simp only [List.append_assoc]

/-- **The marks behind a name tell how it is wrapped.** -/
theorem foldl_wrap_closing (type : TypeRef) :
    (closing type).foldl wrap (.named type.innermost) = type := by
  induction type with
  | named name => rfl
  | list item ih =>
    rw [closing, List.foldl_append, TypeRef.innermost, ih]
    rfl
  | nonNull type ih =>
    rw [closing, List.foldl_append, TypeRef.innermost, ih]
    rfl

theorem mem_chars {type : TypeRef} {c : Char} (h : c ∈ type.chars) :
    isMark c = true ∨ c ∈ type.innermost.toList := by
  rw [chars_eq, List.mem_append, List.mem_append] at h
  rcases h with (hopening | hname) | hclosing
  · exact Or.inl (eq_bracket_of_mem_opening hopening ▸ rfl)
  · exact Or.inr hname
  · exact Or.inl (isMark_of_closes (closes_of_mem_closing hclosing))

/-! ### What the text tells -/

/-- Nothing is closed before a name without marks has ended. -/
theorem not_closes_of_mem {type : TypeRef} (h : Unmarked type) :
    ∀ c ∈ opening (closing type) ++ type.innermost.toList, (!closes c) = true := by
  intro c hc
  rw [Bool.not_eq_true']
  rcases List.mem_append.mp hc with hopening | hname
  · exact eq_bracket_of_mem_opening hopening ▸ rfl
  · exact Bool.eq_false_iff.mpr fun hcloses =>
      Bool.eq_false_iff.mp (h c hname) (isMark_of_closes hcloses)

theorem follows_closing (type : TypeRef) : Follows (! !closes ·) (closing type) := by
  have hall : ∀ c ∈ closing type, closes c = true := fun c => closes_of_mem_closing
  cases hmarks : closing type with
  | nil => rfl
  | cons c marks =>
    rw [follows_cons, Bool.not_not]
    exact hall c (hmarks ▸ List.mem_cons_self)

/-- **A reference is told by its characters**, if the name at its core holds no marks. -/
theorem chars_injective {a b : TypeRef} (ha : Unmarked a) (hb : Unmarked b)
    (h : a.chars = b.chars) : a = b := by
  rw [chars_eq, chars_eq] at h
  obtain ⟨hbefore, hclosing⟩ := append_eq_append_of_follows (not_closes_of_mem ha)
    (not_closes_of_mem hb) (follows_closing a) (follows_closing b) h
  -- With equally many brackets before them the names are equal, too.
  have hname : a.innermost = b.innermost := by
    rw [hclosing] at hbefore
    exact String.toList_inj.mp (List.append_cancel_left hbefore)
  calc a = (closing a).foldl wrap (.named a.innermost) := (foldl_wrap_closing a).symm
    _ = (closing b).foldl wrap (.named b.innermost) := by rw [hclosing, hname]
    _ = b := foldl_wrap_closing b

/-- A mark at the end of a name would be taken for one behind it. -/
example : (TypeRef.named "Human!").chars = (TypeRef.nonNull (.named "Human")).chars := by decide

theorem filter_chars (type : TypeRef) :
    type.chars.filter (!isMark ·) = type.innermost.toList.filter (!isMark ·) := by
  have hopening : (opening (closing type)).filter (!isMark ·) = [] :=
    List.filter_eq_nil_iff.mpr fun c hc => eq_bracket_of_mem_opening hc ▸ by decide
  have hclosing : (closing type).filter (!isMark ·) = [] :=
    List.filter_eq_nil_iff.mpr fun c hc => by simp [isMark_of_closes (closes_of_mem_closing hc)]
  rw [chars_eq, List.filter_append, List.filter_append, hopening, hclosing, List.nil_append,
    List.append_nil]

/-- Without its marks the text is the name, unless the name holds some of them itself. -/
theorem withoutMarks_text_eq_iff {type : TypeRef} :
    withoutMarks type.text = type.innermost ↔ Unmarked type := by
  rw [withoutMarks, TypeRef.text, String.toList_ofList, filter_chars, ← String.toList_inj,
    String.toList_ofList, List.filter_eq_self]
  simp only [Bool.not_eq_true', Unmarked]

/-- **Type references are unambiguous as they are written.** If the names at their cores hold no
marks, equal texts are those of equal references, and without its marks a text is the name. -/
theorem text_unambiguous {a : TypeRef} (ha : Unmarked a) :
    (∀ b, Unmarked b → (a.text = b.text ↔ a = b)) ∧ withoutMarks a.text = a.innermost := by
  refine ⟨fun b hb => ⟨fun htext => ?_, congrArg TypeRef.text⟩, withoutMarks_text_eq_iff.mpr ha⟩
  exact chars_injective ha hb (String.ofList_injective htext)

/-- A list of items that may not be null, which is marked twice as not null itself. -/
def markedOutside : TypeRef := .nonNull (.nonNull (.list (.nonNull (.named "Human"))))

/-- The same name between as many marks of each kind, one of which has moved into the list. -/
def markedInside : TypeRef := .nonNull (.list (.nonNull (.nonNull (.named "Human"))))

theorem text_unambiguous_nested :
    (Unmarked markedOutside ∧ Unmarked markedInside) ∧
      (markedOutside.text = "[Human!]!!" ∧ markedInside.text = "[Human!!]!") ∧
      markedOutside.text ≠ markedInside.text ∧ withoutMarks markedOutside.text = "Human" := by
  have houtside : Unmarked markedOutside := by decide
  have hinside : Unmarked markedInside := by decide
  obtain ⟨htells, hname⟩ := text_unambiguous houtside
  refine ⟨⟨houtside, hinside⟩, ⟨by decide, by decide⟩, fun heq => ?_, hname⟩
  exact absurd ((htells markedInside hinside).mp heq) (by decide)

end IntrospectSdl.Proofs.TypeRefs
