import IntrospectSdl.Proofs.BlockString.Indentation

/-! # Block strings: the text between the quotes

A description is laid out before it is escaped: line feeds are put at its ends where `breaks` asks
for them, and the indentation after every line feed (`laidOut`). A printed block is a triple quote,
the escaped layout and a triple quote (`descriptionLines_eq`), and the layout's end never touches
the closing quotes (`apart_laidOut`). There are three kinds of layout (`Shape`): all on one line,
the closing quotes on a line of their own, and both quotes on lines of their own. -/

namespace IntrospectSdl.Proofs.BlockString.Layout

open IntrospectSdl.Text IntrospectSdl.Sdl IntrospectSdl.Sdl.BlockString
open IntrospectSdl.Proofs.Lines IntrospectSdl.Proofs.BlockString.Fences
open IntrospectSdl.Proofs.BlockString.Indentation

/-- The text between the quotes of a block, before it is escaped. -/
def laidOut (indent text : List Char) : List Char :=
  indentLines indent
    (breakIf (breaks text).afterOpening ++ text ++ breakIf (breaks text).beforeClosing)

/-! ### The three shapes -/

/-- What a block looks like, by the breaks of its text. -/
inductive Shape (text : List Char) : Prop
  /-- All stands on one line, and the text's end does not touch the closing quotes. -/
  | inline (eq : breaks text = ⟨false, false⟩) (single : '\n' ∉ text)
    (last : ∀ c, text.getLast? = some c → c ≠ '"' ∧ c ≠ '\\')
  /-- A single line that begins with a blank keeps it behind the opening quotes. -/
  | hanging (eq : breaks text = ⟨false, true⟩) (single : '\n' ∉ text)
    (indented : isIndented text = true)
  /-- The lines of the text stand between those of the quotes. -/
  | spread (eq : breaks text = ⟨true, true⟩) (plain : '\n' ∉ text → isIndented text = false)

theorem length_splitLines_eq_one {text : List Char} :
    (splitLines text).length = 1 ↔ '\n' ∉ text := by
  rw [length_splitLines, Nat.add_eq_right, List.count_eq_zero]

theorem last_of_beforeClosing {text : List Char} (h : (breaks text).beforeClosing = false)
    (c : Char) (hc : text.getLast? = some c) : c ≠ '"' ∧ c ≠ '\\' := by
  simp only [breaks, Bool.or_eq_false_iff, Bool.and_eq_false_iff, hc] at h
  obtain ⟨⟨⟨⟨-, hquote⟩, hbackslash⟩, -⟩, hfence⟩ := h
  rw [hfence] at hquote
  exact ⟨by simpa using hquote, by simpa using hbackslash⟩

/-- On a single line the two breaks go together, unless it begins with a blank. -/
theorem afterOpening_of_single {text : List Char} (h : '\n' ∉ text) :
    (breaks text).afterOpening = ((breaks text).beforeClosing && !isIndented text) := by
  simp [breaks, length_splitLines_eq_one.mpr h]

/-- **Each block has one of the three shapes.** -/
theorem shape (text : List Char) : Shape text := by
  have eta : breaks text = ⟨(breaks text).afterOpening, (breaks text).beforeClosing⟩ := rfl
  by_cases hs : '\n' ∈ text
  · have h1 : ((splitLines text).length == 1) = false := by
      rw [beq_eq_false_iff_ne, Ne, length_splitLines_eq_one]
      exact fun h => h hs
    exact .spread (by simp [breaks, h1]) fun h => absurd hs h
  · rw [afterOpening_of_single hs] at eta
    cases hb : (breaks text).beforeClosing with
    | false => exact .inline (by rw [eta, hb]; rfl) hs (last_of_beforeClosing hb)
    | true =>
      cases hi : isIndented text with
      | true => exact .hanging (by rw [eta, hb, hi]; rfl) hs hi
      | false => exact .spread (by rw [eta, hb, hi]; rfl) fun _ => hi

/-! ### The layout of each shape -/

theorem laidOut_inline {text : List Char} (eq : breaks text = ⟨false, false⟩) (single : '\n' ∉ text)
    (indent : List Char) : laidOut indent text = text := by
  simp [laidOut, eq, breakIf, indentLines_of_not_mem single]

theorem laidOut_hanging {text : List Char} (eq : breaks text = ⟨false, true⟩) (single : '\n' ∉ text)
    (indent : List Char) : laidOut indent text = text ++ '\n' :: indent := by
  simp only [laidOut, eq, breakIf, indentLines_append, indentLines_of_not_mem single]
  simp [indentLines]

theorem laidOut_spread {text : List Char} (eq : breaks text = ⟨true, true⟩) (indent : List Char) :
    laidOut indent text = '\n' :: (indent ++ indentLines indent text) ++ '\n' :: indent := by
  simp only [laidOut, eq, breakIf, indentLines_append]
  simp [indentLines]

/-- **A layout tells its text**: a text that is laid out without a break has no line feeds of its
own, so that the line feed of a break is not taken for one of the text. -/
theorem laidOut_injective (indent : List Char) : Function.Injective (laidOut indent) := by
  have absent : ∀ {a b : List Char}, '\n' ∉ a → a ≠ '\n' :: b := fun ha h =>
    ha (h ▸ List.mem_cons_self)
  have absent' : ∀ {a b : List Char}, '\n' ∉ a → a ≠ b ++ ['\n'] := fun ha h =>
    ha (h ▸ List.mem_append_right _ (List.mem_singleton_self _))
  have hanging : ∀ {a b : List Char}, '\n' ∉ a → a ++ ['\n'] ≠ '\n' :: (b ++ ['\n']) :=
    fun ha h => absent ha (List.append_cancel_right (h.trans (List.cons_append ..).symm))
  intro a b h
  have h := indentLines_injective indent h
  rcases shape a with ⟨ha, ha', -⟩ | ⟨ha, ha', -⟩ | ⟨ha, -⟩ <;>
    rcases shape b with ⟨hb, hb', -⟩ | ⟨hb, hb', -⟩ | ⟨hb, -⟩ <;>
      simp only [ha, hb, breakIf, if_true, if_false, Bool.false_eq_true, List.nil_append,
        List.append_nil, List.cons_append] at h
  · exact h
  · exact absurd h (absent' ha')
  · exact absurd h (absent ha')
  · exact absurd h.symm (absent' hb')
  · exact List.append_cancel_right h
  · exact absurd h (hanging ha')
  · exact absurd h.symm (absent hb')
  · exact absurd h.symm (hanging hb')
  · exact List.append_cancel_right (List.cons_eq_cons.mp h).2

/-! ### Printed blocks -/

theorem mem_spaces {c : Char} {indent : Nat} (h : c ∈ spaces indent) : c = ' ' :=
  List.eq_of_mem_replicate h

theorem lineFeed_not_mem_spaces (indent : Nat) : '\n' ∉ spaces indent :=
  fun h => absurd (mem_spaces h) (by decide)

theorem quote_not_mem_spaces (indent : Nat) : '"' ∉ spaces indent :=
  fun h => absurd (mem_spaces h) (by decide)

/-- **The end of a layout keeps clear of the closing quotes.** -/
theorem apart_laidOut (indent : Nat) (text : List Char) :
    Apart (laidOut (spaces indent) text) fence := by
  have clear : ∀ before, Apart (before ++ '\n' :: spaces indent) fence := by
    refine fun before => Or.inr fun c hc => ?_
    have hm : c ∈ '\n' :: spaces indent := by
      rw [List.getLast?_append, List.getLast?_cons] at hc
      exact List.mem_of_getLast? (by rw [List.getLast?_cons]; simpa using hc)
    rcases List.mem_cons.mp hm with rfl | hm
    · decide
    · rw [mem_spaces hm]
      decide
  rcases shape text with ⟨eq, single, last⟩ | ⟨eq, single, -⟩ | ⟨eq, -⟩
  · rw [laidOut_inline eq single]
    exact Or.inr last
  · rw [laidOut_hanging eq single]
    exact clear _
  · rw [laidOut_spread eq]
    exact clear _

theorem escapeFences_breaks (a b : Bool) (text : List Char) :
    escapeFences (breakIf a ++ text ++ breakIf b) =
      breakIf a ++ escapeFences text ++ breakIf b := by
  have hfront : '"' ∉ breakIf a := by cases a <;> decide
  rw [List.append_assoc, escapeFences_append hfront, List.append_assoc]
  cases b with
  | false => simp [breakIf]
  | true => simpa [breakIf, escapeFences] using escapeFences_append_lineFeed text []

/-- **A printed description** is its layout, escaped and between triple quotes. -/
theorem descriptionLines_eq (indent : Nat) (text : List Char) :
    descriptionLines indent text = spaces indent ++ (fence ++
      escapeFences (laidOut (spaces indent) (unifyLineEnds text)) ++ fence) ++ ['\n'] := by
  have hf : indentLines (spaces indent) fence = fence := indentLines_of_not_mem (by decide) _
  rw [descriptionLines, encode, List.append_assoc fence, List.append_assoc fence,
    ← escapeFences_breaks, indentLines_append, indentLines_append, hf,
    indentLines_escapeFences (quote_not_mem_spaces indent), laidOut]

end IntrospectSdl.Proofs.BlockString.Layout
