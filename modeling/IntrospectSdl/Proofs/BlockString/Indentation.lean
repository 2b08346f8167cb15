import IntrospectSdl.Sdl.Document
import IntrospectSdl.Proofs.Lines
import IntrospectSdl.Proofs.BlockString.Fences

/-! # Block strings: indentation

Indenting puts an indentation after every line feed. It loses nothing (`indentLines_injective`), and
it does not interfere with escaping (`indentLines_escapeFences`): an indentation holds no quotes, so
that it neither makes nor breaks a triple quote. -/

namespace IntrospectSdl.Proofs.BlockString.Indentation

open IntrospectSdl.Text IntrospectSdl.Sdl IntrospectSdl.Sdl.BlockString
open IntrospectSdl.Proofs.Lines IntrospectSdl.Proofs.BlockString.Fences

/-! ### Indenting -/

theorem indentLines_append (indent a b : List Char) :
    indentLines indent (a ++ b) = indentLines indent a ++ indentLines indent b :=
  List.flatMap_append

theorem indentLines_cons {c : Char} (hc : c ≠ '\n') (indent text : List Char) :
    indentLines indent (c :: text) = c :: indentLines indent text := by
  simp [indentLines, hc]

theorem indentLines_lineFeed (indent text : List Char) :
    indentLines indent ('\n' :: text) = '\n' :: indent ++ indentLines indent text := rfl

theorem indentLines_of_not_mem {text : List Char} (h : '\n' ∉ text) (indent : List Char) :
    indentLines indent text = text := by
  induction text with
  | nil => rfl
  | cons c text ih =>
    rw [List.mem_cons, not_or] at h
    rw [indentLines_cons (Ne.symm h.1), ih h.2]

/-- **Indenting loses nothing.** -/
theorem indentLines_injective (indent : List Char) : Function.Injective (indentLines indent) := by
  intro a
  induction a with
  | nil =>
    intro b h
    cases b with
    | nil => rfl
    | cons d b => by_cases hd : d = '\n' <;> simp [indentLines, hd] at h
  | cons c a ih =>
    intro b h
    cases b with
    | nil => by_cases hc : c = '\n' <;> simp [indentLines, hc] at h
    | cons d b =>
      by_cases hc : c = '\n' <;> by_cases hd : d = '\n'
      · subst hc hd
        rw [indentLines_lineFeed, indentLines_lineFeed] at h
        rw [ih (List.append_cancel_left h)]
      · subst hc
        rw [indentLines_lineFeed, indentLines_cons hd] at h
        exact absurd (List.cons_eq_cons.mp h).1.symm hd
      · subst hd
        rw [indentLines_lineFeed, indentLines_cons hc] at h
        exact absurd (List.cons_eq_cons.mp h).1 hc
      · rw [indentLines_cons hc, indentLines_cons hd, List.cons_eq_cons] at h
        rw [h.1, ih h.2]

theorem splitLines_indentLines {indent : List Char} (hi : '\n' ∉ indent) (text : List Char) :
    (splitLines (indentLines indent text)).modifyHead (indent ++ ·) =
      (splitLines text).map (indent ++ ·) := by
  induction text with
  | nil => rfl
  | cons c text ih =>
    by_cases hc : c = '\n'
    · subst hc
      rw [indentLines_lineFeed, List.cons_append, splitLines_lineFeed, splitLines_append hi, ih,
        splitLines_lineFeed]
      rfl
    · rw [indentLines_cons hc, splitLines_cons, splitLines_cons]
      cases hs : splitLines text with
      | nil => exact absurd hs (splitLines_ne_nil text)
      | cons piece pieces =>
        cases ht : splitLines (indentLines indent text) with
        | nil => exact absurd ht (splitLines_ne_nil _)
        | cons piece' pieces' =>
          rw [hs, ht] at ih
          simp only [List.modifyHead_cons, List.map_cons, List.cons_eq_cons] at ih
          simp [consPiece, hc, ih.2, List.append_cancel_left ih.1]

/-! ### Escaping beside indenting -/

/-- An indentation has no quotes that could combine with those of a text. -/
theorem escapeFences_append {before text : List Char} (h : '"' ∉ before) :
    escapeFences (before ++ text) = before ++ escapeFences text := by
  induction before with
  | nil => rfl
  | cons c before ih =>
    rw [List.mem_cons, not_or] at h
    have hf : ¬ fence <+: c :: (before ++ text) := by
      rintro ⟨rest, hr⟩
      exact h.1 (List.cons_eq_cons.mp hr).1
    rw [List.cons_append, escapeFences_cons hf, ih h.2, List.cons_append]

theorem not_fence_indentLines {indent text : List Char} (h : ¬ fence <+: text) :
    ¬ fence <+: indentLines indent text := by
  rintro ⟨rest, hr⟩
  have quote : ∀ {text tail : List Char}, '"' :: tail = indentLines indent text →
      ∃ text', text = '"' :: text' ∧ tail = indentLines indent text' := by
    intro text tail ht
    cases text with
    | nil => simp [indentLines] at ht
    | cons c text =>
      by_cases hc : c = '\n'
      · subst hc
        rw [indentLines_lineFeed, List.cons_append, List.cons_eq_cons] at ht
        exact absurd ht.1 (by decide)
      · rw [indentLines_cons hc, List.cons_eq_cons] at ht
        exact ⟨text, by rw [ht.1], ht.2⟩
  rw [fence_append] at hr
  obtain ⟨text₁, rfl, h₁⟩ := quote hr
  obtain ⟨text₂, rfl, h₂⟩ := quote h₁
  obtain ⟨text₃, rfl, -⟩ := quote h₂
  exact h ⟨text₃, rfl⟩

/-- **Escaping and indenting do not interfere.** -/
theorem indentLines_escapeFences {indent : List Char} (hi : '"' ∉ indent) (text : List Char) :
    indentLines indent (escapeFences text) = escapeFences (indentLines indent text) := by
  induction text using fence_induction with
  | nil => rfl
  | quotes text ih =>
    rw [escapeFences_fence, indentLines_append, ih, indentLines_append]
    rfl
  | cons c text hf ih =>
    by_cases hc : c = '\n'
    · subst hc
      rw [escapeFences_cons hf, indentLines_lineFeed, indentLines_lineFeed, ih,
        escapeFences_append (by simpa using hi)]
    · have hf' : ¬ fence <+: indentLines indent (c :: text) := not_fence_indentLines hf
      rw [indentLines_cons hc] at hf'
      rw [escapeFences_cons hf, indentLines_cons hc, indentLines_cons hc, escapeFences_cons hf', ih]

theorem splitLines_escapeFences (text : List Char) :
    splitLines (escapeFences text) = (splitLines text).map escapeFences := by
  induction text using fence_induction with
  | nil => rfl
  | quotes text ih =>
    rw [escapeFences_fence, splitLines_append (by decide), splitLines_append (by decide), ih]
    cases hs : splitLines text with
    | nil => exact absurd hs (splitLines_ne_nil text)
    | cons piece pieces => simp [escapeFences_fence]
  | cons c text hf ih =>
    rw [escapeFences_cons hf, splitLines_cons, splitLines_cons, ih]
    cases hs : splitLines text with
    | nil => exact absurd hs (splitLines_ne_nil text)
    | cons piece pieces =>
      by_cases hc : c = '\n'
      · simp [consPiece, hc, escapeFences]
      · have hf' : ¬ fence <+: c :: piece := by
          refine fun hp => hf (hp.trans ?_)
          have ht := joinLines_splitLines text
          rw [hs] at ht
          rcases eq_or_ne pieces [] with rfl | hne
          · rw [joinLines_singleton] at ht
            exact ht ▸ List.prefix_rfl
          · rw [joinLines_cons hne] at ht
            rw [← ht]
            exact List.prefix_append (c :: piece) _
        simp [consPiece, hc, escapeFences_cons hf']

theorem lineFeed_mem_escapeFences {text : List Char} :
    '\n' ∈ escapeFences text ↔ '\n' ∈ text := by
  rw [← two_le_length_splitLines, splitLines_escapeFences, List.length_map,
    two_le_length_splitLines]

theorem escapeFences_append_lineFeed (text rest : List Char) :
    escapeFences (text ++ '\n' :: rest) = escapeFences text ++ '\n' :: escapeFences rest := by
  have joined : ∀ t, escapeFences t = joinLines ((splitLines t).map escapeFences) := fun t => by
    rw [← splitLines_escapeFences, joinLines_splitLines]
  have hne : ∀ t, (splitLines t).map escapeFences ≠ [] := fun t => by
    simp [splitLines_ne_nil]
  rw [joined (text ++ _), splitLines_append_lineFeed, List.map_append,
    joinLines_append (hne text) (hne rest), ← joined, ← joined]

end IntrospectSdl.Proofs.BlockString.Indentation
