import IntrospectSdl.Proofs.Stripping.Progress

/-! # Stripping: texts that open no block

A text is harmless if no line of it begins with a triple quote and it does not itself begin with a
quote (`Harmless`). Harmless texts can be put together (`Harmless.append`), and stripping leaves
them alone (`Harmless.strip_eq`). -/

namespace IntrospectSdl.Proofs.Stripping.Quiet

open IntrospectSdl.Text IntrospectSdl.Sdl IntrospectSdl.Sdl.Stripping
open IntrospectSdl.Sdl.BlockString IntrospectSdl.Proofs.Lines
open IntrospectSdl.Proofs.Stripping.Description IntrospectSdl.Proofs.Stripping.Progress

/-! ### Lines that open no block -/

theorem not_fence_append {line rest : List Char} (h : ¬ fence <+: line)
    (hq : rest.head? ≠ some '"') : ¬ fence <+: line ++ rest := by
  rintro ⟨tail, htail⟩
  rcases List.append_eq_append_iff.mp htail with ⟨more, hline, -⟩ | ⟨quotes, hfence, hrest⟩
  · exact h ⟨more, hline.symm⟩
  · cases quotes with
    | nil => exact h ⟨[], by rw [hfence, List.append_nil, List.append_nil]⟩
    | cons c quotes =>
      have hc : c ∈ fence := by simp [hfence]
      have hc : c = '"' := by simpa [fence] using hc
      exact hq (by rw [hrest, hc]; rfl)

/-- What does not begin with a quote opens no block on a line that has not opened one. -/
theorem afterOpening_append_eq_none {line rest : List Char} (hline : afterOpening line = none)
    (hrest : afterOpening rest = none) (hq : rest.head? ≠ some '"') :
    afterOpening (line ++ rest) = none := by
  rw [afterOpening_eq_none_iff, unindent] at hline ⊢
  rw [List.dropWhile_append]
  split_ifs
  · exact afterOpening_eq_none_iff.mp hrest
  · exact not_fence_append hline hq

theorem afterOpening_of_not_mem {line : List Char} (h : '"' ∉ line) :
    afterOpening line = none := by
  rw [afterOpening_eq_none_iff]
  intro hprefix
  have hmem : '"' ∈ unindent line := hprefix.subset (by decide)
  exact h ((List.dropWhile_suffix _).subset hmem)

/-! ### Harmless texts -/

/-- No line begins with a triple quote, and the text does not begin with a quote. -/
structure Harmless (text : List Char) : Prop where
  lines : ∀ line ∈ splitLines text, afterOpening line = none
  head : text.head? ≠ some '"'

theorem splitLines_append_eq (a b : List Char) : ∃ before last first after,
    splitLines a = before ++ [last] ∧ splitLines b = first :: after ∧
      splitLines (a ++ b) = before ++ (last ++ first) :: after := by
  induction a with
  | nil =>
    obtain ⟨first, after, hb⟩ := List.exists_cons_of_ne_nil (splitLines_ne_nil b)
    exact ⟨[], [], first, after, rfl, hb, hb⟩
  | cons c a ih =>
    obtain ⟨before, last, first, after, ha, hb, hab⟩ := ih
    rw [List.cons_append, splitLines_cons, splitLines_cons, ha, hab]
    by_cases hc : c = '\n'
    · exact ⟨[] :: before, last, first, after, by cases before <;> simp [consPiece, hc], hb,
        by cases before <;> simp [consPiece, hc]⟩
    · cases before with
      | nil => exact ⟨[], c :: last, first, after, by simp [consPiece, hc], hb,
          by simp [consPiece, hc]⟩
      | cons line before => exact ⟨(c :: line) :: before, last, first, after,
          by simp [consPiece, hc], hb, by simp [consPiece, hc]⟩

theorem head?_of_splitLines {text first : List Char} {after : List (List Char)}
    (h : splitLines text = first :: after) (hq : text.head? ≠ some '"') :
    first.head? ≠ some '"' := by
  cases text with
  | nil =>
    obtain rfl : [] = first := (List.cons.inj h).1
    simp
  | cons c text =>
    rw [splitLines_cons] at h
    obtain ⟨line, lines, hs⟩ := List.exists_cons_of_ne_nil (splitLines_ne_nil text)
    rw [hs, consPiece] at h
    split_ifs at h
    · obtain rfl : [] = first := (List.cons.inj h).1
      simp
    · obtain rfl : c :: line = first := (List.cons.inj h).1
      exact hq

namespace Harmless

/-- **Harmless texts can be put together.** -/
theorem append {a b : List Char} (ha : Harmless a) (hb : Harmless b) : Harmless (a ++ b) where
  lines := by
    obtain ⟨before, last, first, after, hsa, hsb, hsab⟩ := splitLines_append_eq a b
    have hlines := ha.lines
    have hrest := hb.lines
    rw [hsa, List.forall_mem_append, List.forall_mem_singleton] at hlines
    rw [hsb, List.forall_mem_cons] at hrest
    rw [hsab, List.forall_mem_append, List.forall_mem_cons]
    refine ⟨hlines.1, ?_, hrest.2⟩
    exact afterOpening_append_eq_none hlines.2 hrest.1 (head?_of_splitLines hsb hb.head)
  head := by
    cases a with
    | nil => exact hb.head
    | cons c a => exact ha.head

theorem nil : Harmless [] := ⟨by decide, by decide⟩

theorem cons {c : Char} {text : List Char} (hq : c ≠ '"') (h : Harmless text) :
    Harmless (c :: text) := by
  have hfirst : Harmless [c] := by
    refine ⟨fun line hline => afterOpening_of_not_mem ?_, by simpa using hq⟩
    rw [splitLines_cons, splitLines_nil, consPiece] at hline
    split_ifs at hline <;> simp_all [eq_comm]
  exact hfirst.append h

theorem of_not_mem {text : List Char} (h : '"' ∉ text) : Harmless text := by
  induction text with
  | nil => exact nil
  | cons c text ih =>
    rw [List.mem_cons, not_or] at h
    exact .cons (Ne.symm h.1) (ih h.2)

/-- A text that settles its line is harmless if its other lines open no block. -/
theorem of_settled {c : Char} {rest : List Char} (hb : isBlank c = false) (hq : c ≠ '"')
    (hrest : ∀ line ∈ (splitLines rest).tail, afterOpening line = none) (hc : c ≠ '\n') :
    Harmless (c :: rest) where
  lines := by
    obtain ⟨first, after, hs⟩ := List.exists_cons_of_ne_nil (splitLines_ne_nil rest)
    rw [hs, List.tail_cons] at hrest
    rw [splitLines_cons, hs, consPiece, if_neg hc, List.forall_mem_cons]
    exact ⟨afterOpening_cons hb hq first, hrest⟩
  head := by simpa using hq

theorem flatten {texts : List (List Char)} (h : ∀ t ∈ texts, Harmless t) :
    Harmless texts.flatten := by
  induction texts with
  | nil => exact nil
  | cons t texts ih =>
    rw [List.forall_mem_cons] at h
    exact h.1.append (ih h.2)

theorem intercalate {sep : List Char} {texts : List (List Char)} (hs : Harmless sep)
    (h : ∀ t ∈ texts, Harmless t) : Harmless (List.intercalate sep texts) := by
  induction texts with
  | nil => exact nil
  | cons t texts ih =>
    rw [List.forall_mem_cons] at h
    cases texts with
    | nil => simpa [List.intercalate] using h.1
    | cons u texts =>
      rw [List.intercalate_cons_cons, List.append_assoc]
      exact h.1.append (hs.append (ih h.2))

/-- **Stripping leaves a harmless text alone.** -/
theorem strip_eq {text : List Char} (h : Harmless text) : strip text = text := by
  have hjoin : ∀ pieces : List (List Char), pieces ≠ [] → (∀ p ∈ pieces, '\n' ∉ p) →
      (∀ p ∈ pieces, afterOpening p = none) → strip (joinLines pieces) = joinLines pieces := by
    intro pieces hne hbreak hopen
    induction pieces with
    | nil => exact absurd rfl hne
    | cons piece pieces ih =>
      rw [List.forall_mem_cons] at hbreak hopen
      rcases eq_or_ne pieces [] with rfl | hp
      · rw [joinLines_singleton]
        exact strip_last hbreak.1 hopen.1
      · have hline : afterOpening (piece ++ ['\n']) = none :=
          afterOpening_append_eq_none hopen.1 (by decide) (by decide)
        rw [joinLines_cons hp, strip_line hbreak.1 hline, ih hp hbreak.2 hopen.2]
  have := hjoin (splitLines text) (splitLines_ne_nil text)
    (fun _ => not_mem_of_mem_splitLines) h.lines
  rwa [joinLines_splitLines] at this

end Harmless

end IntrospectSdl.Proofs.Stripping.Quiet
