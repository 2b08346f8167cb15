import Mathlib.Logic.Function.Basic
import Mathlib.Tactic.Tauto
import IntrospectSdl.Sdl.BlockString

/-! # Block strings: where they close

A reader of a block string looks for the first triple quote that no backslash escapes
(`splitAtFence`). Escaping puts a backslash before every triple quote, so that none of them closes
the block. What is left to see to is the end of the text: a quote or a backslash there would run
into the closing quotes, unless a line feed stands between them (`Apart`). With that, the reader
takes an escaped text whole (`splitAtFence_escapeFences`) and finds the text again by dropping the
backslashes (`unescapeFences_escapeFences`). -/

namespace IntrospectSdl.Proofs.BlockString.Fences

open IntrospectSdl.Sdl.BlockString

/-- What stands before the first triple quote that is not escaped, and what stands after it. -/
def splitAtFence : List Char → Option (List Char × List Char)
  | '\\' :: '"' :: '"' :: '"' :: rest =>
    (splitAtFence rest).map fun r => ('\\' :: '"' :: '"' :: '"' :: r.1, r.2)
  | '"' :: '"' :: '"' :: rest => some ([], rest)
  | c :: rest => (splitAtFence rest).map fun r => (c :: r.1, r.2)
  | [] => none

/-- A text with a triple quote in place of each escaped one. -/
def unescapeFences : List Char → List Char
  | '\\' :: '"' :: '"' :: '"' :: rest => '"' :: '"' :: '"' :: unescapeFences rest
  | c :: rest => c :: unescapeFences rest
  | [] => []

/-! ### Escaping, one character at a time -/

theorem fence_append (text : List Char) : fence ++ text = '"' :: '"' :: '"' :: text := rfl

theorem escapeFences_fence (text : List Char) :
    escapeFences (fence ++ text) = '\\' :: fence ++ escapeFences text := rfl

theorem escapeFences_cons {c : Char} {text : List Char} (h : ¬ fence <+: c :: text) :
    escapeFences (c :: text) = c :: escapeFences text :=
  escapeFences.eq_2 c text fun rest hc ht => h ⟨rest, by rw [hc, ht]; rfl⟩

/-- Induction on a text that takes triple quotes whole. -/
theorem fence_induction {motive : List Char → Prop} (nil : motive [])
    (quotes : ∀ text, motive text → motive (fence ++ text))
    (cons : ∀ c text, ¬ fence <+: c :: text → motive text → motive (c :: text))
    (text : List Char) : motive text := by
  induction text using escapeFences.induct with
  | case1 text ih => exact quotes text ih
  | case2 c text hne ih =>
    refine cons c text ?_ ih
    rintro ⟨rest, h⟩
    rw [fence_append, List.cons_eq_cons] at h
    exact hne rest h.1.symm h.2.symm
  | case3 => exact nil

theorem splitAtFence_cons {c : Char} {text : List Char} (h : ¬ fence <+: c :: text)
    (hb : ¬ '\\' :: fence <+: c :: text) :
    splitAtFence (c :: text) = (splitAtFence text).map fun r => (c :: r.1, r.2) :=
  splitAtFence.eq_3 c text (fun rest hc ht => hb ⟨rest, by rw [hc, ht]; rfl⟩)
    fun rest hc ht => h ⟨rest, by rw [hc, ht]; rfl⟩

theorem unescapeFences_cons {c : Char} {text : List Char} (hb : ¬ '\\' :: fence <+: c :: text) :
    unescapeFences (c :: text) = c :: unescapeFences text :=
  unescapeFences.eq_2 c text fun rest hc ht => hb ⟨rest, by rw [hc, ht]; rfl⟩

/-! ### Quotes at the beginning of an escaped text -/

/-- The end of a text does not touch the quotes that follow: it is no quote and no backslash, or
what follows does not begin with a quote. -/
def Apart (text rest : List Char) : Prop :=
  rest.head? ≠ some '"' ∨ ∀ c, text.getLast? = some c → c ≠ '"' ∧ c ≠ '\\'

theorem Apart.of_append {before text rest : List Char} (h : Apart (before ++ text) rest) :
    Apart text rest := by
  refine h.imp_right fun hl c hc => hl c ?_
  rw [List.getLast?_append, hc]
  rfl

theorem Apart.of_cons {c : Char} {text rest : List Char} (h : Apart (c :: text) rest) :
    Apart text rest :=
  Apart.of_append (show Apart ([c] ++ text) rest from h)

theorem quote_of_escapeFences {c : Char} {text rest tail : List Char} (hc : c = '"' ∨ c = '\\')
    (ha : Apart (c :: text) rest) (h : escapeFences text ++ rest = '"' :: tail) :
    ¬ fence <+: text ∧ ∃ text', text = '"' :: text' ∧ escapeFences text' ++ rest = tail := by
  cases text with
  | nil =>
    have hr : rest = '"' :: tail := h
    rcases ha with ha | ha
    · simp [hr] at ha
    · have := ha c rfl
      tauto
  | cons d text =>
    by_cases hf : fence <+: d :: text
    · obtain ⟨text', ht⟩ := hf
      rw [← ht, escapeFences_fence] at h
      simp at h
    · rw [escapeFences_cons hf, List.cons_append, List.cons_eq_cons] at h
      obtain ⟨rfl, h⟩ := h
      exact ⟨hf, text, rfl, h⟩

theorem not_fence_escapeFences {c : Char} {text rest : List Char} (hf : ¬ fence <+: c :: text)
    (ha : Apart (c :: text) rest) : ¬ fence <+: c :: (escapeFences text ++ rest) := by
  rintro ⟨tail, h⟩
  rw [fence_append, List.cons_eq_cons] at h
  obtain ⟨rfl, h⟩ := h
  obtain ⟨-, text₁, rfl, h₁⟩ := quote_of_escapeFences (Or.inl rfl) ha h.symm
  obtain ⟨-, text₂, rfl, -⟩ := quote_of_escapeFences (Or.inl rfl) ha.of_cons h₁
  exact hf ⟨text₂, rfl⟩

theorem not_escaped_escapeFences {c : Char} {text rest : List Char} (ha : Apart (c :: text) rest) :
    ¬ '\\' :: fence <+: c :: (escapeFences text ++ rest) := by
  rintro ⟨tail, h⟩
  rw [List.cons_append, fence_append, List.cons_eq_cons] at h
  obtain ⟨rfl, h⟩ := h
  obtain ⟨hf, text₁, rfl, h₁⟩ := quote_of_escapeFences (Or.inr rfl) ha h.symm
  obtain ⟨-, text₂, rfl, h₂⟩ := quote_of_escapeFences (Or.inl rfl) ha.of_cons h₁
  obtain ⟨-, text₃, rfl, -⟩ := quote_of_escapeFences (Or.inl rfl) ha.of_cons.of_cons h₂
  exact hf ⟨text₃, rfl⟩

/-! ### Reading an escaped text -/

/-- **An escaped text is read whole**: the first triple quote that closes a block stands in what
follows. -/
theorem splitAtFence_escapeFences {text rest : List Char} (ha : Apart text rest) :
    splitAtFence (escapeFences text ++ rest) =
      (splitAtFence rest).map fun r => (escapeFences text ++ r.1, r.2) := by
  induction text using fence_induction with
  | nil => simp [escapeFences]
  | quotes text ih =>
    rw [escapeFences_fence]
    simp only [fence, List.cons_append, List.nil_append, splitAtFence]
    rw [ih ha.of_append, Option.map_map]
    rfl
  | cons c text hf ih =>
    rw [escapeFences_cons hf, List.cons_append, splitAtFence_cons (not_fence_escapeFences hf ha)
      (not_escaped_escapeFences ha), ih ha.of_cons, Option.map_map]
    rfl

theorem splitAtFence_closed {text : List Char} (ha : Apart text fence) (rest : List Char) :
    splitAtFence (escapeFences text ++ (fence ++ rest)) = some (escapeFences text, rest) := by
  rw [splitAtFence_escapeFences (ha.imp_left fun h => absurd rfl h)]
  simp [fence, splitAtFence]

/-- **Dropping the backslashes gives the text back.** -/
theorem unescapeFences_escapeFences (text : List Char) :
    unescapeFences (escapeFences text) = text := by
  induction text using fence_induction with
  | nil => rfl
  | quotes text ih =>
    rw [escapeFences_fence]
    simp only [fence, List.cons_append, List.nil_append, unescapeFences, ih]
  | cons c text hf ih =>
    have ha : Apart (c :: text) [] := Or.inl (by simp)
    have hb := not_escaped_escapeFences ha
    rw [List.append_nil] at hb
    rw [escapeFences_cons hf, unescapeFences_cons hb, ih]

theorem escapeFences_injective : Function.Injective escapeFences :=
  Function.LeftInverse.injective unescapeFences_escapeFences

end IntrospectSdl.Proofs.BlockString.Fences
