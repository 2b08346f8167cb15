import Mathlib.Data.List.Basic
import IntrospectSdl.Text.Lines

/-! # Lines of a text that is put together

Where a text ends with a line feed, its lines and those of what follows are independent, for both
readings of a text as lines (`lines_cons_line`, `splitLines_append_lineFeed`). Lines that a text has
been cut into are still lines when some of them are left out (`Cut.sublist`), and the text of such
lines has just these lines (`Cut.lines_flatten`). Pieces without line feeds that are joined by line
feeds are the lines of the text (`splitLines_joinLines`), and the lines of a text join to the text
(`joinLines_splitLines`). -/

namespace IntrospectSdl.Proofs.Lines

open IntrospectSdl.Text

/-! ### Lines with their line feeds -/

theorem lines_cons_line {line : List Char} (h : '\n' ∉ line) (rest : List Char) :
    lines (line ++ '\n' :: rest) = (line ++ ['\n']) :: lines rest := by
  induction line with
  | nil =>
    rw [List.nil_append, lines_cons]
    cases lines rest <;> rfl
  | cons c line ih =>
    rw [List.mem_cons, not_or] at h
    rw [List.cons_append, lines_cons, ih h.2]
    simp [consLine, Ne.symm h.1]

theorem lines_of_not_mem {line : List Char} (h : '\n' ∉ line) (hne : line ≠ []) :
    lines line = [line] := by
  induction line with
  | nil => exact absurd rfl hne
  | cons c line ih =>
    rw [List.mem_cons, not_or] at h
    rcases eq_or_ne line [] with rfl | hl
    · rfl
    · rw [lines_cons, ih h.2 hl]
      simp [consLine, Ne.symm h.1]

/-- Lines that end with their line feeds are followed by the lines of what follows. -/
theorem lines_flatMap (ls : List (List Char)) (h : ∀ l ∈ ls, '\n' ∉ l) (rest : List Char) :
    lines (ls.flatMap (· ++ ['\n']) ++ rest) = ls.map (· ++ ['\n']) ++ lines rest := by
  induction ls with
  | nil => rfl
  | cons l ls ih =>
    rw [List.forall_mem_cons] at h
    rw [List.flatMap_cons, List.append_assoc, List.append_assoc, List.singleton_append,
      lines_cons_line h.1, ih h.2]
    rfl

/-! ### Lines that a text is cut into -/

/-- Lines as a text is cut into them: none is empty, a line feed stands only at the end of a line,
and only the last line may lack one. -/
structure Cut (ls : List (List Char)) : Prop where
  line : ∀ l ∈ ls, l ≠ [] ∧ '\n' ∉ l.dropLast
  ended : ls.Pairwise fun l _ => l.getLast? = some '\n'

theorem Cut.sublist {ls ls' : List (List Char)} (h : Cut ls) (hs : ls'.Sublist ls) : Cut ls' :=
  ⟨fun l hl => h.line l (hs.subset hl), h.ended.sublist hs⟩

theorem Cut.tail {l : List Char} {ls : List (List Char)} (h : Cut (l :: ls)) : Cut ls :=
  h.sublist (List.sublist_cons_self l ls)

theorem Cut.head {l : List Char} {ls : List (List Char)} (h : Cut (l :: ls)) :
    (∃ line, '\n' ∉ line ∧ l = line ++ ['\n']) ∨ ('\n' ∉ l ∧ l ≠ [] ∧ ls = []) := by
  obtain ⟨hne, hbreak⟩ := h.line l List.mem_cons_self
  have hl : l.dropLast ++ [l.getLast hne] = l := List.dropLast_concat_getLast hne
  by_cases hlast : l.getLast hne = '\n'
  · exact .inl ⟨l.dropLast, hbreak, by rw [← hlast, hl]⟩
  · refine .inr ⟨?_, hne, List.eq_nil_iff_forall_not_mem.mpr fun next hnext => ?_⟩
    · rw [← hl, List.mem_append, List.mem_singleton, not_or]
      exact ⟨hbreak, Ne.symm hlast⟩
    · have hended := List.rel_of_pairwise_cons h.ended hnext
      rw [List.getLast?_eq_some_getLast hne, Option.some_inj] at hended
      exact hlast hended

theorem cut_consLine {c : Char} {ls : List (List Char)} (h : Cut ls) : Cut (consLine c ls) := by
  cases ls with
  | nil => exact ⟨by simp [consLine], List.pairwise_singleton _ _⟩
  | cons l ls =>
    obtain ⟨hne, hbreak⟩ := h.line l List.mem_cons_self
    rw [consLine]
    by_cases hc : c = '\n'
    · subst hc
      rw [if_pos rfl]
      exact ⟨List.forall_mem_cons.mpr ⟨by simp, h.line⟩, .cons (fun _ _ => rfl) h.ended⟩
    · rw [if_neg hc]
      have hdrop : (c :: l).dropLast = c :: l.dropLast := List.dropLast_cons_of_ne_nil hne
      have hlast : (c :: l).getLast? = l.getLast? := List.getLast?_cons_of_ne_nil hne
      refine ⟨List.forall_mem_cons.mpr ⟨⟨List.cons_ne_nil c l, ?_⟩, fun m hm => ?_⟩, ?_⟩
      · rw [hdrop, List.mem_cons, not_or]
        exact ⟨Ne.symm hc, hbreak⟩
      · exact h.line m (List.mem_cons_of_mem l hm)
      · rw [List.pairwise_cons, hlast]
        exact List.pairwise_cons.mp h.ended

/-- **A text is cut into its lines.** -/
theorem cut_lines (text : List Char) : Cut (lines text) := by
  induction text with
  | nil => exact ⟨by simp, .nil⟩
  | cons c text ih => exact cut_consLine ih

/-- **The text of such lines is cut into just these lines.** -/
theorem Cut.lines_flatten {ls : List (List Char)} (h : Cut ls) : lines ls.flatten = ls := by
  induction ls with
  | nil => rfl
  | cons l ls ih =>
    rcases h.head with ⟨line, hline, rfl⟩ | ⟨hl, hne, rfl⟩
    · rw [List.flatten_cons, List.append_assoc, List.singleton_append, lines_cons_line hline,
        ih h.tail]
    · rw [List.flatten_singleton, lines_of_not_mem hl hne]

/-! ### Pieces between line feeds -/

theorem splitLines_ne_nil (text : List Char) : splitLines text ≠ [] := by
  have := length_splitLines text
  rw [← List.length_pos_iff]
  omega

theorem splitLines_lineFeed (text : List Char) :
    splitLines ('\n' :: text) = [] :: splitLines text := by
  rw [splitLines_cons]
  cases h : splitLines text with
  | nil => exact absurd h (splitLines_ne_nil text)
  | cons piece rest => rfl

theorem splitLines_append {line : List Char} (h : '\n' ∉ line) (text : List Char) :
    splitLines (line ++ text) = (splitLines text).modifyHead (line ++ ·) := by
  induction line with
  | nil =>
    cases hs : splitLines text with
    | nil => exact absurd hs (splitLines_ne_nil text)
    | cons piece rest => simp [hs]
  | cons c line ih =>
    rw [List.mem_cons, not_or] at h
    rw [List.cons_append, splitLines_cons, ih h.2]
    cases hs : splitLines text with
    | nil => exact absurd hs (splitLines_ne_nil text)
    | cons piece rest => simp [consPiece, Ne.symm h.1]

theorem splitLines_of_not_mem {line : List Char} (h : '\n' ∉ line) : splitLines line = [line] := by
  have := splitLines_append h []
  simpa using this

theorem splitLines_append_lineFeed (text rest : List Char) :
    splitLines (text ++ '\n' :: rest) = splitLines text ++ splitLines rest := by
  induction text with
  | nil => exact splitLines_lineFeed rest
  | cons c text ih =>
    rw [List.cons_append, splitLines_cons, ih, splitLines_cons]
    cases hs : splitLines text with
    | nil => exact absurd hs (splitLines_ne_nil text)
    | cons piece pieces => by_cases hc : c = '\n' <;> simp [consPiece, hc]

theorem not_mem_of_mem_splitLines {text line : List Char} (h : line ∈ splitLines text) :
    '\n' ∉ line := by
  induction text generalizing line with
  | nil =>
    rw [splitLines_nil, List.mem_singleton] at h
    simp [h]
  | cons c text ih =>
    rw [splitLines_cons] at h
    cases hs : splitLines text with
    | nil => exact absurd hs (splitLines_ne_nil text)
    | cons piece pieces =>
      rw [hs] at h ih
      by_cases hc : c = '\n'
      · rw [consPiece, if_pos hc, List.mem_cons] at h
        rcases h with rfl | h
        · simp
        · exact ih h
      · rw [consPiece, if_neg hc, List.mem_cons] at h
        rcases h with rfl | h
        · simpa [Ne.symm hc] using ih List.mem_cons_self
        · exact ih (List.mem_cons_of_mem _ h)

theorem two_le_length_splitLines {text : List Char} :
    2 ≤ (splitLines text).length ↔ '\n' ∈ text := by
  rw [length_splitLines, ← List.count_pos_iff]
  omega

/-! ### Joining -/

/-- The text of pieces, with a line feed between each two. -/
def joinLines (pieces : List (List Char)) : List Char := List.intercalate ['\n'] pieces

@[simp] theorem joinLines_singleton (piece : List Char) : joinLines [piece] = piece := by
  simp [joinLines, List.intercalate]

theorem joinLines_cons {piece : List Char} {pieces : List (List Char)} (h : pieces ≠ []) :
    joinLines (piece :: pieces) = piece ++ '\n' :: joinLines pieces := by
  obtain ⟨next, pieces, rfl⟩ := List.exists_cons_of_ne_nil h
  simp [joinLines, List.intercalate]

theorem joinLines_append {a b : List (List Char)} (ha : a ≠ []) (hb : b ≠ []) :
    joinLines (a ++ b) = joinLines a ++ '\n' :: joinLines b := by
  induction a with
  | nil => exact absurd rfl ha
  | cons piece a ih =>
    rcases eq_or_ne a [] with rfl | hne
    · rw [joinLines_singleton]
      exact joinLines_cons hb
    · rw [List.cons_append, joinLines_cons (by simp [hne]), ih hne, joinLines_cons hne,
        List.append_assoc, List.cons_append]

theorem joinLines_lineFeed {pieces : List (List Char)} (h : pieces ≠ []) :
    joinLines pieces ++ ['\n'] = pieces.flatMap (· ++ ['\n']) := by
  induction pieces with
  | nil => exact absurd rfl h
  | cons piece pieces ih =>
    rcases eq_or_ne pieces [] with rfl | hp
    · simp
    · rw [joinLines_cons hp, List.append_assoc, List.cons_append, ih hp, List.flatMap_cons,
        List.append_assoc, List.singleton_append]

/-- **Joining the pieces of a text gives the text.** -/
@[simp] theorem joinLines_splitLines (text : List Char) : joinLines (splitLines text) = text := by
  induction text with
  | nil => rfl
  | cons c text ih =>
    rw [splitLines_cons]
    cases hs : splitLines text with
    | nil => exact absurd hs (splitLines_ne_nil text)
    | cons piece pieces =>
      rw [hs] at ih
      by_cases hc : c = '\n'
      · rw [consPiece, if_pos hc, joinLines_cons (by simp), ih, hc]
        rfl
      · rw [consPiece, if_neg hc]
        rcases eq_or_ne pieces [] with rfl | hp
        · simpa using ih
        · rw [joinLines_cons hp] at ih ⊢
          rw [List.cons_append, ih]

/-- **Pieces without line feeds are what their text is split into.** -/
theorem splitLines_joinLines {pieces : List (List Char)} (hne : pieces ≠ [])
    (h : ∀ p ∈ pieces, '\n' ∉ p) : splitLines (joinLines pieces) = pieces := by
  induction pieces with
  | nil => exact absurd rfl hne
  | cons piece pieces ih =>
    rw [List.forall_mem_cons] at h
    rcases eq_or_ne pieces [] with rfl | hp
    · rw [joinLines_singleton, splitLines_of_not_mem h.1]
    · rw [joinLines_cons hp, splitLines_append_lineFeed, splitLines_of_not_mem h.1, ih hp h.2]
      rfl

end IntrospectSdl.Proofs.Lines
