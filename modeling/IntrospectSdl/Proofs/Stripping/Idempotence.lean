import IntrospectSdl.Proofs.Stripping.Description

/-! # Stripping: once is enough

Stripping takes out whole lines, and the lines of what is left are the lines that were kept
(`lines_strip`). Among these there is no whole block, since the first pass looks at each line by
itself; and behind an opening line among them there is no closing line, since the second pass would
have paired the two (`unpaired_withoutBlocks`). So neither pass finds anything in a text that has
been stripped, whatever the text was (`strip_strip`). -/

namespace IntrospectSdl.Proofs.Stripping.Idempotence

open IntrospectSdl.Text (lines)
open IntrospectSdl.Sdl IntrospectSdl.Sdl.Stripping
open IntrospectSdl.Proofs.Lines IntrospectSdl.Proofs.Stripping.Description

/-! ### The lines of what is left -/

theorem withoutBlocks_sublist (n : Nat) (ls : List (List Char)) :
    (withoutBlocks n ls).Sublist ls := by
  induction n, ls using withoutBlocks.induct with
  | case1 n => rw [withoutBlocks]
  | case2 n line rest ih =>
    rw [withoutBlocks]
    exact ih.cons line
  | case3 line rest ho k hk ih =>
    rw [withoutBlocks, if_pos ho, hk]
    exact ih.cons line
  | case4 line rest ho hk ih =>
    rw [withoutBlocks, if_pos ho, hk]
    exact ih.cons_cons line
  | case5 line rest ho ih =>
    rw [withoutBlocks, if_neg ho]
    exact ih.cons_cons line

theorem keptLines_sublist (text : List Char) : (keptLines text).Sublist (lines text) :=
  (withoutBlocks_sublist 0 _).trans List.filter_sublist

/-- **The lines of a stripped text are the lines that were kept.** -/
theorem lines_strip (text : List Char) : lines (strip text) = keptLines text :=
  ((cut_lines text).sublist (keptLines_sublist text)).lines_flatten

/-! ### Lines among which there are no blocks -/

/-- No opening line has a closing line behind it. -/
def Unpaired (ls : List (List Char)) : Prop :=
  ls.Pairwise fun line later => isOpening line = true → isClosing later = false

theorem unpaired_withoutBlocks (n : Nat) (ls : List (List Char)) :
    Unpaired (withoutBlocks n ls) := by
  induction n, ls using withoutBlocks.induct with
  | case1 n =>
    rw [withoutBlocks]
    exact .nil
  | case2 n line rest ih =>
    rw [withoutBlocks]
    exact ih
  | case3 line rest ho k hk ih =>
    rw [withoutBlocks, if_pos ho, hk]
    exact ih
  | case4 line rest ho hk ih =>
    -- The line is kept because no line behind it closes, and none is added to those.
    have hopen : ∀ later ∈ withoutBlocks 0 rest, isClosing later = false := by
      intro later hlater
      exact List.findIdx?_eq_none_iff.mp hk later ((withoutBlocks_sublist 0 rest).subset hlater)
    rw [withoutBlocks, if_pos ho, hk]
    exact .cons (fun later hlater _ => hopen later hlater) ih
  | case5 line rest ho ih =>
    rw [withoutBlocks, if_neg ho]
    exact .cons (fun _ _ h => absurd h ho) ih

theorem withoutBlocks_eq_self {ls : List (List Char)} (h : Unpaired ls) :
    withoutBlocks 0 ls = ls := by
  induction ls with
  | nil => rfl
  | cons line rest ih =>
    obtain ⟨hline, hrest⟩ := List.pairwise_cons.mp h
    by_cases ho : isOpening line = true
    · have hk : rest.findIdx? isClosing = none :=
        List.findIdx?_eq_none_iff.mpr fun later hlater => hline later hlater ho
      rw [withoutBlocks, if_pos ho, hk]
      exact congrArg (line :: ·) (ih hrest)
    · rw [withoutBlocks, if_neg ho, ih hrest]

theorem filter_keptLines (text : List Char) :
    (keptLines text).filter (!isWholeBlock ·) = keptLines text := by
  rw [List.filter_eq_self]
  intro line hline
  exact (List.mem_filter.mp ((withoutBlocks_sublist 0 _).subset hline)).2

/-- **Stripping a text that has been stripped changes nothing.** -/
theorem strip_strip (text : List Char) : strip (strip text) = strip text := by
  have hkept : withoutBlocks 0 (keptLines text) = keptLines text :=
    withoutBlocks_eq_self (unpaired_withoutBlocks 0 _)
  calc strip (strip text)
    _ = (withoutBlocks 0 ((lines (strip text)).filter (!isWholeBlock ·))).flatten :=
      strip_eq (strip text)
    _ = (withoutBlocks 0 (keptLines text)).flatten := by rw [lines_strip, filter_keptLines]
    _ = strip text := by rw [hkept, strip]

end IntrospectSdl.Proofs.Stripping.Idempotence
