import IntrospectSdl.Sdl.Stripping
import IntrospectSdl.Proofs.BlockString.Layout

/-! # Stripping: a printed description is removed

A line that does not begin with a triple quote is kept (`strip_line`). A description on one line is
a line with one whole block, and goes in the first pass. The lines of any other description are an
opening line, lines that do not begin with a triple quote, and a closing line, none of them a whole
block, and so they go together in the second pass. Either way nothing is left of the description,
and what follows is stripped as if it stood alone (`strip_descriptionLines`). -/

namespace IntrospectSdl.Proofs.Stripping.Description

open IntrospectSdl.Text IntrospectSdl.Sdl IntrospectSdl.Sdl.BlockString
open IntrospectSdl.Sdl.Stripping
open IntrospectSdl.Proofs.Lines IntrospectSdl.Proofs.BlockString.Fences
open IntrospectSdl.Proofs.BlockString.Indentation IntrospectSdl.Proofs.BlockString.Layout

/-! ### Openings -/

theorem unindent_append {blanks : List Char} (h : ∀ c ∈ blanks, isBlank c = true)
    (rest : List Char) : unindent (blanks ++ rest) = unindent rest :=
  List.dropWhile_append_of_pos h

theorem isBlank_spaces {indent : Nat} {c : Char} (h : c ∈ spaces indent) : isBlank c = true := by
  rw [mem_spaces h]
  rfl

theorem afterOpening_fence {blanks : List Char} (h : ∀ c ∈ blanks, isBlank c = true)
    (rest : List Char) : afterOpening (blanks ++ (fence ++ rest)) = some rest := by
  rw [afterOpening, unindent_append h]
  rfl

theorem afterOpening_eq_none_iff {line : List Char} :
    afterOpening line = none ↔ ¬ fence <+: unindent line := by
  rw [afterOpening]
  split
  · next rest h => simpa [h] using ⟨rest, rfl⟩
  · next hne =>
    refine iff_of_true rfl ?_
    rintro ⟨rest, h⟩
    exact hne rest h.symm

theorem afterOpening_eq_some_iff {line rest : List Char} :
    afterOpening line = some rest ↔ unindent line = fence ++ rest := by
  rw [afterOpening]
  split
  · next rest' h => simp [h, fence]
  · next hne => exact iff_of_false (by simp) fun h => hne rest h

theorem afterClosing_eq (text : List Char) :
    afterClosing text = (splitAtFence text).map Prod.snd := by
  induction text using splitAtFence.induct with
  | case1 rest ih => simp [afterClosing, splitAtFence, ih, Function.comp_def]
  | case2 rest => simp [afterClosing, splitAtFence]
  | case3 c rest h₁ h₂ ih =>
    rw [splitAtFence.eq_3 c rest h₁ h₂, afterClosing.eq_3 c rest h₁ h₂, ih, Option.map_map]
    rfl
  | case4 => rfl

theorem isWholeBlock_of_afterOpening {line : List Char} (h : afterOpening line = none) :
    isWholeBlock line = false := by simp [isWholeBlock, h]

theorem isOpening_of_afterOpening {line : List Char} (h : afterOpening line = none) :
    isOpening line = false := by simp [isOpening, h]

theorem isClosing_of_afterOpening {line : List Char} (h : afterOpening line = none) :
    isClosing line = false := by simp [isClosing, h]

/-! ### Lines that are kept and lines that are removed -/

theorem strip_eq (text : List Char) :
    strip text = (withoutBlocks 0 ((lines text).filter (!isWholeBlock ·))).flatten := rfl

/-- **A line that does not open is kept**, and what follows is stripped by itself. -/
theorem strip_line {line : List Char} (h : '\n' ∉ line)
    (ho : afterOpening (line ++ ['\n']) = none) (rest : List Char) :
    strip (line ++ '\n' :: rest) = line ++ '\n' :: strip rest := by
  rw [strip_eq, lines_cons_line h, List.filter_cons_of_pos (by
    simp [isWholeBlock_of_afterOpening ho]), withoutBlocks, isOpening_of_afterOpening ho, strip_eq]
  simp

theorem strip_last {line : List Char} (h : '\n' ∉ line) (ho : afterOpening line = none) :
    strip line = line := by
  rcases eq_or_ne line [] with rfl | hne
  · rfl
  · rw [strip_eq, lines_of_not_mem h hne, List.filter_cons_of_pos (by
      simp [isWholeBlock_of_afterOpening ho]), withoutBlocks, isOpening_of_afterOpening ho]
    simp [withoutBlocks]

theorem strip_whole {line : List Char} (h : '\n' ∉ line)
    (hw : isWholeBlock (line ++ ['\n']) = true) (rest : List Char) :
    strip (line ++ '\n' :: rest) = strip rest := by
  rw [strip_eq, lines_cons_line h, List.filter_cons_of_neg (by simp [hw]), strip_eq]

theorem withoutBlocks_eq_drop : ∀ (n : Nat) (ls : List (List Char)),
    withoutBlocks n ls = withoutBlocks 0 (ls.drop n)
  | 0, _ => rfl
  | n + 1, [] => by simp [withoutBlocks]
  | n + 1, _ :: ls => by rw [withoutBlocks, withoutBlocks_eq_drop n ls, List.drop_succ_cons]

/-- **An opening line and a closing line are removed with the lines between them**, if these do not
open. -/
theorem strip_block {opening closing : List Char} (body : List (List Char))
    (hol : '\n' ∉ opening) (ho : isOpening (opening ++ ['\n']) = true)
    (how : isWholeBlock (opening ++ ['\n']) = false) (hbl : ∀ l ∈ body, '\n' ∉ l)
    (hb : ∀ l ∈ body, afterOpening (l ++ ['\n']) = none) (hcl : '\n' ∉ closing)
    (hc : isClosing (closing ++ ['\n']) = true) (hcw : isWholeBlock (closing ++ ['\n']) = false)
    (rest : List Char) :
    strip (opening ++ '\n' :: (body.flatMap (· ++ ['\n']) ++ (closing ++ '\n' :: rest))) =
      strip rest := by
  have hkept : (body.map (· ++ ['\n'])).filter (!isWholeBlock ·) = body.map (· ++ ['\n']) := by
    rw [List.filter_eq_self, List.forall_mem_map]
    intro l hl
    rw [isWholeBlock_of_afterOpening (hb l hl)]
    rfl
  have hfind : ∀ ls, (body.map (· ++ ['\n']) ++ (closing ++ ['\n']) :: ls).findIdx? isClosing =
      some body.length := by
    intro ls
    have hnone : (body.map (· ++ ['\n'])).findIdx? isClosing = none := by
      rw [List.findIdx?_eq_none_iff, List.forall_mem_map]
      exact fun l hl => isClosing_of_afterOpening (hb l hl)
    simp [List.findIdx?_append, hnone, List.findIdx?_cons, hc]
  rw [strip_eq, lines_cons_line hol, lines_flatMap body hbl, lines_cons_line hcl,
    List.filter_cons_of_pos (by simp [how]), List.filter_append, hkept,
    List.filter_cons_of_pos (by simp [hcw]), withoutBlocks, if_pos ho, hfind]
  simp only [withoutBlocks_eq_drop (body.length + 1), strip_eq]
  rw [List.drop_append, List.drop_eq_nil_of_le (by simp)]
  simp

/-! ### The lines of a description -/

theorem afterOpening_escapeFences {blanks : List Char} (h : ∀ c ∈ blanks, isBlank c = true)
    (line : List Char) : afterOpening (blanks ++ escapeFences line ++ ['\n']) = none := by
  rw [afterOpening_eq_none_iff, List.append_assoc, unindent_append h]
  induction line with
  | nil => decide
  | cons c line ih =>
    by_cases hf : fence <+: c :: line
    · obtain ⟨rest, hr⟩ := hf
      rw [← hr, escapeFences_fence, List.cons_append, List.cons_append, unindent,
        List.dropWhile_cons_of_neg (by decide)]
      rintro ⟨_, h⟩
      exact absurd (List.cons_eq_cons.mp h).1 (by decide)
    · rw [escapeFences_cons hf, List.cons_append, unindent]
      cases hc : isBlank c with
      | true => rwa [List.dropWhile_cons_of_pos hc]
      | false =>
        rw [List.dropWhile_cons_of_neg (by simp [hc])]
        exact not_fence_escapeFences hf (Or.inl (by simp))

theorem opening_line {blanks : List Char} (h : ∀ c ∈ blanks, isBlank c = true) (first : List Char) :
    isOpening (blanks ++ (fence ++ escapeFences first) ++ ['\n']) = true ∧
      isWholeBlock (blanks ++ (fence ++ escapeFences first) ++ ['\n']) = false := by
  have ha : afterOpening (blanks ++ (fence ++ escapeFences first) ++ ['\n']) =
      some (escapeFences first ++ ['\n']) := by
    rw [List.append_assoc, List.append_assoc, afterOpening_fence h]
  have hc : afterClosing (escapeFences first ++ ['\n']) = none := by
    rw [afterClosing_eq, splitAtFence_escapeFences (Or.inl (by simp))]
    rfl
  constructor
  · rw [isOpening, ha]
    simp
  · rw [isWholeBlock, ha]
    simp [hc]

theorem closing_line {blanks : List Char} (h : ∀ c ∈ blanks, isBlank c = true) :
    isClosing (blanks ++ fence ++ ['\n']) = true ∧
      isWholeBlock (blanks ++ fence ++ ['\n']) = false := by
  have ha : afterOpening (blanks ++ fence ++ ['\n']) = some ['\n'] := by
    rw [List.append_assoc, afterOpening_fence h]
  constructor
  · rw [isClosing, ha]
    rfl
  · rw [isWholeBlock, ha]
    rfl

theorem whole_line {blanks : List Char} (h : ∀ c ∈ blanks, isBlank c = true) {text : List Char}
    (ha : Apart text fence) :
    isWholeBlock (blanks ++ (fence ++ escapeFences text ++ fence) ++ ['\n']) = true := by
  have ho : afterOpening (blanks ++ (fence ++ escapeFences text ++ fence) ++ ['\n']) =
      some (escapeFences text ++ (fence ++ ['\n'])) := by
    rw [List.append_assoc, List.append_assoc, List.append_assoc, afterOpening_fence h]
  have hc : afterClosing (escapeFences text ++ (fence ++ ['\n'])) = some ['\n'] := by
    rw [afterClosing_eq, splitAtFence_closed ha]
    rfl
  simp only [isWholeBlock, ho, Option.bind_eq_bind, Option.bind_some, hc]
  rfl

/-- The lines between those of the quotes, one for each line of the text. -/
theorem escapeFences_indented (indent : Nat) (text : List Char) :
    escapeFences (spaces indent ++ indentLines (spaces indent) text) ++ ['\n'] =
      ((splitLines text).map fun l => spaces indent ++ escapeFences l).flatMap (· ++ ['\n']) := by
  have hl := lineFeed_not_mem_spaces indent
  have hpieces : splitLines (escapeFences (spaces indent ++ indentLines (spaces indent) text)) =
      (splitLines text).map fun l => spaces indent ++ escapeFences l := by
    rw [splitLines_escapeFences, splitLines_append hl, splitLines_indentLines hl, List.map_map]
    exact List.map_congr_left fun l _ => escapeFences_append (quote_not_mem_spaces indent)
  rw [← joinLines_lineFeed (by simp [splitLines_ne_nil]), ← hpieces, joinLines_splitLines]

theorem lineFeed_not_mem_line {indent : Nat} {text : List Char} (h : '\n' ∉ text) :
    '\n' ∉ spaces indent ++ escapeFences text := by
  rw [List.mem_append, not_or, lineFeed_mem_escapeFences]
  exact ⟨lineFeed_not_mem_spaces indent, h⟩

/-- **Nothing is left of a printed description**, and what follows is stripped by itself. -/
theorem strip_descriptionLines (indent : Nat) (text rest : List Char) :
    strip (descriptionLines indent text ++ rest) = strip rest := by
  have hb : ∀ c ∈ spaces indent, isBlank c = true := fun c => isBlank_spaces
  have hl := lineFeed_not_mem_spaces indent
  have hs : escapeFences (spaces indent) = spaces indent := by
    have : escapeFences (spaces indent ++ []) = spaces indent ++ escapeFences [] :=
      escapeFences_append (quote_not_mem_spaces indent)
    simpa [escapeFences] using this
  have hclose := closing_line hb
  have hcl : '\n' ∉ spaces indent ++ fence := by simp [hl, fence]
  have hapart := apart_laidOut indent (unifyLineEnds text)
  rw [descriptionLines_eq]
  set t := unifyLineEnds text
  rcases shape t with ⟨eq, single, -⟩ | ⟨eq, single, -⟩ | ⟨eq, -⟩
  · rw [laidOut_inline eq single] at hapart ⊢
    have hline : '\n' ∉ spaces indent ++ (fence ++ escapeFences t ++ fence) := by
      simp [hl, fence, lineFeed_mem_escapeFences, single]
    rw [List.append_assoc _ ['\n']]
    exact strip_whole hline (whole_line hb hapart) rest
  · rw [laidOut_hanging eq single, escapeFences_append_lineFeed, hs]
    have hopen := opening_line hb t
    have hol : '\n' ∉ spaces indent ++ (fence ++ escapeFences t) := by
      simp [hl, fence, lineFeed_mem_escapeFences, single]
    have := strip_block [] hol hopen.1 hopen.2 (by simp) (by simp) hcl hclose.1 hclose.2 rest
    simpa using this
  · rw [laidOut_spread eq, escapeFences_append_lineFeed, hs]
    have hopen := opening_line hb []
    have hol : '\n' ∉ spaces indent ++ (fence ++ escapeFences []) := by
      simp [hl, fence, escapeFences]
    have := strip_block ((splitLines t).map fun l => spaces indent ++ escapeFences l)
      hol hopen.1 hopen.2 (List.forall_mem_map.mpr fun l h =>
        lineFeed_not_mem_line (not_mem_of_mem_splitLines h))
      (List.forall_mem_map.mpr fun l _ => afterOpening_escapeFences hb l) hcl hclose.1 hclose.2 rest
    rw [← escapeFences_indented] at this
    simpa [escapeFences] using this

end IntrospectSdl.Proofs.Stripping.Description
