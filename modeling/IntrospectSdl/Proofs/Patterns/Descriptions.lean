import Mathlib.Data.List.TakeWhile
import IntrospectSdl.Proofs.Patterns.Content
import IntrospectSdl.Proofs.Patterns.Removal
import IntrospectSdl.Proofs.Stripping.LastLine

/-! # Patterns: what the patterns of descriptions remove

The two patterns look at a text from some place on, and so past the end of a line; stripping looks
at one line. Up to the end of the line both see the same (`ToLineEnd`), which holds of an opening,
of the closing of a block string and of the end of the line. So at the start of a line the first
pattern matches just the lines with one whole block string (`afterMatch_wholeBlock`), and the second
one an opening line with what stands up to the first closing line (`afterMatch_spreadBlock`).
Nothing else is removed by either, and this is what stripping does line by line
(`removeDescriptions_eq_strip`). -/

namespace IntrospectSdl.Proofs.Patterns.Descriptions

open IntrospectSdl.Text (lines)
open IntrospectSdl.Sdl IntrospectSdl.Sdl.Pattern IntrospectSdl.Sdl.DescriptionPattern
open IntrospectSdl.Sdl.Stripping
open IntrospectSdl.Proofs.Lines IntrospectSdl.Proofs.Stripping.Description
open IntrospectSdl.Proofs.Stripping.LastLine
open IntrospectSdl.Proofs.Patterns.Ends IntrospectSdl.Proofs.Patterns.Content
open IntrospectSdl.Proofs.Patterns.Removal

/-! ### Up to the end of a line -/

/-- A part of a text reaches to the end of its line: up to the line feed, or there is nothing behind
it. -/
def ToLineEnd (part rest : List Char) : Prop :=
  (∃ line, '\n' ∉ line ∧ part = line ++ ['\n']) ∨ ('\n' ∉ part ∧ rest = [])

theorem toLineEnd_of_cut {l : List Char} {ls : List (List Char)} (h : Cut (l :: ls)) :
    ToLineEnd l ls.flatten := by
  rcases h.head with hl | ⟨hl, -, rfl⟩
  · exact .inl hl
  · exact .inr ⟨hl, rfl⟩

section

variable {part rest : List Char}

theorem ToLineEnd.of_suffix (h : ToLineEnd part rest) {c : Char} {text : List Char} (hc : c ≠ '\n')
    (hs : c :: text <:+ part) : ToLineEnd text rest := by
  rcases h with ⟨line, hline, rfl⟩ | ⟨hpart, rfl⟩
  · rcases List.suffix_concat_iff.mp hs with h | ⟨before, heq, hbefore⟩
    · cases h
    · cases before with
      | nil => exact absurd (List.cons.inj heq).1 hc
      | cons d before =>
        refine .inl ⟨before, fun hm => hline ?_, (List.cons.inj heq).2⟩
        exact hbefore.subset (List.mem_cons_of_mem d hm)
  · exact .inr ⟨fun hm => hpart (hs.subset (List.mem_cons_of_mem c hm)), rfl⟩

theorem ToLineEnd.tail {c : Char} (h : ToLineEnd (c :: part) rest) (hc : c ≠ '\n') :
    ToLineEnd part rest :=
  h.of_suffix hc (List.suffix_refl _)

theorem ToLineEnd.eq_nil_of_lineFeed (h : ToLineEnd ('\n' :: part) rest) : part = [] := by
  rcases h with ⟨line, hline, heq⟩ | ⟨hpart, -⟩
  · cases line with
    | nil => exact (List.cons.inj heq).2
    | cons c line => exact absurd List.mem_cons_self ((List.cons.inj heq).1 ▸ hline)
  · exact absurd List.mem_cons_self hpart

theorem ToLineEnd.eq_nil (h : ToLineEnd [] rest) : rest = [] := by
  rcases h with ⟨line, -, heq⟩ | ⟨-, hrest⟩
  · cases line <;> cases heq
  · exact hrest

theorem ToLineEnd.fence_iff (h : ToLineEnd part rest) :
    BlockString.fence <+: part ++ rest ↔ BlockString.fence <+: part := by
  refine ⟨fun hfence => ?_, fun hfence => hfence.trans (List.prefix_append part rest)⟩
  rcases h with ⟨line, -, rfl⟩ | ⟨-, rfl⟩
  · rcases List.prefix_or_prefix_of_prefix hfence (List.prefix_append _ rest) with hpre | hpre
    · exact hpre
    · have hmem : '\n' ∈ BlockString.fence := hpre.subset (by simp)
      exact absurd hmem (by decide)
  · simpa using hfence

theorem ne_lineFeed_of_isBlank {c : Char} (h : isBlank c = true) : c ≠ '\n' := by
  rintro rfl
  exact absurd h (by decide)

theorem ToLineEnd.unindent_append (h : ToLineEnd part rest) :
    unindent (part ++ rest) = unindent part ++ rest := by
  induction part with
  | nil =>
    rw [h.eq_nil]
    rfl
  | cons c part ih =>
    rw [unindent, unindent, List.cons_append]
    cases hc : isBlank c with
    | false =>
      rw [List.dropWhile_cons_of_neg (by simp [hc]), List.dropWhile_cons_of_neg (by simp [hc])]
      rfl
    | true =>
      rw [List.dropWhile_cons_of_pos hc, List.dropWhile_cons_of_pos hc]
      exact ih (h.tail (ne_lineFeed_of_isBlank hc))

theorem ToLineEnd.unindent (h : ToLineEnd part rest) : ToLineEnd (unindent part) rest := by
  induction part with
  | nil => exact h
  | cons c part ih =>
    rw [Stripping.unindent]
    cases hc : isBlank c with
    | false => rwa [List.dropWhile_cons_of_neg (by simp [hc])]
    | true =>
      rw [List.dropWhile_cons_of_pos hc]
      exact ih (h.tail (ne_lineFeed_of_isBlank hc))

/-! ### What a line shows -/

theorem ToLineEnd.afterOpening (h : ToLineEnd part rest) :
    afterOpening (part ++ rest) = (afterOpening part).map (· ++ rest) := by
  cases ho : Stripping.afterOpening part with
  | none =>
    rw [Option.map_none, afterOpening_eq_none_iff, h.unindent_append, h.unindent.fence_iff]
    exact afterOpening_eq_none_iff.mp ho
  | some text =>
    rw [Option.map_some, afterOpening_eq_some_iff, h.unindent_append,
      afterOpening_eq_some_iff.mp ho, List.append_assoc]

/-- **On a line the first triple quote that no backslash escapes is the one that closes.** -/
theorem ToLineEnd.closingOnLine (h : ToLineEnd part rest) :
    closingOnLine (part ++ rest) = (afterClosing part).map (· ++ rest) := by
  induction part using afterClosing.induct with
  | case1 text ih =>
    exact ih (h.of_suffix (c := '"') (by decide) ⟨['\\', '"', '"'], rfl⟩)
  | case2 text => rfl
  | case3 c text h₁ h₂ ih =>
    rw [afterClosing.eq_3 c text h₁ h₂]
    by_cases hc : c = '\n'
    · subst hc
      rw [h.eq_nil_of_lineFeed]
      rfl
    · have hfence : ¬ BlockString.fence <+: c :: (text ++ rest) := by
        rw [← List.cons_append, h.fence_iff]
        rintro ⟨after, heq⟩
        exact h₂ after (List.cons.inj heq).1.symm (List.cons.inj heq).2.symm
      have hescape : c = '\\' → ¬ BlockString.fence <+: text ++ rest := by
        intro hb
        rw [(h.tail hc).fence_iff]
        rintro ⟨after, heq⟩
        exact h₁ after hb heq.symm
      rw [List.cons_append, closingOnLine_cons hc hfence hescape, ih (h.tail hc)]
  | case4 =>
    rw [h.eq_nil]
    rfl

end

/-! ### What the parts of the patterns match -/

theorem ends_fence_seq (q : Pattern) (atLineStart : Bool) (text : List Char) :
    (Pattern.seq fence q).ends ⟨atLineStart, BlockString.fence ++ text⟩ = q.ends ⟨false, text⟩ := by
  have hfence : fence.ends ⟨atLineStart, BlockString.fence ++ text⟩ = [⟨false, text⟩] := rfl
  rw [ends_seq, hfence, List.flatMap_singleton]

theorem ends_fence_seq_of_not_prefix (q : Pattern) {c : Cursor}
    (h : ¬ BlockString.fence <+: c.rest) : (Pattern.seq fence q).ends c = [] := by
  have hfence : fence.ends c = [] := List.eq_nil_iff_forall_not_mem.mpr fun d hd =>
    h ⟨d.rest, (mem_ends_fence.mp hd).1.symm⟩
  rw [ends_seq, hfence, List.flatMap_nil]

theorem ends_opening (q : Pattern) (atLineStart : Bool) (text : List Char) :
    (Pattern.seq blanks (.seq fence q)).ends ⟨atLineStart, text⟩ =
      (afterOpening text).elim [] fun after => q.ends ⟨false, after⟩ := by
  have hblank : ∀ atLineStart x rest, isBlank x = true →
      (Pattern.seq fence q).ends ⟨atLineStart, x :: rest⟩ = [] := by
    intro atLineStart x rest hx
    refine ends_fence_seq_of_not_prefix q (not_fence_of_head ?_)
    rintro ⟨⟩
    exact absurd hx (by decide)
  obtain ⟨after, hafter⟩ := ends_run_seq hblank atLineStart text
  refine Eq.trans hafter ?_
  cases ho : afterOpening text with
  | none => exact ends_fence_seq_of_not_prefix q (afterOpening_eq_none_iff.mp ho)
  | some opened =>
    have hfence : text.dropWhile isBlank = BlockString.fence ++ opened :=
      afterOpening_eq_some_iff.mp ho
    rw [hfence, ends_fence_seq, Option.elim_some]

theorem endsHere_iff {part : List Char} :
    endsHere part = true ↔
      unindent part = [] ∨ unindent part = ['\n'] ∨ unindent part = ['\r', '\n'] := by
  rw [endsHere]
  split <;> simp_all

theorem ends_lineBreak_of_ne {c : Char} (hl : c ≠ '\n') (atLineStart : Bool) (text : List Char)
    (hr : c = '\r' → text.head? ≠ some '\n') : lineBreak.ends ⟨atLineStart, c :: text⟩ = [] := by
  by_cases hc : c = '\r'
  · subst hc
    cases text with
    | nil => rfl
    | cons d text =>
      have hd : d ≠ '\n' := by simpa using hr rfl
      simp [lineBreak, Pattern.optional, Pattern.char, ends, hd]
  · simp [lineBreak, Pattern.optional, Pattern.char, ends, hc, hl]

/-- The end of a line is a line feed, a carriage return and a line feed, or the end of the text. -/
theorem afterMatch_lineBreak {part rest : List Char} (h : ToLineEnd part rest)
    (atLineStart : Bool) : afterMatch lineBreak ⟨atLineStart, part ++ rest⟩ =
      if part = [] ∨ part = ['\n'] ∨ part = ['\r', '\n'] then some rest else none := by
  cases part with
  | nil =>
    rw [h.eq_nil]
    rfl
  | cons c part =>
    by_cases hl : c = '\n'
    · subst hl
      rw [h.eq_nil_of_lineFeed]
      rfl
    have hpart := h.tail hl
    by_cases hr : c = '\r' ∧ (part ++ rest).head? = some '\n'
    · obtain ⟨rfl, hhead⟩ := hr
      cases part with
      | nil =>
        rw [hpart.eq_nil] at hhead
        cases hhead
      | cons d part =>
        obtain rfl : d = '\n' := Option.some_inj.mp hhead
        rw [hpart.eq_nil_of_lineFeed]
        rfl
    · have hnone : ¬ (c :: part = [] ∨ c :: part = ['\n'] ∨ c :: part = ['\r', '\n']) := by
        rintro (heq | heq | heq)
        · cases heq
        · exact hl (List.cons.inj heq).1
        · exact hr ⟨(List.cons.inj heq).1, by rw [(List.cons.inj heq).2]; rfl⟩
      rw [if_neg hnone, List.cons_append, afterMatch,
        ends_lineBreak_of_ne hl atLineStart _ fun hc hhead => hr ⟨hc, hhead⟩]
      rfl

theorem afterMatch_ending {part rest : List Char} (h : ToLineEnd part rest) (atLineStart : Bool) :
    afterMatch (.seq blanks lineBreak) ⟨atLineStart, part ++ rest⟩ =
      if endsHere part then some rest else none := by
  have hblank : ∀ atLineStart x rest, isBlank x = true →
      lineBreak.ends ⟨atLineStart, x :: rest⟩ = [] := by
    intro atLineStart x rest hx
    obtain rfl | rfl : x = ' ' ∨ x = '\t' := by simpa [isBlank] using hx
    all_goals rfl
  obtain ⟨after, hafter⟩ := ends_run_seq hblank atLineStart (part ++ rest)
  have hbreak : afterMatch (.seq blanks lineBreak) ⟨atLineStart, part ++ rest⟩ =
      afterMatch lineBreak ⟨after, unindent (part ++ rest)⟩ :=
    congrArg (fun ends => ends.head?.map Cursor.rest) hafter
  rw [hbreak, h.unindent_append, afterMatch_lineBreak h.unindent]
  exact if_congr endsHere_iff.symm rfl rfl

/-! ### The first pattern -/

theorem isWholeBlock_eq (line : List Char) :
    isWholeBlock line = ((afterOpening line).bind afterClosing).elim false endsHere := by
  rw [isWholeBlock]
  cases h : (afterOpening line).bind afterClosing with
  | none => simp [h]
  | some rest => simp [h]

/-- **At the start of a line the first pattern matches the line if it holds one whole block string
and nothing else.** -/
theorem afterMatch_wholeBlock {line rest : List Char} (h : ToLineEnd line rest) :
    afterMatch wholeBlock ⟨true, line ++ rest⟩ =
      if isWholeBlock line then some rest else none := by
  have hopening : wholeBlock.ends ⟨true, line ++ rest⟩ =
      (afterOpening (line ++ rest)).elim [] fun opened =>
        (Pattern.seq (.many false contentPart) (.seq fence (.seq blanks lineBreak))).ends
          ⟨false, opened⟩ := by
    have hstart : wholeBlock.ends ⟨true, line ++ rest⟩ =
        [⟨true, line ++ rest⟩].flatMap (Pattern.seq blanks (.seq fence (.seq
          (.many false contentPart) (.seq fence (.seq blanks lineBreak))))).ends := rfl
    rw [hstart, List.flatMap_singleton, ends_opening]
  rw [afterMatch, hopening, isWholeBlock_eq, h.afterOpening]
  cases ho : afterOpening line with
  | none => rfl
  | some opened =>
    have hrest : ToLineEnd opened rest := h.of_suffix (by decide) (suffix_of_afterOpening ho)
    rw [Option.map_some, Option.elim_some, Option.bind_some]
    refine (afterMatch_closed _ (opened ++ rest)).trans ?_
    rw [hrest.closingOnLine]
    cases hc : afterClosing opened with
    | none => rfl
    | some closed =>
      have hclosed : ToLineEnd closed rest :=
        hrest.of_suffix (by decide) (suffix_of_afterClosing hc)
      rw [Option.map_some, Option.bind_some, Option.elim_some]
      exact afterMatch_ending hclosed false

theorem afterMatch_wholeBlock_inside (text : List Char) :
    afterMatch wholeBlock ⟨false, text⟩ = none := rfl

/-- **The first pattern removes the lines that hold one whole block string.** -/
theorem removeAll_wholeBlock {ls : List (List Char)} (h : Cut ls) :
    wholeBlock.removeAll ls.flatten = (ls.filter (!isWholeBlock ·)).flatten := by
  rw [removeAll]
  induction ls with
  | nil => rfl
  | cons l ls ih =>
    have hmatch := afterMatch_wholeBlock (toLineEnd_of_cut h)
    rw [← List.flatten_cons] at hmatch
    cases hw : isWholeBlock l with
    | true =>
      rw [hw, if_pos rfl] at hmatch
      rw [removeFrom_lines h 0 hmatch, List.drop_zero, ih h.tail,
        List.filter_cons_of_neg (by simp [hw])]
    | false =>
      rw [hw, if_neg (by decide)] at hmatch
      rw [removeFrom_line afterMatch_wholeBlock_inside h hmatch, ih h.tail,
        List.filter_cons_of_pos (by simp [hw]), List.flatten_cons]

/-! ### The second pattern -/

/-- A line that holds only a triple quote. -/
def closingLine : Pattern := .seq blanks (.seq fence (.seq blanks lineBreak))

/-- What the second pattern matches behind the line feed of the opening line. -/
def toClosing : Pattern := .seq (.many true (.seq lineContent (char '\n'))) closingLine

theorem afterMatch_closingLine {line rest : List Char} (h : ToLineEnd line rest)
    (atLineStart : Bool) : afterMatch closingLine ⟨atLineStart, line ++ rest⟩ =
      if isClosing line then some rest else none := by
  rw [afterMatch, closingLine, ends_opening, h.afterOpening, isClosing]
  cases ho : afterOpening line with
  | none => rfl
  | some opened =>
    have hrest : ToLineEnd opened rest := h.of_suffix (by decide) (suffix_of_afterOpening ho)
    exact afterMatch_ending hrest false

theorem ends_line_eq (atLineStart : Bool) (text : List Char) :
    ∃ after, (Pattern.seq lineContent (char '\n')).ends ⟨atLineStart, text⟩ =
      (char '\n').ends ⟨after, text.dropWhile (· != '\n')⟩ := by
  refine ends_run_seq (fun atLineStart x rest hx => ?_) atLineStart text
  simp [char, ends_one_cons, bne_iff_ne.mp hx]

theorem ends_line {line : List Char} (h : '\n' ∉ line) (atLineStart : Bool) (rest : List Char) :
    (Pattern.seq lineContent (char '\n')).ends ⟨atLineStart, line ++ '\n' :: rest⟩ =
      [⟨true, rest⟩] := by
  obtain ⟨after, hafter⟩ := ends_line_eq atLineStart (line ++ '\n' :: rest)
  rw [hafter, List.dropWhile_append_of_pos fun c hc => by simpa using ne_of_mem_of_not_mem hc h]
  rfl

theorem ends_line_last {line : List Char} (h : '\n' ∉ line) (atLineStart : Bool) :
    (Pattern.seq lineContent (char '\n')).ends ⟨atLineStart, line⟩ = [] := by
  obtain ⟨after, hafter⟩ := ends_line_eq atLineStart line
  have hline : line.dropWhile (· != '\n') = [] :=
    List.dropWhile_eq_nil_iff.mpr fun c hc => by simpa using ne_of_mem_of_not_mem hc h
  rw [hafter, hline]
  rfl

/-- **The lines up to the first closing line are matched**, if there is one. -/
theorem afterMatch_toClosing {ls : List (List Char)} (h : Cut ls) :
    afterMatch toClosing ⟨true, ls.flatten⟩ =
      (ls.findIdx? isClosing).map fun k => (ls.drop (k + 1)).flatten := by
  induction ls with
  | nil => rfl
  | cons l ls ih =>
    rw [toClosing, afterMatch_reluctant, List.flatten_cons,
      afterMatch_closingLine (toLineEnd_of_cut h), List.findIdx?_cons]
    cases hc : isClosing l with
    | true => rfl
    | false =>
      rw [if_neg (by decide), if_neg (by decide), Option.none_or]
      rcases h.head with ⟨line, hline, rfl⟩ | ⟨hl, -, rfl⟩
      · have hshorter : ls.flatten.length < (line ++ '\n' :: ls.flatten).length := by
          rw [List.length_append, List.length_cons]
          omega
        rw [List.append_assoc, List.singleton_append, ends_line hline,
          List.filter_cons_of_pos (by simpa using hshorter), List.filter_nil,
          List.findSome?_singleton, Option.map_map]
        exact ih h.tail
      · rw [List.flatten_nil, List.append_nil, ends_line_last hl]
        rfl

/-- **At the start of a line the second pattern matches an opening line and what stands up to the
first closing line behind it.** -/
theorem afterMatch_spreadBlock {l : List Char} {ls : List (List Char)} (h : Cut (l :: ls)) :
    afterMatch spreadBlock ⟨true, (l :: ls).flatten⟩ =
      if isOpening l then (ls.findIdx? isClosing).map fun k => (ls.drop (k + 1)).flatten
      else none := by
  have hopening : spreadBlock.ends ⟨true, (l :: ls).flatten⟩ =
      (afterOpening (l :: ls).flatten).elim [] fun opened =>
        (Pattern.seq (.seq lineContent (char '\n')) toClosing).ends ⟨false, opened⟩ := by
    have hstart : spreadBlock.ends ⟨true, (l :: ls).flatten⟩ =
        [⟨true, (l :: ls).flatten⟩].flatMap (Pattern.seq blanks (.seq fence (.seq lineContent
          (.seq (char '\n') toClosing)))).ends := rfl
    simp only [hstart, List.flatMap_singleton, ends_opening]
    exact congrArg _ (funext fun opened => ends_seq_assoc _ _ _ _)
  have hend := toLineEnd_of_cut h
  rw [afterMatch, hopening, List.flatten_cons, hend.afterOpening, isOpening]
  cases ho : afterOpening l with
  | none => rfl
  | some opened =>
    have hsuffix := suffix_of_afterOpening ho
    have hlast : l.getLast? = ('"' :: opened).getLast? := by
      obtain ⟨before, rfl⟩ := hsuffix
      exact List.getLast?_append_of_ne_nil before (List.cons_ne_nil _ _)
    rw [Option.map_some, Option.elim_some, Option.isSome_some, Bool.true_and, hlast]
    rcases hend.of_suffix (by decide) hsuffix with ⟨line, hline, rfl⟩ | ⟨hopened, hrest⟩
    · rw [← List.cons_append, List.getLast?_concat, if_pos (by simp), ends_seq, List.append_assoc,
        List.singleton_append, ends_line hline, List.flatMap_singleton]
      exact afterMatch_toClosing h.tail
    · have hopen : (('"' :: opened).getLast? == some '\n') = false := by
        rw [beq_eq_false_iff_ne]
        intro heq
        rcases List.mem_cons.mp (List.mem_of_getLast? heq) with hq | hm
        · exact absurd hq (by decide)
        · exact hopened hm
      rw [hopen, if_neg (by decide), hrest, List.append_nil, ends_seq, ends_line_last hopened]
      rfl

theorem afterMatch_spreadBlock_inside (text : List Char) :
    afterMatch spreadBlock ⟨false, text⟩ = none := rfl

/-- **The second pattern removes the blocks among the lines.** -/
theorem removeAll_spreadBlock (n : Nat) {ls : List (List Char)} (h : Cut ls) :
    spreadBlock.removeAll (ls.drop n).flatten = (withoutBlocks n ls).flatten := by
  rw [removeAll]
  -- The induction follows the second pass, which goes on behind the lines that the pattern matches.
  induction n, ls using withoutBlocks.induct with
  | case1 n =>
    rw [List.drop_nil, withoutBlocks]
    rfl
  | case2 n line rest ih =>
    rw [List.drop_succ_cons, withoutBlocks]
    exact ih h.tail
  | case3 line rest ho k hk ih =>
    have hmatch := afterMatch_spreadBlock h
    rw [if_pos ho, hk, Option.map_some] at hmatch
    rw [List.drop_zero, removeFrom_lines h (k + 1) hmatch, withoutBlocks, if_pos ho, hk]
    exact ih h.tail
  | case4 line rest ho hk ih =>
    have hmatch := afterMatch_spreadBlock h
    rw [if_pos ho, hk, Option.map_none] at hmatch
    rw [List.drop_zero, removeFrom_line afterMatch_spreadBlock_inside h hmatch, withoutBlocks,
      if_pos ho, hk, List.flatten_cons]
    exact congrArg (line ++ ·) (ih h.tail)
  | case5 line rest ho ih =>
    have hmatch := afterMatch_spreadBlock h
    rw [if_neg ho] at hmatch
    rw [List.drop_zero, removeFrom_line afterMatch_spreadBlock_inside h hmatch, withoutBlocks,
      if_neg ho, List.flatten_cons]
    exact congrArg (line ++ ·) (ih h.tail)

/-! ### Both patterns -/

/-- **Removing what the patterns match is stripping.** -/
theorem removeDescriptions_eq_strip (text : List Char) : removeDescriptions text = strip text := by
  have hwhole : wholeBlock.removeAll text = ((lines text).filter (!isWholeBlock ·)).flatten := by
    have := removeAll_wholeBlock (cut_lines text)
    rwa [Text.flatten_lines] at this
  have hcut : Cut ((lines text).filter (!isWholeBlock ·)) :=
    (cut_lines text).sublist List.filter_sublist
  calc removeDescriptions text
    _ = spreadBlock.removeAll ((lines text).filter (!isWholeBlock ·)).flatten := by
      rw [removeDescriptions, hwhole]
    _ = strip text := removeAll_spreadBlock 0 hcut

end IntrospectSdl.Proofs.Patterns.Descriptions
