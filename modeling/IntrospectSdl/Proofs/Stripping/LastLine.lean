import IntrospectSdl.Text.Blank
import IntrospectSdl.Proofs.Stripping.Progress

/-! # Stripping: the last line

Both passes remove whole lines up to one that ends a block. A last line that ends none is never
removed (`getLast?_withoutBlocks`), and so a text that ends with such a line still does when it is
stripped (`EndsFirmly.getLast?_strip_ne`). Two kinds of lines end no block: those that do not begin
with a triple quote (`Firm.of_head`), and those that end with something in which there are no quotes
(`Firm.of_tail`). -/

namespace IntrospectSdl.Proofs.Stripping.LastLine

open IntrospectSdl.Text (isWhiteSpace lines)
open IntrospectSdl.Sdl IntrospectSdl.Sdl.Stripping
open IntrospectSdl.Proofs.Lines IntrospectSdl.Proofs.Stripping.Description
open IntrospectSdl.Proofs.Stripping.Progress

/-! ### Lines that end no block -/

/-- A line that is not empty, has no line feed, and does not end a block. -/
structure Firm (line : List Char) : Prop where
  lineFeed : '\n' ∉ line
  nonempty : line ≠ []
  whole : isWholeBlock line = false
  closing : isClosing line = false

theorem Firm.of_afterOpening {line : List Char} (hl : '\n' ∉ line) (hne : line ≠ [])
    (h : afterOpening line = none) : Firm line :=
  ⟨hl, hne, isWholeBlock_of_afterOpening h, isClosing_of_afterOpening h⟩

theorem Firm.of_head {c : Char} {rest : List Char} (hl : '\n' ∉ c :: rest) (hb : isBlank c = false)
    (hq : c ≠ '"') : Firm (c :: rest) :=
  .of_afterOpening hl (List.cons_ne_nil c rest) (afterOpening_cons hb hq rest)

theorem suffix_of_afterOpening {line rest : List Char} (h : afterOpening line = some rest) :
    '"' :: rest <:+ line := by
  have hsuffix : unindent line <:+ line := List.dropWhile_suffix isBlank
  rw [afterOpening_eq_some_iff.mp h] at hsuffix
  exact List.IsSuffix.trans ⟨['"', '"'], rfl⟩ hsuffix

theorem suffix_of_afterClosing {text rest : List Char} (h : afterClosing text = some rest) :
    '"' :: rest <:+ text := by
  induction text using afterClosing.induct with
  | case1 text ih =>
    exact (ih h).trans ⟨['\\', '"', '"', '"'], rfl⟩
  | case2 text =>
    obtain rfl : text = rest := Option.some_inj.mp h
    exact ⟨['"', '"'], rfl⟩
  | case3 c text h₁ h₂ ih =>
    rw [afterClosing.eq_3 c text h₁ h₂] at h
    exact (ih h).trans (List.suffix_cons c text)
  | case4 => cases h

theorem suffix_of_quote {tail rest text : List Char} (hq : '"' ∉ tail) (ht : tail <:+ text)
    (hr : '"' :: rest <:+ text) : tail <:+ rest := by
  rcases List.suffix_or_suffix_of_suffix hr ht with h | h
  · exact absurd (h.subset List.mem_cons_self) hq
  · rcases List.suffix_cons_iff.mp h with rfl | h
    · exact absurd List.mem_cons_self hq
    · exact h

theorem isWhiteSpace_of_endsHere {rest : List Char} (h : endsHere rest = true) :
    ∀ c ∈ rest, isWhiteSpace c = true := by
  have hblank : ∀ c ∈ rest.takeWhile isBlank, isWhiteSpace c = true := fun c hc => by
    have := List.all_eq_true.mp List.all_takeWhile c hc
    simp only [isBlank, Bool.or_eq_true, decide_eq_true_eq] at this
    rcases this with rfl | rfl <;> rfl
  have hend : ∀ c ∈ unindent rest, isWhiteSpace c = true := by
    rw [endsHere] at h
    split at h
    · next heq => simp [heq]
    · next heq => simp [heq, isWhiteSpace]
    · next heq => simp [heq, isWhiteSpace]
    · cases h
  intro c hc
  rw [← List.takeWhile_append_dropWhile (p := isBlank) (l := rest), List.mem_append] at hc
  exact hc.elim (hblank c) (hend c)

theorem Firm.of_tail {line tail : List Char} (hl : '\n' ∉ line) (ht : tail <:+ line)
    (hq : '"' ∉ tail) {c : Char} (hc : c ∈ tail) (hw : isWhiteSpace c = false) : Firm line := by
  have goesOn : ∀ rest, tail <:+ rest → endsHere rest = false := fun rest h => by
    rw [Bool.eq_false_iff]
    intro he
    rw [isWhiteSpace_of_endsHere he c (h.subset hc)] at hw
    cases hw
  refine ⟨hl, List.ne_nil_of_mem (ht.subset hc), ?_, ?_⟩
  · rw [isWholeBlock]
    split
    · next rest h =>
      obtain ⟨opened, ho, hr⟩ := Option.bind_eq_some_iff.mp h
      have htail := suffix_of_quote hq ht (suffix_of_afterOpening ho)
      exact goesOn rest (suffix_of_quote hq htail (suffix_of_afterClosing hr))
    · rfl
  · rw [isClosing]
    split
    · next rest ho => exact goesOn rest (suffix_of_quote hq ht (suffix_of_afterOpening ho))
    · rfl

/-! ### The last of the lines that are kept -/

theorem getLast?_kept {line last : List Char} {rest : List (List Char)}
    (hlast : (line :: rest).getLast? = some last)
    (h : rest.getLast? = some last → 0 < rest.length →
      (withoutBlocks 0 rest).getLast? = some last) :
    (line :: withoutBlocks 0 rest).getLast? = some last := by
  cases rest with
  | nil => exact hlast
  | cons next rest =>
    rw [List.getLast?_cons_cons] at hlast
    rw [List.getLast?_cons, h hlast (Nat.succ_pos _)]
    rfl

/-- **A last line that closes no block is kept**, even where it is not looked at for some lines. -/
theorem getLast?_withoutBlocks {n : Nat} {ls : List (List Char)} {last : List Char}
    (hlast : ls.getLast? = some last) (hn : n < ls.length) (hc : isClosing last = false) :
    (withoutBlocks n ls).getLast? = some last := by
  -- The induction follows the second pass, which drops lines, looks at one, or jumps behind a
  -- block.
  induction n, ls using withoutBlocks.induct with
  | case1 n => cases hn
  | case2 n line rest ih =>
    rw [List.length_cons, Nat.succ_lt_succ_iff] at hn
    rw [withoutBlocks]
    exact ih (by rwa [List.getLast?_cons_of_ne_nil (List.ne_nil_of_length_pos (by omega))] at hlast)
      hn
  | case3 line rest ho k hk ih =>
    obtain ⟨hkl, hclosing, -⟩ := List.findIdx?_eq_some_iff_getElem.mp hk
    have hrest : rest ≠ [] := List.ne_nil_of_length_pos (by omega)
    rw [List.getLast?_cons_of_ne_nil hrest] at hlast
    -- The line that closes is not the last one, so lines are left behind it.
    have hne : k + 1 ≠ rest.length := fun heq => by
      have hget : rest[k] = last := by
        rw [List.getLast?_eq_getElem?, ← heq, Nat.add_sub_cancel, List.getElem?_eq_getElem hkl,
          Option.some_inj] at hlast
        exact hlast
      rw [hget, hc] at hclosing
      cases hclosing
    rw [withoutBlocks, if_pos ho, hk]
    exact ih hlast (by omega)
  | case4 line rest ho hk ih =>
    rw [withoutBlocks, if_pos ho, hk]
    exact getLast?_kept hlast ih
  | case5 line rest ho ih =>
    rw [withoutBlocks, if_neg ho]
    exact getLast?_kept hlast ih

/-! ### Texts with a firm end -/

/-- A text whose last line ends no block. -/
def EndsFirmly (text : List Char) : Prop :=
  ∃ line, Firm line ∧ (text = line ∨ ∃ before, text = before ++ '\n' :: line)

theorem Firm.endsFirmly {line : List Char} (h : Firm line) : EndsFirmly line :=
  ⟨line, h, .inl rfl⟩

/-- What stands on the lines before does not matter. -/
theorem EndsFirmly.after {text : List Char} (h : EndsFirmly text) (before : List Char) :
    EndsFirmly (before ++ '\n' :: text) := by
  obtain ⟨line, hfirm, rfl | ⟨between, rfl⟩⟩ := h
  · exact ⟨text, hfirm, .inr ⟨before, rfl⟩⟩
  · exact ⟨line, hfirm, .inr ⟨before ++ '\n' :: between, by simp⟩⟩

theorem endsFirmly_append {tail : List Char} (hl : '\n' ∉ tail) (hq : '"' ∉ tail) {c : Char}
    (hc : c ∈ tail) (hw : isWhiteSpace c = false) (text : List Char) :
    EndsFirmly (text ++ tail) := by
  by_cases hbreak : '\n' ∈ text.reverse
  · obtain ⟨after, before, heq, hafter⟩ := List.eq_append_cons_of_mem hbreak
    have htext : text = before.reverse ++ '\n' :: after.reverse := by
      rw [← List.reverse_reverse text, heq]
      simp
    have hline : '\n' ∉ after.reverse ++ tail := by simp [hafter, hl]
    rw [htext, List.append_assoc, List.cons_append]
    exact (Firm.of_tail hline (List.suffix_append _ _) hq hc hw).endsFirmly.after _
  · have hline : '\n' ∉ text ++ tail := by simpa [hl] using hbreak
    exact (Firm.of_tail hline (List.suffix_append _ _) hq hc hw).endsFirmly

theorem Firm.getLast?_ne {line text : List Char} (h : Firm line) (hs : line <:+ text) :
    text.getLast? ≠ some '\n' := by
  obtain ⟨before, rfl⟩ := hs
  rw [List.getLast?_append_of_ne_nil before h.nonempty]
  exact fun hlast => h.lineFeed (List.mem_of_getLast? hlast)

theorem EndsFirmly.getLast?_ne {text : List Char} (h : EndsFirmly text) :
    text.getLast? ≠ some '\n' := by
  obtain ⟨line, hfirm, rfl | ⟨before, rfl⟩⟩ := h
  · exact hfirm.getLast?_ne (List.suffix_refl text)
  · exact hfirm.getLast?_ne ((List.suffix_cons _ line).trans (List.suffix_append before _))

theorem EndsFirmly.getLast?_lines {text : List Char} (h : EndsFirmly text) :
    ∃ line, Firm line ∧ (lines text).getLast? = some line := by
  obtain ⟨line, hfirm, heq⟩ := h
  refine ⟨line, hfirm, ?_⟩
  have hline := lines_of_not_mem hfirm.lineFeed hfirm.nonempty
  rcases heq with rfl | ⟨before, rfl⟩
  · rw [hline]
    rfl
  · have hbefore := joinLines_lineFeed (splitLines_ne_nil before)
    rw [joinLines_splitLines] at hbefore
    rw [List.append_cons, hbefore, lines_flatMap _ (fun _ => not_mem_of_mem_splitLines), hline,
      List.getLast?_concat]

/-- **A text with a firm end is stripped to one that does not end with a line feed.** -/
theorem EndsFirmly.getLast?_strip_ne {text : List Char} (h : EndsFirmly text) :
    (strip text).getLast? ≠ some '\n' := by
  obtain ⟨line, hfirm, hlast⟩ := h.getLast?_lines
  have hfilter : ((lines text).filter (!isWholeBlock ·)).getLast? = some line := by
    obtain ⟨before, hlines⟩ := List.getLast?_eq_some_iff.mp hlast
    rw [hlines, List.filter_append, List.filter_cons_of_pos (by simp [hfirm.whole])]
    exact List.getLast?_concat
  have hkept := getLast?_withoutBlocks hfilter
    (List.length_pos_of_ne_nil (List.ne_nil_of_mem (List.mem_of_getLast? hfilter))) hfirm.closing
  obtain ⟨before, hbefore⟩ := List.getLast?_eq_some_iff.mp hkept
  refine hfirm.getLast?_ne ⟨before.flatten, ?_⟩
  rw [strip_eq, hbefore, List.flatten_append, List.flatten_singleton]

end IntrospectSdl.Proofs.Stripping.LastLine
