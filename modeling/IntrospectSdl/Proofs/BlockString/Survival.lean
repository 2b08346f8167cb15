import Mathlib.Data.List.DropRight
import IntrospectSdl.Proofs.BlockString.Layout

/-! # Block strings: which descriptions are read back

A reader of a block takes the text up to the closing quotes, drops the backslashes of escaped
quotes, takes from all lines but the first the indentation that they share, and drops the blank
lines at either end (`readBlock`). Of a printed description it sees the layout, and that comes down
to the lines of the text without their common indentation and without blank lines at the ends
(`blockValue_of_spread`, `blockValue_of_single`). So a description survives if nothing is taken from
it (`Survives`). -/

namespace IntrospectSdl.Proofs.BlockString.Survival

open IntrospectSdl.Text IntrospectSdl.Sdl IntrospectSdl.Sdl.BlockString
open IntrospectSdl.Proofs.Lines IntrospectSdl.Proofs.BlockString.Fences
open IntrospectSdl.Proofs.BlockString.Indentation IntrospectSdl.Proofs.BlockString.Layout

/-! ### The reader -/

/-- A line of spaces and tabulations only. -/
def isBlankLine (line : List Char) : Bool := line.all isIndent

/-- How many spaces and tabulations a line begins with. -/
def leadingBlanks (line : List Char) : Nat := (line.takeWhile isIndent).length

/-- The indentation that the lines share, leaving aside those that are blank. -/
def commonIndent (ls : List (List Char)) : Nat :=
  ((ls.filter (!isBlankLine ·)).map leadingBlanks).min?.getD 0

/-- All lines but the first without the indentation that they share. -/
def dedent : List (List Char) → List (List Char)
  | [] => []
  | first :: rest => first :: rest.map (·.drop (commonIndent rest))

/-- The lines without the blank ones at either end. -/
def trimBlankLines (ls : List (List Char)) : List (List Char) :=
  (ls.dropWhile isBlankLine).rdropWhile isBlankLine

/-- The value of a block, from what stands between its quotes. -/
def blockValue (raw : List Char) : List Char :=
  joinLines (trimBlankLines (dedent (splitLines (unescapeFences raw))))

/-- The value of the block at the beginning of a text, and what follows the block. -/
def readBlock : List Char → Option (List Char × List Char)
  | '"' :: '"' :: '"' :: rest => (splitAtFence rest).map fun r => (blockValue r.1, r.2)
  | _ => none

/-- The descriptions that a reader of their block gets back: the empty one, single lines that are
not blank, and several lines of which the first and the last are not blank and some line that is
not blank begins with neither space nor tabulation. -/
def Survives (text : List Char) : Prop :=
  text = [] ∨ ('\n' ∉ text ∧ isBlankLine text = false) ∨
    ('\n' ∈ text ∧ (∀ l ∈ (splitLines text).head?, isBlankLine l = false) ∧
      (∀ l ∈ (splitLines text).getLast?, isBlankLine l = false) ∧
      ∃ l ∈ splitLines text, isBlankLine l = false ∧ isIndented l = false)

/-! ### Blank lines at the ends -/

theorem trimBlankLines_sublist (ls : List (List Char)) : (trimBlankLines ls).Sublist ls :=
  (List.rdropWhile_prefix _ _).sublist.trans (List.dropWhile_sublist _)

theorem trimBlankLines_cons {b : List Char} (hb : isBlankLine b = true) (ls : List (List Char)) :
    trimBlankLines (b :: ls) = trimBlankLines ls := by
  rw [trimBlankLines, List.dropWhile_cons_of_pos hb, trimBlankLines]

theorem trimBlankLines_concat {b : List Char} (hb : isBlankLine b = true) (ls : List (List Char)) :
    trimBlankLines (ls ++ [b]) = trimBlankLines ls := by
  rw [trimBlankLines, List.dropWhile_append, trimBlankLines]
  split_ifs with h
  · rw [List.isEmpty_iff.mp h, List.dropWhile_cons_of_pos hb]
    rfl
  · exact List.rdropWhile_concat_pos _ _ _ hb

theorem trimBlankLines_of_blank {ls : List (List Char)} (h : ∀ l ∈ ls, isBlankLine l = true) :
    trimBlankLines ls = [] := by
  rw [trimBlankLines, List.dropWhile_eq_nil_iff.mpr h]
  rfl

theorem trimBlankLines_eq_self_iff {ls : List (List Char)} : trimBlankLines ls = ls ↔
    (∀ l ∈ ls.head?, isBlankLine l = false) ∧ ∀ l ∈ ls.getLast?, isBlankLine l = false := by
  have key : trimBlankLines ls = ls ↔
      ls.dropWhile isBlankLine = ls ∧ ls.rdropWhile isBlankLine = ls := by
    constructor
    · intro h
      have hd : ls.dropWhile isBlankLine = ls := by
        refine (List.dropWhile_sublist _).eq_of_length_le ?_
        have := (List.rdropWhile_prefix isBlankLine (ls.dropWhile isBlankLine)).length_le
        rwa [← trimBlankLines, h] at this
      exact ⟨hd, by rwa [trimBlankLines, hd] at h⟩
    · rintro ⟨hd, hr⟩
      rw [trimBlankLines, hd, hr]
  rw [key, List.rdropWhile_eq_self_iff]
  refine and_congr ?_ ?_
  · cases ls with
    | nil => simp
    | cons l ls =>
      cases hl : isBlankLine l with
      | false => simp [hl]
      | true =>
        have := (List.dropWhile_sublist (l := ls) isBlankLine).length_le
        simp only [List.dropWhile_cons_of_pos hl, List.head?_cons, Option.mem_some_iff, forall_eq',
          hl, reduceCtorEq, iff_false]
        intro h
        rw [h, List.length_cons] at this
        omega
  · rcases eq_or_ne ls [] with rfl | hne
    · simp
    · simp [List.getLast?_eq_some_getLast hne, hne]

/-! ### The common indentation -/

theorem commonIndent_of_blank {ls : List (List Char)} (h : ∀ l ∈ ls, isBlankLine l = true) :
    commonIndent ls = 0 := by
  have : ls.filter (!isBlankLine ·) = [] := by simpa [List.filter_eq_nil_iff] using h
  rw [commonIndent, this]
  rfl

theorem leadingBlanks_eq_zero_iff {line : List Char} :
    leadingBlanks line = 0 ↔ isIndented line = false := by
  cases line with
  | nil => simp [leadingBlanks, isIndented]
  | cons c line => cases hc : isIndent c <;> simp [leadingBlanks, isIndented, hc]

theorem commonIndent_eq_iff {ls : List (List Char)} {l : List Char} (hl : l ∈ ls)
    (hb : isBlankLine l = false) {n : Nat} : commonIndent ls = n ↔
      (∃ l ∈ ls, isBlankLine l = false ∧ leadingBlanks l = n) ∧
        ∀ l ∈ ls, isBlankLine l = false → n ≤ leadingBlanks l := by
  have hmem : ∀ n, n ∈ (ls.filter (!isBlankLine ·)).map leadingBlanks ↔
      ∃ l ∈ ls, isBlankLine l = false ∧ leadingBlanks l = n := by
    intro n
    simp [and_assoc]
  have hle : (∀ k ∈ (ls.filter (!isBlankLine ·)).map leadingBlanks, n ≤ k) ↔
      ∀ l ∈ ls, isBlankLine l = false → n ≤ leadingBlanks l := by
    rw [List.forall_mem_map]
    simp
  rw [← hmem, ← hle, ← List.min?_eq_some_iff, commonIndent]
  cases hm : ((ls.filter (!isBlankLine ·)).map leadingBlanks).min? with
  | some m => simp
  | none =>
    rw [List.min?_eq_none_iff] at hm
    have := (hmem _).mpr ⟨l, hl, hb, rfl⟩
    simp [hm] at this

theorem commonIndent_eq_zero_iff {ls : List (List Char)} {l : List Char} (hl : l ∈ ls)
    (hb : isBlankLine l = false) : commonIndent ls = 0 ↔
      ∃ l ∈ ls, isBlankLine l = false ∧ isIndented l = false := by
  simp [commonIndent_eq_iff hl hb, leadingBlanks_eq_zero_iff]

section Indented
variable {indent : List Char} (hi : isBlankLine indent = true)
include hi

theorem isBlankLine_append (line : List Char) :
    isBlankLine (indent ++ line) = isBlankLine line := by
  rw [isBlankLine, List.all_append, ← isBlankLine, hi, Bool.true_and, isBlankLine]

theorem leadingBlanks_append (line : List Char) :
    leadingBlanks (indent ++ line) = indent.length + leadingBlanks line := by
  rw [leadingBlanks, List.takeWhile_append_of_pos (List.all_eq_true.mp hi), List.length_append,
    leadingBlanks]

theorem commonIndent_map_append {ls : List (List Char)} {l : List Char} (hl : l ∈ ls)
    (hb : isBlankLine l = false) :
    commonIndent (ls.map (indent ++ ·) ++ [indent]) = indent.length + commonIndent ls := by
  obtain ⟨⟨m, hm, hmb, hmn⟩, hmin⟩ := (commonIndent_eq_iff hl hb).mp rfl
  have hl' : indent ++ l ∈ ls.map (indent ++ ·) ++ [indent] :=
    List.mem_append_left _ (List.mem_map_of_mem hl)
  rw [commonIndent_eq_iff hl' (by rw [isBlankLine_append hi, hb])]
  refine ⟨⟨indent ++ m, List.mem_append_left _ (List.mem_map_of_mem hm), ?_, ?_⟩, ?_⟩
  · rw [isBlankLine_append hi, hmb]
  · rw [leadingBlanks_append hi, hmn]
  · intro x hx hxb
    rcases List.mem_append.mp hx with hx | hx
    · obtain ⟨y, hy, rfl⟩ := List.mem_map.mp hx
      rw [isBlankLine_append hi] at hxb
      rw [leadingBlanks_append hi]
      exact Nat.add_le_add_left (hmin y hy hxb) _
    · rw [List.mem_singleton.mp hx, hi] at hxb
      cases hxb

/-- **What a reader keeps of a text on lines of its own**: its lines without their common
indentation and without the blank ones at either end. -/
theorem trimBlankLines_dedent (ls : List (List Char)) :
    trimBlankLines (dedent ([] :: (ls.map (indent ++ ·) ++ [indent]))) =
      trimBlankLines (ls.map (·.drop (commonIndent ls))) := by
  rw [dedent, trimBlankLines_cons rfl]
  by_cases h : ∀ l ∈ ls, isBlankLine l = true
  · have hall : ∀ l ∈ ls.map (indent ++ ·) ++ [indent], isBlankLine l = true := by
      intro x hx
      rcases List.mem_append.mp hx with hx | hx
      · obtain ⟨y, hy, rfl⟩ := List.mem_map.mp hx
        rw [isBlankLine_append hi, h y hy]
      · rw [List.mem_singleton.mp hx, hi]
    rw [commonIndent_of_blank hall, commonIndent_of_blank h]
    simp only [List.drop_zero, List.map_id']
    rw [trimBlankLines_of_blank hall, trimBlankLines_of_blank h]
  · push Not at h
    obtain ⟨l, hl, hb⟩ := h
    rw [commonIndent_map_append hi hl (Bool.eq_false_iff.mpr hb), List.map_append, List.map_map,
      List.map_singleton, List.drop_eq_nil_of_le (by omega), trimBlankLines_concat rfl]
    congr 1
    refine List.map_congr_left fun x _ => ?_
    rw [Function.comp_apply, List.drop_append, List.drop_eq_nil_of_le (by omega), List.nil_append,
      Nat.add_sub_cancel_left]

end Indented

/-! ### The value of a printed block -/

theorem isBlankLine_spaces (indent : Nat) : isBlankLine (spaces indent) = true :=
  List.all_eq_true.mpr fun c hc => by rw [mem_spaces hc]; rfl

theorem trimBlankLines_singleton (line : List Char) :
    joinLines (trimBlankLines [line]) = if isBlankLine line then [] else line := by
  cases h : isBlankLine line with
  | true => rw [trimBlankLines_cons h]; rfl
  | false => rw [trimBlankLines_eq_self_iff.mpr (by simpa using h)]; simp

theorem blockValue_of_spread {text : List Char} (eq : breaks text = ⟨true, true⟩) (indent : Nat) :
    blockValue (escapeFences (laidOut (spaces indent) text)) =
      joinLines (trimBlankLines ((splitLines text).map
        (·.drop (commonIndent (splitLines text))))) := by
  have hi := lineFeed_not_mem_spaces indent
  rw [blockValue, unescapeFences_escapeFences, laidOut_spread eq, splitLines_append_lineFeed,
    splitLines_lineFeed, splitLines_append hi, splitLines_indentLines hi, splitLines_of_not_mem hi,
    List.cons_append, trimBlankLines_dedent (isBlankLine_spaces indent)]

theorem blockValue_of_single {text : List Char} (h : '\n' ∉ text) (indent : Nat) :
    blockValue (escapeFences (laidOut (spaces indent) text)) =
      if isBlankLine text then [] else text := by
  rw [← trimBlankLines_singleton]
  rcases shape text with ⟨eq, -, -⟩ | ⟨eq, -, -⟩ | ⟨eq, plain⟩
  · rw [blockValue, unescapeFences_escapeFences, laidOut_inline eq h, splitLines_of_not_mem h]
    rfl
  · have hblank : ∀ l ∈ [spaces indent], isBlankLine l = true := by
      simp [isBlankLine_spaces]
    rw [blockValue, unescapeFences_escapeFences, laidOut_hanging eq h, splitLines_append_lineFeed,
      splitLines_of_not_mem h, splitLines_of_not_mem (lineFeed_not_mem_spaces indent),
      List.singleton_append, dedent, commonIndent_of_blank hblank]
    exact congrArg joinLines (trimBlankLines_concat (isBlankLine_spaces indent) [text])
  · have h0 : commonIndent [text] = 0 := by
      cases hb : isBlankLine text with
      | true => exact commonIndent_of_blank (by simpa using hb)
      | false =>
        have hm : text ∈ [text] := List.mem_singleton_self text
        exact (commonIndent_eq_zero_iff hm hb).mpr ⟨text, hm, hb, plain h⟩
    rw [blockValue_of_spread eq, splitLines_of_not_mem h, h0]
    rfl

theorem breaks_of_mem {text : List Char} (h : '\n' ∈ text) : breaks text = ⟨true, true⟩ := by
  rcases shape text with ⟨-, single, -⟩ | ⟨-, single, -⟩ | ⟨eq, -⟩
  · exact absurd h single
  · exact absurd h single
  · exact eq

/-- A text of several lines that is joined from kept lines has them as its lines: no line feed is
lost, so no line is. -/
theorem trimBlankLines_eq_of_joinLines_eq {ls : List (List Char)} {text : List Char}
    (hfree : ∀ l ∈ ls, '\n' ∉ l) (h : '\n' ∈ text) (heq : joinLines (trimBlankLines ls) = text) :
    trimBlankLines ls = splitLines text := by
  have hne : trimBlankLines ls ≠ [] := by
    intro hnil
    rw [hnil] at heq
    rw [← heq] at h
    cases h
  have hkept : ∀ l ∈ trimBlankLines ls, '\n' ∉ l :=
    fun l hl => hfree l ((trimBlankLines_sublist ls).subset hl)
  rw [← heq, splitLines_joinLines hne hkept]

theorem eq_zero_of_drop_eq {line : List Char} {k : Nat} (h : line.drop k = line)
    (hne : line ≠ []) : k = 0 := by
  have hlen := congrArg List.length h
  rw [List.length_drop] at hlen
  have hpos := List.length_pos_iff.mpr hne
  omega

/-- **Several lines are read as they stand** exactly if neither the first nor the last is blank and
they share no indentation. -/
theorem joinLines_trimBlankLines_eq_iff {text : List Char} (h : '\n' ∈ text) :
    joinLines (trimBlankLines ((splitLines text).map (·.drop (commonIndent (splitLines text))))) =
      text ↔
    (∀ l ∈ (splitLines text).head?, isBlankLine l = false) ∧
      (∀ l ∈ (splitLines text).getLast?, isBlankLine l = false) ∧
      ∃ l ∈ splitLines text, isBlankLine l = false ∧ isIndented l = false := by
  have hlen := two_le_length_splitLines.mpr h
  have htext := joinLines_splitLines text
  have hfree : ∀ l ∈ splitLines text, '\n' ∉ l := fun l => not_mem_of_mem_splitLines
  constructor
  · intro heq
    set k := commonIndent (splitLines text) with hk
    have hfree' : ∀ l ∈ (splitLines text).map (·.drop k), '\n' ∉ l :=
      List.forall_mem_map.mpr fun l hl hd => hfree l hl (List.mem_of_mem_drop hd)
    have htrim := trimBlankLines_eq_of_joinLines_eq hfree' h heq
    have hdrop : (splitLines text).map (·.drop k) = splitLines text := by
      have := (trimBlankLines_sublist ((splitLines text).map (·.drop k))).eq_of_length
        (by rw [htrim, List.length_map])
      rw [← this, htrim]
    rw [hdrop] at htrim
    obtain ⟨hfirst, hlast⟩ := trimBlankLines_eq_self_iff.mp htrim
    refine ⟨hfirst, hlast, ?_⟩
    obtain ⟨first, rest, hcons⟩ :=
      List.exists_cons_of_length_pos (by omega : 0 < (splitLines text).length)
    have hmem : first ∈ splitLines text := by rw [hcons]; exact List.mem_cons_self
    have hb : isBlankLine first = false := hfirst first (by rw [hcons]; rfl)
    have hd : first.drop k = first := by
      rw [hcons, List.map_cons, List.cons_eq_cons] at hdrop
      exact hdrop.1
    refine (commonIndent_eq_zero_iff hmem hb).mp (eq_zero_of_drop_eq hd ?_)
    rintro rfl
    cases hb
  · rintro ⟨hfirst, hlast, l, hl, hb, hi⟩
    have h0 : commonIndent (splitLines text) = 0 :=
      (commonIndent_eq_zero_iff hl hb).mpr ⟨l, hl, hb, hi⟩
    rw [h0]
    simp only [List.drop_zero, List.map_id']
    rw [trimBlankLines_eq_self_iff.mpr ⟨hfirst, hlast⟩, htext]

/-- **The value of a printed block is the description exactly if the description survives.** -/
theorem blockValue_laidOut_eq_iff (indent : Nat) (text : List Char) :
    blockValue (escapeFences (laidOut (spaces indent) text)) = text ↔ Survives text := by
  by_cases h : '\n' ∈ text
  · have hne : text ≠ [] := List.ne_nil_of_mem h
    rw [blockValue_of_spread (breaks_of_mem h), joinLines_trimBlankLines_eq_iff h, Survives]
    simp [h, hne]
  · rw [blockValue_of_single h, Survives]
    cases hb : isBlankLine text with
    | true => simp [h]
    | false => simp [h]

/-- **Printed descriptions are read back.** A description is printed as an indentation, a block and
a line feed. The block closes at its end, whatever follows it, and its value is the description,
with line feeds for line ends, exactly if the description survives. -/
theorem readBlock_descriptionLines (indent : Nat) (text : List Char) :
    ∃ block value, descriptionLines indent text = spaces indent ++ block ++ ['\n'] ∧
      (∀ rest, readBlock (block ++ rest) = some (value, rest)) ∧
      (value = unifyLineEnds text ↔ Survives (unifyLineEnds text)) := by
  refine ⟨_, _, descriptionLines_eq indent text, fun rest => ?_, blockValue_laidOut_eq_iff indent _⟩
  rw [List.append_assoc, List.append_assoc]
  simp only [fence, List.cons_append, List.nil_append, readBlock]
  rw [← fence_append, splitAtFence_closed (apart_laidOut indent _)]
  rfl

end IntrospectSdl.Proofs.BlockString.Survival
