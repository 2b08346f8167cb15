import IntrospectSdl.Proofs.Lines
import IntrospectSdl.Proofs.Patterns.Ends

/-! # Patterns: removing lines

A pattern that matches only where a line starts leaves a line alone unless it matches there
(`removeFrom_line`), and where it matches some lines, these go and the search goes on behind them
(`removeFrom_lines`). Between the two, what is left of a text depends on what the pattern does at
the starts of lines alone. -/

namespace IntrospectSdl.Proofs.Patterns.Removal

open IntrospectSdl.Sdl IntrospectSdl.Sdl.Pattern
open IntrospectSdl.Proofs.Lines IntrospectSdl.Proofs.Patterns.Ends

variable {p : Pattern}

/-! ### Characters that are taken -/

theorem removeFrom_of_length_le {n : Nat} {text : List Char} (h : text.length ≤ n)
    (atLineStart : Bool) : p.removeFrom n atLineStart text = [] := by
  induction text generalizing n atLineStart with
  | nil => cases n <;> rfl
  | cons x text ih =>
    obtain ⟨m, rfl⟩ : ∃ m, n = m + 1 := ⟨n - 1, by simp at h; omega⟩
    exact ih (Nat.le_of_succ_le_succ h) (x == '\n')

theorem removeFrom_line_add (line : List Char) (n : Nat) (atLineStart : Bool) (rest : List Char) :
    p.removeFrom ((line ++ ['\n']).length + n) atLineStart (line ++ '\n' :: rest) =
      p.removeFrom n true rest := by
  induction line generalizing atLineStart with
  | nil => rw [List.nil_append, List.length_singleton, Nat.add_comm]; rfl
  | cons x line ih =>
    have hlength : (x :: line ++ ['\n']).length + n = (line ++ ['\n']).length + n + 1 := by
      simp only [List.length_append, List.length_cons]
      omega
    rw [hlength]
    exact ih (x == '\n')

theorem removeFrom_take {ls : List (List Char)} (h : Cut ls) (k : Nat) :
    p.removeFrom (ls.take k).flatten.length true ls.flatten =
      p.removeFrom 0 true (ls.drop k).flatten := by
  induction k generalizing ls with
  | zero => rfl
  | succ k ih =>
    cases ls with
    | nil => rfl
    | cons l ls =>
      rw [List.take_succ_cons, List.drop_succ_cons, List.flatten_cons, List.length_append,
        List.flatten_cons, ← ih h.tail]
      rcases h.head with ⟨line, -, rfl⟩ | ⟨-, -, rfl⟩
      · rw [List.append_assoc, List.singleton_append]
        exact removeFrom_line_add line _ true ls.flatten
      · exact removeFrom_of_length_le (by simp) true

/-! ### What is left -/

theorem removeFrom_of_matchLength {atLineStart : Bool} {text : List Char}
    (h : 0 < p.matchLength ⟨atLineStart, text⟩) :
    p.removeFrom 0 atLineStart text =
      p.removeFrom (p.matchLength ⟨atLineStart, text⟩) atLineStart text := by
  cases text with
  | nil => cases p.matchLength ⟨atLineStart, []⟩ <;> rfl
  | cons x text =>
    obtain ⟨n, hn⟩ : ∃ n, p.matchLength ⟨atLineStart, x :: text⟩ = n + 1 :=
      ⟨_, (Nat.succ_pred_eq_of_pos h).symm⟩
    rw [removeFrom, hn]
    rfl

/-- **Lines that are matched go**, and the search goes on behind them. -/
theorem removeFrom_lines {l : List Char} {ls : List (List Char)} (h : Cut (l :: ls)) (k : Nat)
    (hm : afterMatch p ⟨true, (l :: ls).flatten⟩ = some (ls.drop k).flatten) :
    p.removeFrom 0 true (l :: ls).flatten = p.removeFrom 0 true (ls.drop k).flatten := by
  have htext : (l :: ls).flatten = ((l :: ls).take (k + 1)).flatten ++ (ls.drop k).flatten := by
    rw [← List.flatten_append, List.take_succ_cons, List.cons_append, List.take_append_drop]
  have hlength : p.matchLength ⟨true, (l :: ls).flatten⟩ =
      ((l :: ls).take (k + 1)).flatten.length := by
    rw [matchLength_eq, hm, Option.elim_some, htext, List.length_append, Nat.add_sub_cancel]
  have hpos : 0 < ((l :: ls).take (k + 1)).flatten.length := by
    rw [List.take_succ_cons, List.flatten_cons, List.length_append]
    have := List.length_pos_of_ne_nil (h.line l List.mem_cons_self).1
    omega
  rw [removeFrom_of_matchLength (hlength ▸ hpos), hlength, removeFrom_take h, List.drop_succ_cons]

theorem removeFrom_cons {atLineStart : Bool} {x : Char} {rest : List Char}
    (h : p.matchLength ⟨atLineStart, x :: rest⟩ = 0) :
    p.removeFrom 0 atLineStart (x :: rest) = x :: p.removeFrom 0 (x == '\n') rest := by
  rw [removeFrom, h]

section

variable (hstart : ∀ text, afterMatch p ⟨false, text⟩ = none)

include hstart

theorem matchLength_inside (text : List Char) : p.matchLength ⟨false, text⟩ = 0 := by
  rw [matchLength_eq, hstart, Option.elim_none]

/-- If there is no match at a place, what is left there begins with the rest of the line. -/
theorem removeFrom_append {line : List Char} (h : '\n' ∉ line) {atLineStart : Bool}
    {rest : List Char} (hm : p.matchLength ⟨atLineStart, line ++ '\n' :: rest⟩ = 0) :
    p.removeFrom 0 atLineStart (line ++ '\n' :: rest) =
      line ++ '\n' :: p.removeFrom 0 true rest := by
  induction line generalizing atLineStart with
  | nil => exact removeFrom_cons hm
  | cons x line ih =>
    rw [List.mem_cons, not_or] at h
    have hx : (x == '\n') = false := by simpa using Ne.symm h.1
    rw [List.cons_append] at hm
    rw [List.cons_append, List.cons_append, removeFrom_cons hm, hx,
      ih h.2 (matchLength_inside hstart _)]

theorem removeFrom_last {line : List Char} (h : '\n' ∉ line) {atLineStart : Bool}
    (hm : p.matchLength ⟨atLineStart, line⟩ = 0) : p.removeFrom 0 atLineStart line = line := by
  induction line generalizing atLineStart with
  | nil => rfl
  | cons x line ih =>
    rw [List.mem_cons, not_or] at h
    have hx : (x == '\n') = false := by simpa using Ne.symm h.1
    rw [removeFrom_cons hm, hx, ih h.2 (matchLength_inside hstart _)]

/-- **A line at whose start there is no match is left.** -/
theorem removeFrom_line {l : List Char} {ls : List (List Char)} (h : Cut (l :: ls))
    (hm : afterMatch p ⟨true, (l :: ls).flatten⟩ = none) :
    p.removeFrom 0 true (l :: ls).flatten = l ++ p.removeFrom 0 true ls.flatten := by
  have hlength : p.matchLength ⟨true, (l :: ls).flatten⟩ = 0 := by
    rw [matchLength_eq, hm, Option.elim_none]
  rcases h.head with ⟨line, hline, rfl⟩ | ⟨hl, -, rfl⟩
  · rw [List.flatten_cons, List.append_assoc, List.singleton_append] at hlength ⊢
    rw [removeFrom_append hstart hline hlength, List.append_cons]
  · rw [List.flatten_singleton] at hlength ⊢
    rw [removeFrom_last hstart hl hlength, List.flatten_nil, removeFrom, List.append_nil]

end

end IntrospectSdl.Proofs.Patterns.Removal
