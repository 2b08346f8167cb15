import Mathlib.Data.List.Basic
import Mathlib.Tactic.SplitIfs
import IntrospectSdl.Command.Arguments

/-! # Command: expanded arguments

Whether an argument is expanded depends on the expanded one before it (`getElem?_expand_succ`), so
that along a run of bare `src` one decision leads to the next. The outcome can be told from the
arguments alone (`Expands`): in each run every other `src` is an option, beginning with the first,
or with the second if the run stands behind an option that takes it for its value. This is the only
list of this form, since every bare `src` behind the first argument is in some run (`exists_run`). A
value of an option of the expanded list is left as it is, and nothing is left to expand
(`expandArguments_iff`). -/

namespace IntrospectSdl.Proofs.Command.Expansion

open IntrospectSdl.Command

/-! ### Runs -/

/-- **A run of bare `src`**: so many of them after some argument and before others, and no more on
either side. The first argument of all is the name of the program and belongs to no run. -/
structure Run (arguments before : List String) (previous : String) (length : Nat)
    (after : List String) : Prop where
  split : arguments = before ++ previous :: (List.replicate length "src" ++ after)
  begins : before = [] ∨ previous ≠ "src"
  ends : after.head? ≠ some "src"

/-- What stands at a place of a run in the expanded list. -/
def alternating (previous : String) (k : Nat) : String :=
  if k % 2 = (if previous = "--src" ∨ previous = "--out" then 1 else 0) then "--src" else "src"

/-- **The expanded list, told from the arguments**: it differs from them only in their runs, in
which options and values alternate. -/
structure Expands (arguments expanded : List String) : Prop where
  length : expanded.length = arguments.length
  kept : ∀ i, i = 0 ∨ arguments[i]? ≠ some "src" → expanded[i]? = arguments[i]?
  runs : ∀ {before previous length after}, Run arguments before previous length after →
    ∀ k < length, expanded[before.length + 1 + k]? = some (alternating previous k)

theorem exists_replicate (l : List String) : ∃ n after,
    l = List.replicate n "src" ++ after ∧ after.head? ≠ some "src" := by
  induction l with
  | nil => exact ⟨0, [], rfl, by simp⟩
  | cons a l ih =>
    by_cases ha : a = "src"
    · obtain ⟨n, after, hl, hafter⟩ := ih
      refine ⟨n + 1, after, ?_, hafter⟩
      rw [ha, hl, List.replicate_succ, List.cons_append]
    · exact ⟨0, a :: l, rfl, by simpa using ha⟩

/-- Going back from a place one comes to something that is no bare `src`, or to the beginning. -/
theorem exists_before (arguments : List String) (i : Nat) : ∃ m ≤ i,
    (m = 0 ∨ arguments[m]? ≠ some "src") ∧
      ∀ j, m < j → j ≤ i → arguments[j]? = some "src" := by
  induction i with
  | zero => exact ⟨0, Nat.le_refl _, .inl rfl, fun j hj hj' => absurd hj (by omega)⟩
  | succ i ih =>
    by_cases hi : arguments[i + 1]? = some "src"
    · obtain ⟨m, hm, hbegins, hrun⟩ := ih
      refine ⟨m, by omega, hbegins, fun j hj hj' => ?_⟩
      by_cases hlast : j = i + 1
      · rw [hlast, hi]
      · exact hrun j hj (by omega)
    · exact ⟨i + 1, Nat.le_refl _, .inr hi, fun j hj hj' => absurd hj (by omega)⟩

/-- **Every bare `src` behind the first argument is in a run.** -/
theorem exists_run {arguments : List String} {i : Nat} (h : arguments[i + 1]? = some "src") :
    ∃ before previous length after k, Run arguments before previous length after ∧ k < length ∧
      i + 1 = before.length + 1 + k := by
  obtain ⟨m, hm, hbegins, hrun⟩ := exists_before arguments (i + 1)
  have hmi : m ≤ i := by
    by_contra hlt
    obtain rfl : m = i + 1 := by omega
    rcases hbegins with hzero | hother
    · omega
    · exact hother h
  have hlength : m < arguments.length := by
    have hi := (List.getElem?_eq_some_iff.mp h).1
    omega
  obtain ⟨n, after, hrest, hends⟩ := exists_replicate (arguments.drop (m + 1))
  have hbefore : (arguments.take m).length = m := List.length_take_of_le (Nat.le_of_lt hlength)
  refine ⟨arguments.take m, arguments[m], n, after, i - m, ⟨?_, ?_, hends⟩, ?_, ?_⟩
  · rw [← hrest, List.getElem_cons_drop, List.take_append_drop]
  · rcases hbegins with rfl | hother
    · exact .inl rfl
    · refine .inr fun heq => hother ?_
      rw [List.getElem?_eq_getElem hlength, heq]
  · -- If the run ended earlier, what comes after it would be another `src`.
    by_contra hshort
    have hafter : (arguments.drop (m + 1))[n]? = after.head? := by
      rw [hrest, List.getElem?_append_right (by simp), List.length_replicate, Nat.sub_self,
        List.head?_eq_getElem?]
    rw [List.getElem?_drop] at hafter
    exact hends (hafter ▸ hrun (m + 1 + n) (by omega) (by omega))
  · omega

/-- A list of this form is told from the arguments. -/
theorem Expands.unique {arguments expanded expanded' : List String}
    (h : Expands arguments expanded) (h' : Expands arguments expanded') : expanded = expanded' := by
  refine List.ext_getElem? fun i => ?_
  by_cases hkept : i = 0 ∨ arguments[i]? ≠ some "src"
  · rw [h.kept i hkept, h'.kept i hkept]
  · rw [not_or, not_not] at hkept
    obtain ⟨j, rfl⟩ := Nat.exists_eq_succ_of_ne_zero hkept.1
    obtain ⟨before, previous, length, after, k, hrun, hk, hplace⟩ := exists_run hkept.2
    rw [Nat.succ_eq_add_one, hplace, h.runs hrun k hk, h'.runs hrun k hk]

/-! ### One argument -/

theorem takesValue_iff {argument : String} :
    takesValue argument = true ↔ argument = "--src" ∨ argument = "--out" := by
  simp [takesValue]

theorem expandArgument_of_ne {argument : String} (h : argument ≠ "src")
    (previous : Option String) : expandArgument previous argument = argument := by
  cases previous with
  | none => rfl
  | some p => exact if_neg fun hsrc => h hsrc.1

theorem expandArgument_value {previous : String} (h : takesValue previous = true)
    (argument : String) : expandArgument (some previous) argument = argument := by
  refine if_neg fun hsrc => ?_
  rw [h] at hsrc
  cases hsrc.2

theorem expandArgument_expandArgument (previous : Option String) (argument : String) :
    expandArgument previous (expandArgument previous argument) =
      expandArgument previous argument := by
  cases previous with
  | none => rfl
  | some p =>
    by_cases hsrc : argument = "src" ∧ takesValue p = false
    · have hoption : expandArgument (some p) argument = "--src" := if_pos hsrc
      rw [hoption]
      exact expandArgument_of_ne (by decide) (some p)
    · have hsame : expandArgument (some p) argument = argument := if_neg hsrc
      rw [hsame, hsame]

/-- A run begins with an option, unless what stands before it takes a value. -/
theorem expandArgument_src (previous : String) :
    expandArgument (some previous) "src" = alternating previous 0 := by
  unfold expandArgument alternating
  by_cases hvalue : previous = "--src" ∨ previous = "--out"
  · have htakes : takesValue previous = true := takesValue_iff.mpr hvalue
    simp [hvalue, htakes]
  · have htakes : takesValue previous = false := by
      rw [Bool.eq_false_iff, Ne, takesValue_iff]
      exact hvalue
    simp [hvalue, htakes]

theorem expandArgument_alternating (previous : String) (k : Nat) :
    expandArgument (some (alternating previous k)) "src" = alternating previous (k + 1) := by
  rw [expandArgument_src]
  unfold alternating
  have hoffset : (if previous = "--src" ∨ previous = "--out" then 1 else 0) ≤ 1 := by
    split_ifs <;> omega
  generalize (if previous = "--src" ∨ previous = "--out" then 1 else 0) = offset at hoffset
  by_cases hk : k % 2 = offset
  · have hnext : (k + 1) % 2 ≠ offset := by omega
    simp [hk, hnext]
  · have hnext : (k + 1) % 2 = offset := by omega
    simp [hk, hnext]

/-! ### The list -/

section

variable (arguments : List String)

theorem getElem?_expandAfter_zero (previous : Option String) :
    (expandAfter previous arguments)[0]? = arguments[0]?.map (expandArgument previous) := by
  cases arguments <;> rfl

theorem getElem?_expandAfter_succ (previous : Option String) (i : Nat) :
    (expandAfter previous arguments)[i + 1]? =
      arguments[i + 1]?.map (expandArgument (expandAfter previous arguments)[i]?) := by
  induction arguments generalizing previous i with
  | nil => rfl
  | cons argument rest ih =>
    cases i with
    | zero => exact getElem?_expandAfter_zero rest _
    | succ i => exact ih _ i

theorem length_expandAfter (previous : Option String) :
    (expandAfter previous arguments).length = arguments.length := by
  induction arguments generalizing previous with
  | nil => rfl
  | cons argument rest ih => exact congrArg (· + 1) (ih _)

theorem getElem?_expand_zero : (expandArguments arguments)[0]? = arguments[0]? := by
  cases arguments <;> rfl

/-- **An argument is expanded as the expanded one before it has it.** -/
theorem getElem?_expand_succ (i : Nat) : (expandArguments arguments)[i + 1]? =
    arguments[i + 1]?.map (expandArgument (expandArguments arguments)[i]?) :=
  getElem?_expandAfter_succ arguments none i

theorem getElem?_expand_of_kept {i : Nat} (h : i = 0 ∨ arguments[i]? ≠ some "src") :
    (expandArguments arguments)[i]? = arguments[i]? := by
  cases i with
  | zero => exact getElem?_expand_zero arguments
  | succ i =>
    rw [getElem?_expand_succ]
    cases hi : arguments[i + 1]? with
    | none => rfl
    | some argument =>
      have hne : argument ≠ "src" := by
        rcases h with hzero | hother
        · omega
        · exact fun heq => hother (hi.trans (congrArg some heq))
      rw [Option.map_some, expandArgument_of_ne hne]

end

/-- **Options and values alternate in a run**: each decision is made from the one before it. -/
theorem getElem?_expand_run {arguments before after : List String} {previous : String}
    {length : Nat} (h : Run arguments before previous length after) {k : Nat} (hk : k < length) :
    (expandArguments arguments)[before.length + 1 + k]? = some (alternating previous k) := by
  have hprevious : arguments[before.length]? = some previous := by
    rw [h.split]
    simp
  have hsrc : ∀ j < length, arguments[before.length + 1 + j]? = some "src" := by
    intro j hj
    rw [h.split, List.getElem?_append_right (by omega), Nat.add_assoc, Nat.add_sub_cancel_left,
      Nat.add_comm 1 j, List.getElem?_cons_succ, List.getElem?_append_left (by simpa using hj)]
    simp [hj]
  induction k with
  | zero =>
    have hkept : before.length = 0 ∨ arguments[before.length]? ≠ some "src" := by
      rcases h.begins with rfl | hne
      · exact .inl rfl
      · rw [hprevious]
        exact .inr fun heq => hne (Option.some_inj.mp heq)
    rw [Nat.add_zero, getElem?_expand_succ, getElem?_expand_of_kept arguments hkept, hprevious,
      ← Nat.add_zero (before.length + 1), hsrc 0 hk, Option.map_some, expandArgument_src]
  | succ k ih =>
    rw [← Nat.add_assoc, getElem?_expand_succ, ih (by omega), Nat.add_assoc _ k 1, hsrc (k + 1) hk,
      Option.map_some, expandArgument_alternating]

theorem expands_expandArguments (arguments : List String) :
    Expands arguments (expandArguments arguments) where
  length := length_expandAfter arguments none
  kept _ h := getElem?_expand_of_kept arguments h
  runs h _ hk := getElem?_expand_run h hk

theorem getElem?_expand_value (arguments : List String) {i : Nat} {option : String}
    (h : (expandArguments arguments)[i]? = some option) (hvalue : takesValue option = true) :
    (expandArguments arguments)[i + 1]? = arguments[i + 1]? := by
  rw [getElem?_expand_succ, h]
  cases arguments[i + 1]? with
  | none => rfl
  | some argument => rw [Option.map_some, expandArgument_value hvalue]

/-- **Nothing is left to expand.** -/
theorem expandArguments_expandArguments (arguments : List String) :
    expandArguments (expandArguments arguments) = expandArguments arguments := by
  refine List.ext_getElem? fun i => ?_
  induction i with
  | zero => exact getElem?_expand_zero _
  | succ i ih =>
    rw [getElem?_expand_succ, ih, getElem?_expand_succ arguments, Option.map_map]
    refine congrArg (fun f => arguments[i + 1]?.map f) (funext fun argument => ?_)
    exact expandArgument_expandArgument _ argument

/-- **The expanded arguments are the list in which options and values alternate along each run of
bare `src`.** A value of one of its options is left as it is, and nothing is left to expand. -/
theorem expandArguments_iff (arguments : List String) :
    (∀ expanded, expandArguments arguments = expanded ↔ Expands arguments expanded) ∧
      (∀ i option, (expandArguments arguments)[i]? = some option →
        option = "--src" ∨ option = "--out" →
          (expandArguments arguments)[i + 1]? = arguments[i + 1]?) ∧
      expandArguments (expandArguments arguments) = expandArguments arguments := by
  refine ⟨fun expanded => ⟨?_, ?_⟩, fun i option hoption hvalue => ?_, ?_⟩
  · rintro rfl
    exact expands_expandArguments arguments
  · exact (expands_expandArguments arguments).unique
  · exact getElem?_expand_value arguments hoption (takesValue_iff.mpr hvalue)
  · exact expandArguments_expandArguments arguments

/-- Arguments with two runs, of which the second stands behind an option. -/
def chained : List String := ["src", "src", "src", "src", "--out", "src", "src", "src"]

theorem expandArguments_iff_chained :
    Expands chained ["src", "--src", "src", "--src", "--out", "src", "--src", "src"] ∧
      (expandArguments chained)[4]? = some "--out" ∧
      (expandArguments chained)[5]? = chained[5]? := by
  obtain ⟨hiff, hvalue, -⟩ := expandArguments_iff chained
  have hoption : (expandArguments chained)[4]? = some "--out" := by decide
  exact ⟨(hiff _).mp (by decide), hoption, hvalue 4 "--out" hoption (.inr rfl)⟩

end IntrospectSdl.Proofs.Command.Expansion
