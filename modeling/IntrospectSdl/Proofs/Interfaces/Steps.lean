import Mathlib.Data.List.Perm.Basic
import Mathlib.Logic.Function.Iterate
import IntrospectSdl.Sdl.InterfaceCycle

/-! # Interfaces: the steps of the search

The depth-first search taken apart into its steps. A step starts from another name, enters a name,
drops one, leaves the innermost name, or ends the search (`advance`). What a search comes to does
not change when a step is taken (`outcome_advance`), and each step uses up some of the work that is
left, which are the names to start from, the links of the names that have not been entered, and
those along the path (`work_advance`). So the search is over after as many steps as there was work
(`iterate_advance`), and this is at most two for each name and one for each link
(`iterate_searchAll`). -/

namespace IntrospectSdl.Proofs.Interfaces.Steps

open IntrospectSdl.Sdl

/-- How far a search has come: the names to start from, those that have not been entered, and the
path; or it is over. -/
inductive Stage where
  | running (starts fresh : List String) (path : List Visit)
  | ended (result : Except (List String) (List String))

section

variable (implemented : String → List String)

/-- One step of the search. -/
def advance : Stage → Stage
  | .running [] fresh [] => .ended (.ok fresh)
  | .running (start :: starts) fresh [] =>
    if start ∈ fresh then .running starts (fresh.erase start) [⟨start, implemented start⟩]
    else .running starts fresh []
  | .running starts fresh (⟨_, []⟩ :: outer) => .running starts fresh outer
  | .running starts fresh (⟨name, next :: pending⟩ :: outer) =>
    if next ∈ fresh then
      .running starts (fresh.erase next) (⟨next, implemented next⟩ :: ⟨name, pending⟩ :: outer)
    else if next = name ∨ next ∈ outer.map Visit.name then
      .ended (.error (next :: name :: outer.map Visit.name).reverse)
    else .running starts fresh (⟨name, pending⟩ :: outer)
  | .ended result => .ended result

/-- The search from a name that may have been entered before. -/
def searchFrom (fresh : List String) (start : String) : Except (List String) (List String) :=
  if start ∈ fresh then search implemented (fresh.erase start) [⟨start, implemented start⟩]
  else .ok fresh

/-- What a search comes to. -/
def outcome : Stage → Except (List String) (List String)
  | .running starts fresh path => do
    starts.foldlM (searchFrom implemented) (← search implemented fresh path)
  | .ended result => result

/-- The work for names that have not been entered: to enter each of them and to follow its links. -/
def freshWork (fresh : List String) : Nat := fresh.length + (fresh.flatMap implemented).length

/-- The work that is left. -/
def work : Stage → Nat
  | .running starts fresh path => starts.length + freshWork implemented fresh + pathWork path + 1
  | .ended _ => 0

end

variable {implemented : String → List String}

theorem freshWork_erase {fresh : List String} {name : String} (h : name ∈ fresh) :
    freshWork implemented (fresh.erase name) + (implemented name).length + 1 =
      freshWork implemented fresh := by
  have hperm := List.perm_cons_erase h
  have hlength := hperm.length_eq
  have hlinks := (hperm.flatMap_right implemented).length_eq
  rw [List.length_cons] at hlength
  rw [List.flatMap_cons, List.length_append] at hlinks
  rw [freshWork, freshWork]
  omega

/-! ### One step -/

/-- **A step does not change what the search comes to.** -/
theorem outcome_advance (stage : Stage) :
    outcome implemented (advance implemented stage) = outcome implemented stage := by
  cases stage with
  | ended result => rfl
  | running starts fresh path =>
    match starts, path with
    | [], [] =>
      rw [advance, outcome, outcome, search]
      rfl
    | start :: starts, [] =>
      have hstart : outcome implemented (.running (start :: starts) fresh []) =
          searchFrom implemented fresh start >>= starts.foldlM (searchFrom implemented) := by
        rw [outcome, search]
        rfl
      rw [hstart, advance, searchFrom]
      split
      · rfl
      · rw [outcome, search]
    | starts, ⟨name, []⟩ :: outer =>
      rw [advance, outcome, outcome, search]
    | starts, ⟨name, next :: pending⟩ :: outer =>
      rw [advance, outcome, search]
      by_cases hnext : next ∈ fresh
      · rw [if_pos hnext, if_pos hnext, outcome]
      · rw [if_neg hnext, if_neg hnext]
        split <;> rfl

/-- **A step uses up some of the work**, if there is any left. -/
theorem work_advance (stage : Stage) :
    work implemented (advance implemented stage) ≤ work implemented stage - 1 := by
  cases stage with
  | ended result => exact Nat.zero_le _
  | running starts fresh path =>
    match starts, path with
    | [], [] => exact Nat.zero_le _
    | start :: starts, [] =>
      rw [advance]
      split
      · next hstart =>
        have hfresh : _ = freshWork implemented fresh := freshWork_erase hstart
        simp only [work, pathWork, List.length_cons]
        omega
      · simp only [work, pathWork, List.length_cons]
        omega
    | starts, ⟨name, []⟩ :: outer =>
      rw [advance]
      simp only [work, pathWork, List.length_nil]
      omega
    | starts, ⟨name, next :: pending⟩ :: outer =>
      rw [advance]
      split
      · next hnext =>
        have hfresh : _ = freshWork implemented fresh := freshWork_erase hnext
        simp only [work, pathWork, List.length_cons]
        omega
      · split
        · exact Nat.zero_le _
        · simp only [work, pathWork, List.length_cons]
          omega

/-! ### The run -/

/-- **The search is over after as many steps as there was work.** -/
theorem iterate_advance {n : Nat} {stage : Stage} (h : work implemented stage ≤ n) :
    (advance implemented)^[n] stage = .ended (outcome implemented stage) := by
  induction n generalizing stage with
  | zero =>
    cases stage with
    | ended result => rfl
    | running starts fresh path =>
      rw [work] at h
      omega
  | succ n ih =>
    have hwork : work implemented (advance implemented stage) ≤ work implemented stage - 1 :=
      work_advance stage
    rw [Function.iterate_succ_apply, ih (by omega), outcome_advance]

/-- Searching from all names is searching from each in turn. -/
theorem outcome_start (names : List String) :
    outcome implemented (.running names names []) = searchAll implemented names := by
  rw [outcome, search]
  rfl

/-- **The search from all names is over after at most two steps for each name, one for each link,
and one more.** -/
theorem iterate_searchAll (implemented : String → List String) (names : List String) :
    (advance implemented)^[2 * names.length + (names.flatMap implemented).length + 1]
      (.running names names []) = .ended (searchAll implemented names) := by
  rw [← outcome_start]
  refine iterate_advance ?_
  rw [work, freshWork, pathWork]
  omega

end IntrospectSdl.Proofs.Interfaces.Steps
