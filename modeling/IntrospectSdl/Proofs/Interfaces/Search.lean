import Mathlib.Data.List.Chain
import Mathlib.Data.List.Nodup
import Mathlib.Data.List.Perm.Basic
import Mathlib.Logic.Relation
import IntrospectSdl.Sdl.InterfaceCycle

/-! # Interfaces: the depth-first search

The search fails exactly if some name leads to itself (`searchAll_eq_error_iff`). Along the way the
names fall into three parts: those that are finished, those on the path, and those still to be
entered (`Searching`). From a finished name only finished names can be reached, and no cycle. Each
step of the search keeps to this (`Searching.enter`, `Searching.skip`, `Searching.leave`), and when
it fails, its path has come back to itself (`Searching.closes`). -/

namespace IntrospectSdl.Proofs.Interfaces.Search

open IntrospectSdl.Sdl
open Relation (TransGen)

/-! ### The invariant of the search -/

section

variable (implemented : String → List String) (names : List String)

/-- A name implements another, both of them names of interfaces. -/
def Leads (a b : String) : Prop := a ∈ names ∧ b ∈ names ∧ b ∈ implemented a

/-- The names on a path, innermost first. -/
def onPath (path : List Visit) : List String := path.map Visit.name

/-- What a name on the path leads to is still to be looked at, or finished, or the name that the
path has gone on to. -/
def Explored (done : List String) : Option String → List Visit → Prop
  | _, [] => True
  | inner, visit :: outer =>
    (∀ b, Leads implemented names visit.name b → b ∈ visit.pending ∨ b ∈ done ∨ inner = some b) ∧
      Explored done (some visit.name) outer

/-- **The invariant of the search**: the finished names, those still to be entered, and the path. -/
structure Searching (done fresh : List String) (path : List Visit) : Prop where
  parts : (done ++ (onPath path ++ fresh)).Perm names
  closed : ∀ a ∈ done, ∀ b, Leads implemented names a b → b ∈ done
  acyclic : ∀ a ∈ done, ¬ TransGen (Leads implemented names) a a
  linked : (onPath path).IsChain fun inner outer => Leads implemented names outer inner
  pending : ∀ visit ∈ path, ∀ b ∈ visit.pending, b ∈ implemented visit.name
  explored : Explored implemented names done none path

/-- A chain of different names, each leading to the next, and then one of them again. -/
structure ClosesCycle (cycle : List String) : Prop where
  linked : cycle.IsChain (Leads implemented names)
  closing : ∃ lead last, cycle = lead ++ [last] ∧ lead.Nodup ∧ last ∈ lead

end

variable {implemented : String → List String} {names done fresh : List String} {path : List Visit}

theorem ClosesCycle.leads_last {cycle : List String} (h : ClosesCycle implemented names cycle) :
    ∃ last ∈ cycle, ∀ n ∈ cycle, TransGen (Leads implemented names) n last := by
  obtain ⟨lead, last, rfl, -, hlast⟩ := h.closing
  have hpairwise : (lead ++ [last]).Pairwise (TransGen (Leads implemented names)) :=
    (h.linked.imp fun _ _ => TransGen.single).pairwise
  have hlead : ∀ n ∈ lead, TransGen (Leads implemented names) n last := fun n hn =>
    (List.pairwise_append.mp hpairwise).2.2 n hn last List.mem_cons_self
  refine ⟨last, List.mem_append_left _ hlast, fun n hn => ?_⟩
  rcases List.mem_append.mp hn with hn | hn
  · exact hlead n hn
  · exact hlead n (List.mem_singleton.mp hn ▸ hlast)

theorem ClosesCycle.transGen {cycle : List String} (h : ClosesCycle implemented names cycle) :
    ∃ n, TransGen (Leads implemented names) n n := by
  obtain ⟨last, hlast, hleads⟩ := h.leads_last
  exact ⟨last, hleads last hlast⟩

theorem Explored.imp {done' : List String} {inner inner' : Option String}
    (hdone : ∀ b ∈ done, b ∈ done')
    (hinner : ∀ b, inner = some b → b ∈ done' ∨ inner' = some b)
    (h : Explored implemented names done inner path) :
    Explored implemented names done' inner' path := by
  induction path generalizing inner inner' with
  | nil => trivial
  | cons visit outer ih =>
    refine ⟨fun b hb => ?_, ih (fun _ => .inr) h.2⟩
    rcases h.1 b hb with hpending | hfinished | hnext
    · exact .inl hpending
    · exact .inr (.inl (hdone b hfinished))
    · exact .inr (hinner b hnext)

namespace Searching

theorem start : Searching implemented names [] names [] where
  parts := .refl _
  closed _ h := absurd h List.not_mem_nil
  acyclic _ h := absurd h List.not_mem_nil
  linked := .nil
  pending _ h := absurd h List.not_mem_nil
  explored := trivial

theorem mem_iff (h : Searching implemented names done fresh path) {n : String} :
    n ∈ names ↔ n ∈ done ∨ n ∈ onPath path ∨ n ∈ fresh := by
  rw [← h.parts.mem_iff, List.mem_append, List.mem_append]

theorem begin (h : Searching implemented names done fresh []) {n : String} (hn : n ∈ fresh) :
    Searching implemented names done (fresh.erase n) [⟨n, implemented n⟩] where
  parts := ((List.perm_cons_erase hn).symm.append_left done).trans h.parts
  closed := h.closed
  acyclic := h.acyclic
  linked := .singleton n
  pending visit hvisit b hb := by
    rw [List.mem_singleton] at hvisit
    rwa [hvisit] at hb ⊢
  explored := ⟨fun _ hb => .inl hb.2.2, trivial⟩

/-! ### The steps -/

theorem leave {name : String} {outer : List Visit}
    (h : Searching implemented names done fresh (⟨name, []⟩ :: outer)) (hnodup : names.Nodup) :
    Searching implemented names (name :: done) fresh outer := by
  have hall := h.parts.nodup_iff.mpr hnodup
  have hnew : name ∉ done := fun hmem =>
    (List.nodup_append.mp hall).2.2 name hmem name List.mem_cons_self rfl
  -- All that the name leads to is finished, and from there no way leads back to it.
  have hsteps : ∀ b, Leads implemented names name b → b ∈ done := fun b hb => by
    rcases h.explored.1 b hb with hpending | hfinished | hnext
    · exact absurd hpending List.not_mem_nil
    · exact hfinished
    · cases hnext
  have hreach : ∀ b, TransGen (Leads implemented names) name b → b ∈ done := fun b hb => by
    induction hb with
    | single hb => exact hsteps _ hb
    | tail _ hbc ih => exact h.closed _ ih _ hbc
  exact
    { parts := List.perm_middle.symm.trans h.parts
      closed := List.forall_mem_cons.mpr ⟨fun b hb => .tail _ (hsteps b hb),
        fun a ha b hb => .tail _ (h.closed a ha b hb)⟩
      acyclic := List.forall_mem_cons.mpr ⟨fun hcycle => hnew (hreach name hcycle), h.acyclic⟩
      linked := h.linked.tail
      pending := fun visit hvisit => h.pending visit (.tail _ hvisit)
      explored := h.explored.2.imp (fun _ => .tail _) fun b hb => by
        rw [Option.some_inj] at hb
        exact .inl (hb ▸ List.mem_cons_self) }

section

variable {name next : String} {rest : List String} {outer : List Visit}
  (h : Searching implemented names done fresh (⟨name, next :: rest⟩ :: outer))
include h

theorem leads_next (hnext : next ∈ names) : Leads implemented names name next :=
  ⟨h.mem_iff.mpr (.inr (.inl List.mem_cons_self)), hnext,
    h.pending _ List.mem_cons_self next List.mem_cons_self⟩

theorem pending_rest : ∀ visit ∈ ⟨name, rest⟩ :: outer,
    ∀ b ∈ visit.pending, b ∈ implemented visit.name :=
  List.forall_mem_cons.mpr ⟨fun b hb => h.pending _ List.mem_cons_self b (.tail _ hb),
    fun visit hvisit => h.pending visit (.tail _ hvisit)⟩

theorem enter (hnext : next ∈ fresh) : Searching implemented names done (fresh.erase next)
    (⟨next, implemented next⟩ :: ⟨name, rest⟩ :: outer) where
  parts := by
    refine List.Perm.trans (List.Perm.append_left done ?_) h.parts
    exact List.perm_middle.symm.trans
      ((List.perm_cons_erase hnext).symm.append_left (name :: onPath outer))
  closed := h.closed
  acyclic := h.acyclic
  linked := .cons_cons (h.leads_next (h.mem_iff.mpr (.inr (.inr hnext)))) h.linked
  pending := List.forall_mem_cons.mpr ⟨fun _ hb => hb, h.pending_rest⟩
  explored := by
    refine ⟨fun b hb => .inl hb.2.2, fun b hb => ?_, h.explored.2⟩
    rcases h.explored.1 b hb with hpending | hfinished | hnone
    · rcases List.mem_cons.mp hpending with rfl | hrest
      · exact .inr (.inr rfl)
      · exact .inl hrest
    · exact .inr (.inl hfinished)
    · cases hnone

/-- A name that is neither still to be entered nor on the path has been finished, or is none of an
interface. -/
theorem skip (hfresh : next ∉ fresh) (hpath : next ∉ name :: onPath outer) :
    Searching implemented names done fresh (⟨name, rest⟩ :: outer) where
  parts := h.parts
  closed := h.closed
  acyclic := h.acyclic
  linked := h.linked
  pending := h.pending_rest
  explored := by
    refine ⟨fun b hb => ?_, h.explored.2⟩
    rcases h.explored.1 b hb with hpending | hlater
    · rcases List.mem_cons.mp hpending with rfl | hrest
      · rcases h.mem_iff.mp hb.2.1 with hfinished | honPath | hentered
        · exact .inr (.inl hfinished)
        · exact absurd honPath hpath
        · exact absurd hentered hfresh
      · exact .inl hrest
    · exact .inr hlater

/-- **A name that is on the path closes a cycle.** -/
theorem closes (hnodup : names.Nodup) (hpath : next ∈ name :: onPath outer) :
    ClosesCycle implemented names (next :: name :: onPath outer).reverse where
  linked := by
    have hnext : next ∈ names := h.mem_iff.mpr (.inr (.inl hpath))
    exact List.isChain_reverse.mpr (.cons_cons (h.leads_next hnext) h.linked)
  closing := by
    have hall := h.parts.nodup_iff.mpr hnodup
    refine ⟨(name :: onPath outer).reverse, next, List.reverse_cons, ?_, List.mem_reverse.mpr hpath⟩
    exact List.nodup_reverse.mpr (List.nodup_append.mp (List.nodup_append.mp hall).2.1).1

end

end Searching

/-! ### The run -/

/-- How a search can end: these names are finished, or a cycle has been closed. -/
def Ends (implemented : String → List String) (names entered : List String) :
    Except (List String) (List String) → Prop
  | .ok fresh => ∃ done, Searching implemented names done fresh [] ∧ entered ⊆ done
  | .error cycle => ClosesCycle implemented names cycle

theorem Ends.mono {entered entered' : List String} {result : Except (List String) (List String)}
    (h : Ends implemented names entered' result) (hsub : entered ⊆ entered') :
    Ends implemented names entered result := by
  cases result with
  | ok fresh =>
    obtain ⟨done, hsearching, hentered⟩ := h
    exact ⟨done, hsearching, List.Subset.trans hsub hentered⟩
  | error cycle => exact h

/-- **A search from any path**: each step keeps the invariant, and the last one ends it. -/
theorem ends_search (hnodup : names.Nodup) (h : Searching implemented names done fresh path) :
    Ends implemented names (done ++ onPath path) (search implemented fresh path) := by
  -- The finished names vary along the search, since leaving a name finishes it.
  induction fresh, path using search.induct implemented generalizing done with
  | case1 fresh =>
    rw [search]
    exact ⟨done, h, by simp [onPath]⟩
  | case2 fresh name outer ih =>
    rw [search]
    exact (ih (h.leave hnodup)).mono List.perm_middle.subset
  | case3 fresh name next pending outer hnext ih =>
    rw [search, if_pos hnext]
    have hsub : done ++ name :: onPath outer ⊆ done ++ next :: name :: onPath outer := by
      grind
    exact (ih (h.enter hnext)).mono hsub
  | case4 fresh name next pending outer hfresh hpath =>
    rw [search, if_neg hfresh, if_pos hpath]
    exact h.closes hnodup (List.mem_cons.mpr hpath)
  | case5 fresh name next pending outer hfresh hpath ih =>
    rw [search, if_neg hfresh, if_neg hpath]
    exact ih (h.skip hfresh (mt List.mem_cons.mp hpath))

/-- **Searches from names in turn** finish each of them, or close a cycle. -/
theorem ends_searches (hnodup : names.Nodup) {starts : List String} (hstarts : starts ⊆ names)
    (h : Searching implemented names done fresh []) :
    Ends implemented names (done ++ starts) (starts.foldlM (fun fresh name =>
      if name ∈ fresh then search implemented (fresh.erase name) [⟨name, implemented name⟩]
      else .ok fresh) fresh) := by
  induction starts generalizing done fresh with
  | nil => exact ⟨done, h, by simp⟩
  | cons start starts ih =>
    rw [List.foldlM_cons]
    have hrest : starts ⊆ names := (List.cons_subset.mp hstarts).2
    by_cases hstart : start ∈ fresh
    · rw [if_pos hstart]
      have hends := ends_search hnodup (h.begin hstart)
      cases hresult : search implemented (fresh.erase start) [⟨start, implemented start⟩] with
      | ok fresh' =>
        rw [hresult] at hends
        obtain ⟨done', hsearching, hentered⟩ := hends
        have hsub : done ++ start :: starts ⊆ done' ++ starts := by
          simp only [onPath, List.map_cons, List.map_nil] at hentered
          grind
        exact (ih hrest hsearching).mono hsub
      | error cycle =>
        rw [hresult] at hends
        exact hends
    · rw [if_neg hstart]
      have hdone : start ∈ done := by
        simpa [hstart, onPath] using h.mem_iff.mp (hstarts List.mem_cons_self)
      have hsub : done ++ start :: starts ⊆ done ++ starts := by
        grind
      exact (ih hrest h).mono hsub

/-- **The search fails exactly if some name leads to itself**, and then it has closed a cycle. -/
theorem searchAll_eq_error_iff (implemented : String → List String) (hnodup : names.Nodup) :
    ((∃ cycle, searchAll implemented names = .error cycle) ↔
        ∃ n, TransGen (Leads implemented names) n n) ∧
      ∀ cycle, searchAll implemented names = .error cycle →
        ClosesCycle implemented names cycle := by
  have hends : Ends implemented names ([] ++ names) (searchAll implemented names) :=
    ends_searches hnodup (List.Subset.refl _) .start
  cases hresult : searchAll implemented names with
  | ok fresh =>
    rw [hresult] at hends
    obtain ⟨done, hsearching, hentered⟩ := hends
    refine ⟨⟨fun ⟨_, h⟩ => (nomatch h), fun ⟨n, hn⟩ => ?_⟩, fun _ h => (nomatch h)⟩
    have hmem : n ∈ names := by
      cases hn with
      | single h => exact h.1
      | tail _ h => exact h.2.1
    exact absurd hn (hsearching.acyclic n (hentered hmem))
  | error cycle =>
    rw [hresult] at hends
    refine ⟨⟨fun _ => hends.transGen, fun _ => ⟨cycle, rfl⟩⟩, fun cycle' h => ?_⟩
    rw [Except.error.injEq] at h
    exact h ▸ hends

end IntrospectSdl.Proofs.Interfaces.Search
