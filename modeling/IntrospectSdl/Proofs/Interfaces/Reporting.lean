import IntrospectSdl.Proofs.Chains
import IntrospectSdl.Proofs.Printing.Printable

/-! # Interfaces: the cycle that is reported

When a search closes a cycle, the names along its path begin with the one that the search was
started from (`head?_of_search_eq_error`). The searches before it have finished, and from a finished
name no cycle can be reached (`not_reachesCycle`). So what is reported begins with the first
interface from which there is a way into a cycle, and each name on it lists the next
(`Reported`, `reported_of_print`). -/

namespace IntrospectSdl.Proofs.Interfaces.Reporting

open IntrospectSdl.Sdl IntrospectSdl.Proofs.Chains IntrospectSdl.Proofs.Declarations
open IntrospectSdl.Proofs.Interfaces.Search IntrospectSdl.Proofs.Interfaces.Cycles
open IntrospectSdl.Proofs.Printing.Acceptance IntrospectSdl.Proofs.Printing.Printable
open Relation (TransGen ReflTransGen)

/-- There is a way from here to something that leads back to itself. -/
def ReachesCycle (leads : String → String → Prop) (a : String) : Prop :=
  ∃ b, ReflTransGen leads a b ∧ TransGen leads b b

/-! ### Where a search begins -/

section

variable {implemented : String → List String} {names done fresh cycle : List String}
  {path : List Visit}

/-- **The names that a search reports begin with the outermost one of its path.** -/
theorem head?_of_search_eq_error (h : search implemented fresh path = .error cycle) :
    cycle.head? = (onPath path).getLast? := by
  -- The search never leaves the outermost name without having ended.
  induction fresh, path using search.induct implemented with
  | case1 fresh =>
    rw [search] at h
    cases h
  | case2 fresh name outer ih =>
    rw [search] at h
    have houter : onPath outer ≠ [] := by
      intro hnil
      rw [onPath, List.map_eq_nil_iff] at hnil
      rw [hnil, search] at h
      cases h
    rw [ih h]
    exact (List.getLast?_cons_of_ne_nil houter).symm
  | case3 fresh name next pending outer hnext ih =>
    rw [search, if_pos hnext] at h
    exact ih h
  | case4 fresh name next pending outer hfresh hpath =>
    rw [search, if_neg hfresh, if_pos hpath] at h
    have hcycle : cycle = (next :: name :: onPath outer).reverse := (Except.error.inj h).symm
    rw [hcycle, List.head?_reverse]
    rfl
  | case5 fresh name next pending outer hfresh hpath ih =>
    rw [search, if_neg hfresh, if_neg hpath] at h
    exact ih h

/-- From a finished name no cycle can be reached. -/
theorem not_reachesCycle (h : Searching implemented names done fresh path) {a : String}
    (ha : a ∈ done) : ¬ ReachesCycle (Leads implemented names) a := by
  rintro ⟨b, hab, hb⟩
  have hdone : b ∈ done := by
    clear hb
    induction hab with
    | refl => exact ha
    | tail _ hbc ih => exact h.closed _ ih _ hbc
  exact h.acyclic b hdone hb

/-- A chain that closes a cycle leads into it from its first name. -/
theorem reachesCycle_of_closesCycle (h : ClosesCycle implemented names cycle) {start : String}
    (hstart : cycle.head? = some start) : ReachesCycle (Leads implemented names) start := by
  obtain ⟨last, hlast, hleads⟩ := h.leads_last
  have hmem : start ∈ cycle := List.mem_of_head? hstart
  exact ⟨last, (hleads start hmem).to_reflTransGen, hleads last hlast⟩

theorem subset_of_closesCycle (h : ClosesCycle implemented names cycle) : cycle ⊆ names := by
  intro n hn
  obtain ⟨last, -, hleads⟩ := h.leads_last
  obtain ⟨next, hnext, -⟩ := TransGen.head'_iff.mp (hleads n hn)
  exact hnext.1

/-- **A cycle is reported from the first name from which one can be reached.** -/
theorem first_of_searchAll (hnodup : names.Nodup)
    (h : searchAll implemented names = .error cycle) : ∃ before start after,
      names = before ++ start :: after ∧ cycle.head? = some start ∧
        ∀ a ∈ before, ¬ ReachesCycle (Leads implemented names) a := by
  obtain ⟨before, start, after, fresh, hnames, hbefore, hstart⟩ := exists_of_foldlM_eq_error h
  have hsub : before ⊆ names := by
    rw [hnames]
    exact List.subset_append_left _ _
  -- The names that were searched before are finished.
  have hends : Ends implemented names ([] ++ before) (.ok fresh) :=
    hbefore ▸ ends_searches hnodup hsub .start
  obtain ⟨done, hsearching, hdone⟩ := hends
  refine ⟨before, start, after, hnames, ?_, fun a ha => not_reachesCycle hsearching (hdone ha)⟩
  split at hstart
  · exact head?_of_search_eq_error hstart
  · cases hstart

end

/-! ### Reported cycles -/

/-- **What is reported of a schema**: a chain of different interfaces, each of which lists the next,
and then one of them again. It begins with the first interface from which a cycle can be reached. -/
structure Reported (s : Schema) (path : List String) : Prop where
  length : 2 ≤ path.length
  declared : ∀ name ∈ path, kindIn s name = some .interface
  linked : path.IsChain (Implements s)
  closing : ∃ lead last, path = lead ++ [last] ∧ lead.Nodup ∧ last ∈ lead
  first : ∃ before start after, interfaceNames s = before ++ start :: after ∧
    path.head? = some start ∧ ReachesCycle (Implements s) start ∧
      ∀ name ∈ before, ¬ ReachesCycle (Implements s) name

variable {s : Schema} {path : List String}

theorem reported_of_checkInterfaceCycles
    (h : checkInterfaceCycles s = .error (.interfaceCycle path)) : Reported s path := by
  have hsearch : searchAll (implementedBy s) (interfaceNames s) = .error path := by
    unfold checkInterfaceCycles at h
    split at h
    · cases h
    · next cycle hcycle =>
      obtain rfl := PrintError.interfaceCycle.inj (Except.error.inj h)
      exact hcycle
  have hcloses := (searchAll_eq_error_iff _ (nodup_interfaceNames s)).2 path hsearch
  obtain ⟨before, start, after, hnames, hstart, hbefore⟩ :=
    first_of_searchAll (nodup_interfaceNames s) hsearch
  have hreaches := reachesCycle_of_closesCycle hcloses hstart
  have hlinked := hcloses.linked
  rw [leads_eq] at hbefore hreaches hlinked
  obtain ⟨lead, last, hpath, hnodup, hlast⟩ := hcloses.closing
  have hlength : 2 ≤ path.length := by
    have hlead : 0 < lead.length := List.length_pos_of_mem hlast
    rw [hpath, List.length_append, List.length_singleton]
    omega
  exact
    { length := hlength
      declared := fun name hname => mem_interfaceNames.mp (subset_of_closesCycle hcloses hname)
      linked := hlinked
      closing := ⟨lead, last, hpath, hnodup, hlast⟩
      first := ⟨before, start, after, hnames, hstart, hreaches, hbefore⟩ }

theorem checkReferences_ne_interfaceCycle (s : Schema) (path : List String) :
    checkReferences s ≠ .error (.interfaceCycle path) := by
  intro h
  obtain ⟨⟨name, site⟩, -, hr⟩ := exists_of_forM_eq_error h
  unfold checkReference at hr
  split at hr
  · cases hr
  · split at hr
    · split at hr <;> cases hr
    · split at hr <;> cases hr
    · cases hr

theorem print_eq_interfaceCycle_iff {descriptions : Descriptions} :
    print descriptions s = .error (.interfaceCycle path) ↔
      checkReferences s = .ok () ∧ checkInterfaceCycles s = .error (.interfaceCycle path) := by
  rw [print_eq_error_iff, check, bind_eq_error_iff,
    or_iff_right (checkReferences_ne_interfaceCycle s path)]
  constructor
  · rintro ⟨_, hreferences, hcycle⟩
    exact ⟨hreferences, hcycle⟩
  · rintro ⟨hreferences, hcycle⟩
    exact ⟨(), hreferences, hcycle⟩

/-- **A resolvable schema is reported to have a cycle exactly if it has one, and what is reported is
real**: a chain of interfaces that closes a cycle, from the first one on from which there is a way
into a cycle. -/
theorem reported_of_print (descriptions : Descriptions) (s : Schema) :
    ((∃ path, print descriptions s = .error (.interfaceCycle path)) ↔
        Resolvable s ∧ HasCycle s) ∧
      ∀ path, print descriptions s = .error (.interfaceCycle path) →
        (PrintError.interfaceCycle path).message =
          "interface implementation cycle: " ++ " -> ".intercalate path ∧ Reported s path := by
  simp only [print_eq_interfaceCycle_iff]
  constructor
  · rw [exists_and_left, checkReferences_eq_ok_iff]
    refine and_congr_right fun _ => ?_
    obtain ⟨hiff, hpath⟩ := checkInterfaceCycles_eq_error_iff s
    rw [← hiff]
    constructor
    · rintro ⟨path, h⟩
      exact ⟨_, h⟩
    · rintro ⟨e, h⟩
      obtain ⟨path, rfl, -⟩ := hpath e h
      exact ⟨path, h⟩
  · rintro path ⟨-, hcycle⟩
    exact ⟨rfl, reported_of_checkInterfaceCycles hcycle⟩

/-- A schema in which two interfaces implement each other, and one before them leads there. -/
def circular : Schema where
  description := none
  query := none
  mutation := none
  subscription := none
  types := .ofList [⟨"Node", none, .interface [] []⟩,
    ⟨"Image", none, .interface ["Node", "Left"] []⟩,
    ⟨"Right", none, .interface ["Node", "Left"] []⟩, ⟨"Left", none, .interface ["Right"] []⟩]
  directives := []

theorem reported_of_print_circular :
    print .shown circular = .error (.interfaceCycle ["Image", "Left", "Right", "Left"]) ∧
      (PrintError.interfaceCycle ["Image", "Left", "Right", "Left"]).message =
        "interface implementation cycle: Image -> Left -> Right -> Left" ∧
      Reported circular ["Image", "Left", "Right", "Left"] := by
  have hreferences : checkReferences circular = .ok () := by decide +kernel
  have hcycles : checkInterfaceCycles circular =
      .error (.interfaceCycle ["Image", "Left", "Right", "Left"]) := by
    have hnames : interfaceNames circular = ["Node", "Image", "Right", "Left"] := by decide +kernel
    have hnode : implementedBy circular "Node" = [] := by decide +kernel
    have himage : implementedBy circular "Image" = ["Node", "Left"] := by decide +kernel
    have hright : implementedBy circular "Right" = ["Node", "Left"] := by decide +kernel
    have hleft : implementedBy circular "Left" = ["Right"] := by decide +kernel
    simp [checkInterfaceCycles, searchAll, search, hnames, hnode, himage, hright, hleft, bind,
      Except.bind]
  have h : print .shown circular =
      .error (.interfaceCycle ["Image", "Left", "Right", "Left"]) :=
    print_eq_interfaceCycle_iff.mpr ⟨hreferences, hcycles⟩
  obtain ⟨hmessage, hreported⟩ := (reported_of_print .shown circular).2 _ h
  exact ⟨h, hmessage.trans (by decide), hreported⟩

end IntrospectSdl.Proofs.Interfaces.Reporting
