import IntrospectSdl.Sdl.PrintError

/-! # Interface cycles

A depth-first search through the interfaces and what they implement. It keeps the path it has come
along and the names it has not yet entered; a name on the path closes a cycle, and a name that is
neither on the path nor still to be entered has been finished without one. Each step enters a name,
drops one that needs no more work, or leaves the innermost name, and so the search ends. -/

namespace IntrospectSdl.Sdl

/-- A name on the path, with the names it implements that are still to be looked at. -/
structure Visit where
  name : String
  pending : List String
deriving DecidableEq, Repr

/-- The work left along a path. -/
def pathWork : (path : List Visit) → Nat
  | [] => 0
  | visit :: outer => visit.pending.length + 1 + pathWork outer

/-- Continues a search from a path, innermost name first, with the names that have not been entered.
The answer is what is left of these, or the names along the path that closes a cycle. -/
def search (implemented : String → List String) (fresh : List String) :
    (path : List Visit) → Except (List String) (List String)
  | [] => .ok fresh
  | ⟨_, []⟩ :: outer => search implemented fresh outer
  | ⟨name, next :: pending⟩ :: outer =>
    if next ∈ fresh then
      search implemented (fresh.erase next) (⟨next, implemented next⟩ :: ⟨name, pending⟩ :: outer)
    else if next = name ∨ next ∈ outer.map Visit.name then
      .error ((next :: name :: outer.map Visit.name).reverse)
    else search implemented fresh (⟨name, pending⟩ :: outer)
termination_by path => (fresh.length, pathWork path)
decreasing_by
  · exact Prod.Lex.right _ (by simp [pathWork])
  · rename_i h
    exact Prod.Lex.left _ _ (by
      have := List.length_pos_of_mem h
      rw [List.length_erase_of_mem h]
      omega)
  · exact Prod.Lex.right _ (by simp [pathWork])

/-- Searches from each name in turn that no earlier search has entered. -/
def searchAll (implemented : String → List String) (names : List String) :
    Except (List String) (List String) :=
  names.foldlM (fun fresh name =>
    if name ∈ fresh then search implemented (fresh.erase name) [⟨name, implemented name⟩]
    else .ok fresh) names

/-- The names of the interfaces of a schema. -/
def interfaceNames (s : Schema) : List String :=
  (s.types.toList.filter fun t => t.kind = .interface).map (·.name)

/-- The interfaces that an interface implements; none for any other name. -/
def implementedBy (s : Schema) (name : String) : List String := (s.types.interface? name).getD []

/-- Reports the first cycle that a search in declaration order meets. -/
def checkInterfaceCycles (s : Schema) : Except PrintError Unit :=
  match searchAll (implementedBy s) (interfaceNames s) with
  | .ok _ => .ok ()
  | .error path => .error (.interfaceCycle path)

end IntrospectSdl.Sdl
