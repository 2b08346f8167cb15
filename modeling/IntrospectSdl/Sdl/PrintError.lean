import IntrospectSdl.Schema.Site

/-! # Why a schema cannot be printed

A reference that does not resolve, a reference to a type of the wrong kind, or interfaces that
implement each other in a circle. -/

namespace IntrospectSdl.Sdl

/-- Why a schema cannot be printed. -/
inductive PrintError where
  | unresolved (name : String) (site : Site)
  | rootNotObject (operation : Operation) (name : String)
  | notInterface (type name : String)
  | interfaceCycle (path : List String)
deriving DecidableEq, Repr

namespace PrintError

/-- The place of a reference in words; the members of a union are named by the union. -/
def siteText : Site → String
  | .members type => s!"union `{type}`"
  | site => site.text

/-- The error in words. -/
def message : PrintError → String
  | .unresolved name site => s!"unresolved type `{name}` referenced by {siteText site}"
  | .rootNotObject operation name => s!"the {operation.keyword} root `{name}` is not an object type"
  | .notInterface type name => s!"`{type}` implements `{name}`, which is not an interface"
  | .interfaceCycle path => "interface implementation cycle: " ++ " -> ".intercalate path

end PrintError

end IntrospectSdl.Sdl
