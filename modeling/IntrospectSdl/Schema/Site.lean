import IntrospectSdl.Schema.Basic

/-! # Sites of references

The places of a schema at which a type is referred to, as messages name them. -/

namespace IntrospectSdl

/-- A place at which a type is referred to. -/
inductive Site where
  | root (operation : Operation)
  | interfaces (type : String)
  | members (union : String)
  | field (type field : String)
  | argument (type field argument : String)
  | inputField (type field : String)
  | directiveArgument (directive argument : String)
deriving DecidableEq, Repr

/-- The place in words. -/
def Site.text : Site → String
  | .root operation => s!"the {operation.keyword} root"
  | .interfaces type => s!"the interfaces of `{type}`"
  | .members type => s!"the members of union `{type}`"
  | .field type name => s!"field `{type}.{name}`"
  | .argument type owner name => s!"argument `{type}.{owner}({name}:)`"
  | .inputField type name => s!"input field `{type}.{name}`"
  | .directiveArgument directive name => s!"argument `@{directive}({name}:)`"

end IntrospectSdl
