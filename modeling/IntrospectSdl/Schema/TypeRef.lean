/-! # Type references

A reference to a named type, wrapped in list and non-null modifiers. It is written from the inside
out: brackets around the item of a list, and an exclamation mark after what may not be null. -/

namespace IntrospectSdl

/-- A reference to a named type, possibly wrapped. -/
inductive TypeRef where
  | named (name : String)
  | list (item : TypeRef)
  | nonNull (type : TypeRef)
deriving DecidableEq, Repr

namespace TypeRef

/-- The name at the core of the reference. -/
def innermost : TypeRef → String
  | .named name => name
  | .list item => item.innermost
  | .nonNull type => type.innermost

/-- The reference as it is written, character by character. -/
def chars : TypeRef → List Char
  | .named name => name.toList
  | .list item => '[' :: item.chars ++ [']']
  | .nonNull type => type.chars ++ ['!']

/-- The reference as it is written. -/
def text (type : TypeRef) : String := String.ofList type.chars

end TypeRef

end IntrospectSdl
