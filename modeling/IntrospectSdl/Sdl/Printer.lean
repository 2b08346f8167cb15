import IntrospectSdl.Sdl.Layout
import IntrospectSdl.Sdl.References
import IntrospectSdl.Sdl.InterfaceCycle

/-! # Printing a schema

A schema is printed if all its references resolve and its interfaces do not implement each other in
a circle. The check covers types and directives that are left out of the text, too. -/

namespace IntrospectSdl.Sdl

/-- Checks that a schema can be printed. -/
def check (s : Schema) : Except PrintError Unit := do
  checkReferences s
  checkInterfaceCycles s

/-- The text of a schema. -/
def print (descriptions : Descriptions) (s : Schema) : Except PrintError (List Char) := do
  check s
  return writeAll descriptions (documents s)

end IntrospectSdl.Sdl
