import IntrospectSdl.Json.Reader
import IntrospectSdl.Introspection.FromJson
import IntrospectSdl.Introspection.Import
import IntrospectSdl.Sdl.Printer
import IntrospectSdl.Sdl.Stripping

/-! # Conversion

From the text of an introspection result to the text of its schema: the text is read as JSON, the
JSON as a payload, the payload as a schema, and the schema is printed with its descriptions, which
may then be stripped. The first stage that fails gives the error. -/

namespace IntrospectSdl

/-- Why a text cannot be converted. -/
inductive ConvertError where
  | notJson (error : Json.SyntaxError)
  | wrongShape (error : Introspection.ShapeError)
  | wrongReference (error : Introspection.ImportError)
  | notPrintable (error : Sdl.PrintError)
deriving DecidableEq, Repr

namespace ConvertError

/-- The error in words. -/
def message : ConvertError → String
  | .notJson error => s!"Failed to parse introspection JSON: {error.message}"
  | .wrongShape error => s!"Invalid introspection result: {error.message}"
  | .wrongReference error => s!"Invalid introspection result: {error.message}"
  | .notPrintable error => s!"Failed to print schema: {error.message}"

end ConvertError

/-- The payload that a text holds. -/
def readPayload (text : String) : Except ConvertError Introspection.Payload := do
  let value ← (Json.read text).mapError .notJson
  (Introspection.Payload.read value).mapError .wrongShape

/-- The schema that a text describes. -/
def readSchema (text : String) : Except ConvertError Schema := do
  (← readPayload text).toSchema.mapError .wrongReference

/-- Whether a conversion keeps the descriptions. -/
inductive DescriptionChoice where
  | keep
  | strip
deriving DecidableEq, Repr

/-- A printed text, stripped or not. -/
def DescriptionChoice.apply : DescriptionChoice → List Char → List Char
  | .keep, text => text
  | .strip, text => Sdl.strip text

/-- The schema of an introspection result as text. -/
def convert (choice : DescriptionChoice) (text : String) : Except ConvertError String := do
  let schema ← readSchema text
  let printed ← (Sdl.print .shown schema).mapError .notPrintable
  return String.ofList (choice.apply printed)

end IntrospectSdl
