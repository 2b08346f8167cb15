import IntrospectSdl.Schema.Basic
import IntrospectSdl.Sdl.Document
import IntrospectSdl.Sdl.StringLiteral

/-! # The layout of a schema

Each definition of a schema becomes a document. The schema block comes first, if it is needed, then
the directives and then the types, in the order of their declaration. What every service provides is
left out: five scalars, five directives, and the types whose names begin with two underscores. -/

namespace IntrospectSdl.Sdl

/-- The spaces of one step of indentation. -/
def step : Nat := 2

/-- A description, if there is one. -/
def describe (indent : Nat) : Option String → Document
  | none => []
  | some text => [.description indent text.toList]

/-- A source piece. -/
def source (text : String) : Piece := .source text.toList

/-- A literal of a text. -/
def literal (text : String) : List Char := StringLiteral.encode text.toList

/-! ### Members -/

/-- The reason that a deprecation has when none is written. -/
def defaultReason : String := "No longer supported"

/-- The mark of a deprecated member. -/
def deprecationMark : Option Deprecation → List Char
  | none => []
  | some ⟨none⟩ => " @deprecated".toList
  | some ⟨some reason⟩ =>
    if reason = defaultReason then " @deprecated".toList
    else " @deprecated(reason: ".toList ++ literal reason ++ [')']

/-- The default value after an equals sign. -/
def defaultMark : Option String → List Char
  | none => []
  | some value => " = ".toList ++ value.toList

/-- An argument or an input field on its line. -/
def inputValue (v : InputValue) : List Char :=
  v.name.toList ++ ": ".toList ++ v.type.chars ++ defaultMark v.defaultValue ++
    deprecationMark v.deprecation

/-- An argument or an input field on a line of its own, below its description. -/
def inputValueLine (indent : Nat) (v : InputValue) : Document :=
  describe indent v.description ++ [.source (spaces indent ++ inputValue v ++ ['\n'])]

/-- A list of arguments after an element at some indentation. They share a line if none of them has
a description, and otherwise each has a line of its own. -/
def argumentList (indent : Nat) (arguments : List InputValue) : Document :=
  if arguments.isEmpty then []
  else if arguments.all (·.description.isNone) then
    [.source ('(' :: List.intercalate ", ".toList (arguments.map inputValue) ++ [')'])]
  else
    source "(\n" :: arguments.flatMap (inputValueLine (indent + step)) ++
      [.source (spaces indent ++ [')'])]

/-- A field on its lines. -/
def fieldLines (f : Field) : Document :=
  describe step f.description ++ [.source (spaces step ++ f.name.toList)] ++
    argumentList step f.arguments ++
    [.source (": ".toList ++ f.type.chars ++ deprecationMark f.deprecation ++ ['\n'])]

/-- An enumeration value on its lines. -/
def enumValueLines (v : EnumValue) : Document :=
  describe step v.description ++
    [.source (spaces step ++ v.name.toList ++ deprecationMark v.deprecation ++ ['\n'])]

/-- Members in braces, or nothing if there are none. -/
def block (members : List Document) : Document :=
  if members.isEmpty then [] else source " \x7b\n" :: members.flatten ++ [source "\x7d"]

/-- The interfaces after `implements`, or nothing if there are none. -/
def implementsMark (interfaces : List String) : List Char :=
  if interfaces.isEmpty then []
  else " implements ".toList ++ List.intercalate " & ".toList (interfaces.map String.toList)

/-! ### Definitions -/

/-- The keyword that opens a definition of a type. -/
def keyword : TypeKind → String
  | .scalar => "scalar "
  | .object => "type "
  | .interface => "interface "
  | .union => "union "
  | .enum => "enum "
  | .inputObject => "input "

/-- What follows the name of a type. -/
def bodyDocument : TypeBody → Document
  | .scalar none => []
  | .scalar (some url) => [.source (" @specifiedBy(url: ".toList ++ literal url ++ [')'])]
  | .object interfaces fields | .interface interfaces fields =>
    .source (implementsMark interfaces) :: block (fields.map fieldLines)
  | .union members =>
    if members.isEmpty then []
    else [.source (" = ".toList ++ List.intercalate " | ".toList (members.map String.toList))]
  | .enum values => block (values.map enumValueLines)
  | .inputObject oneOf fields =>
    .source (if oneOf then " @oneOf".toList else []) :: block (fields.map (inputValueLine step))

/-- The definition of a type. -/
def typeDocument (t : TypeDefinition) : Document :=
  describe 0 t.description ++
    .source ((keyword t.kind).toList ++ t.name.toList) :: bodyDocument t.body

/-- The definition of a directive. -/
def directiveDocument (d : Directive) : Document :=
  describe 0 d.description ++ .source ("directive @".toList ++ d.name.toList) ::
    argumentList 0 d.arguments ++
    [.source ((if d.repeatable then " repeatable".toList else []) ++ " on ".toList ++
      List.intercalate " | ".toList (d.locations.map (·.name.toList)))]

/-- The line of an operation's root type. -/
def rootLine (s : Schema) (operation : Operation) : List Char :=
  match s.root operation with
  | none => []
  | some name => spaces step ++ operation.keyword.toList ++ ": ".toList ++ name.toList ++ ['\n']

/-- Whether every root type has its conventional name. -/
def hasConventionalRoots (s : Schema) : Bool :=
  Operation.all.all fun operation =>
    match s.root operation with
    | none => true
    | some name => name == operation.conventionalRoot

/-- Whether the schema block is written: there is a root type, and a name or the description to
tell. -/
def needsSchemaBlock (s : Schema) : Bool :=
  Operation.all.any (fun operation => (s.root operation).isSome) &&
    !(hasConventionalRoots s && s.description.isNone)

/-- The schema block. -/
def schemaDocument (s : Schema) : Document :=
  describe 0 s.description ++
    [.source ("schema \x7b\n".toList ++ Operation.all.flatMap (rootLine s) ++ "\x7d".toList)]

/-! ### What is printed -/

/-- The scalars that every service provides. -/
def builtInScalars : List String := ["Int", "Float", "String", "Boolean", "ID"]

/-- The directives that every service provides. -/
def builtInDirectives : List String := ["skip", "include", "deprecated", "specifiedBy", "oneOf"]

/-- Whether a type of this name is left out. -/
def isBuiltInType (name : String) : Bool :=
  "__".toList.isPrefixOf name.toList || name ∈ builtInScalars

/-- Whether a directive of this name is left out. -/
def isBuiltInDirective (name : String) : Bool := name ∈ builtInDirectives

/-- The types that are printed. -/
def printedTypes (s : Schema) : List TypeDefinition :=
  s.types.toList.filter fun t => !isBuiltInType t.name

/-- The directives that are printed. -/
def printedDirectives (s : Schema) : List Directive :=
  s.directives.filter fun d => !isBuiltInDirective d.name

/-- The definitions of a schema, in order. -/
def documents (s : Schema) : List Document :=
  (if needsSchemaBlock s then [schemaDocument s] else []) ++
    (printedDirectives s).map directiveDocument ++ (printedTypes s).map typeDocument

end IntrospectSdl.Sdl
