/-! # Arguments of the command

The arguments are first expanded, so that the older way of naming the input by a bare `src` still
works, and then read from left to right. The first that asks for help or for the version, or cannot
be understood, decides; otherwise they give the options of a conversion. -/

namespace IntrospectSdl.Command

/-! ### The older style -/

/-- Whether the argument after this one is its value. -/
def takesValue (argument : String) : Bool := argument == "--src" || argument == "--out"

/-- A bare `src` is an option, unless it is the name of the program or the value of the one before.
-/
def expandArgument (previous : Option String) (argument : String) : String :=
  match previous with
  | none => argument
  | some p => if argument = "src" ∧ takesValue p = false then "--src" else argument

/-- Expands arguments, given the expanded one before them. -/
def expandAfter (previous : Option String) : List String → List String
  | [] => []
  | argument :: rest =>
    let expanded := expandArgument previous argument
    expanded :: expandAfter (some expanded) rest

/-- Expands a list of arguments, of which the first is the name of the program. -/
def expandArguments (arguments : List String) : List String := expandAfter none arguments

/-! ### Options -/

/-- The options of a conversion. -/
structure Options where
  src : Option String
  out : Option String
  keepDescriptions : Bool
  quiet : Bool
deriving DecidableEq, Repr

/-- Why no conversion is attempted. -/
inductive Halt where
  | help
  | version
  /-- The arguments cannot be understood. -/
  | unusable
deriving DecidableEq, Repr

/-- Options that have a value. -/
inductive ValueOption where
  | src
  | out
deriving DecidableEq, Repr

/-- Options that have none. -/
inductive Flag where
  | keepDescriptions
  | quiet
  | help
  | version
deriving DecidableEq, Repr

/-- What an argument says. -/
inductive Argument where
  /-- Flags, one after the other. -/
  | flags (flags : List (Option Flag))
  /-- An option with a value, if the argument holds it. -/
  | option (option : ValueOption) (value : Option String)
  /-- The end of the options. -/
  | endOfOptions
  | unknown
deriving DecidableEq, Repr

/-- The flag of a letter. -/
def flagOfLetter? (c : Char) : Option Flag :=
  match c with
  | 'q' => some .quiet
  | 'h' => some .help
  | 'V' => some .version
  | _ => none

/-- What a long option says, by its name and the value after an equals sign. -/
def longOption (name : List Char) (value : Option (List Char)) : Argument :=
  match String.ofList name, value with
  | "src", value => .option .src (value.map String.ofList)
  | "out", value => .option .out (value.map String.ofList)
  | "keep-descriptions", none => .flags [some .keepDescriptions]
  | "quiet", none => .flags [some .quiet]
  | "help", none => .flags [some .help]
  | "version", none => .flags [some .version]
  | _, _ => .unknown

/-- What an argument says. -/
def Argument.of (text : String) : Argument :=
  match text.toList with
  | ['-', '-'] => .endOfOptions
  | '-' :: '-' :: long =>
    let name := long.takeWhile (· ≠ '=')
    match long.dropWhile (· ≠ '=') with
    | [] => longOption name none
    | _ :: value => longOption name (some value)
  | '-' :: first :: letters => .flags ((first :: letters).map flagOfLetter?)
  | _ => .unknown

/-- Whether an argument can be the value of the option before it: a lone dash can, another argument
that begins with a dash cannot. -/
def isValue (text : String) : Bool := text == "-" || text.toList.head? != some '-'

namespace Options

/-- No options. -/
def empty : Options := ⟨none, none, false, false⟩

/-- Sets a flag, which may be set only once. -/
def withFlag (o : Options) : Option Flag → Except Halt Options
  | some .keepDescriptions =>
    if o.keepDescriptions then .error .unusable else .ok { o with keepDescriptions := true }
  | some .quiet => if o.quiet then .error .unusable else .ok { o with quiet := true }
  | some .help => .error .help
  | some .version => .error .version
  | none => .error .unusable

/-- Sets a value, which may be set only once and not be empty. -/
def withValue (o : Options) (option : ValueOption) (value : String) : Except Halt Options :=
  match value.isEmpty, option, o.src, o.out with
  | false, .src, none, _ => .ok { o with src := some value }
  | false, .out, _, none => .ok { o with out := some value }
  | _, _, _, _ => .error .unusable

/-- The options with what further arguments say. -/
def read (o : Options) : List String → Except Halt Options
  | [] => .ok o
  | text :: rest =>
    match Argument.of text, rest with
    | .flags flags, rest => do (← flags.foldlM withFlag o).read rest
    | .option option (some value), rest => do (← o.withValue option value).read rest
    | .option option none, value :: rest =>
      if isValue value then do (← o.withValue option value).read rest else .error .unusable
    | .option _ none, [] => .error .unusable
    | .endOfOptions, [] => .ok o
    | .endOfOptions, _ :: _ => .error .unusable
    | .unknown, _ => .error .unusable

/-- The options that arguments give. -/
def ofArguments (arguments : List String) : Except Halt Options := empty.read arguments

end Options

end IntrospectSdl.Command
