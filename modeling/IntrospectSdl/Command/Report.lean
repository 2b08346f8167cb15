import IntrospectSdl.Command.Run

/-! # What the command says

A successful conversion is told on two lines of the output, unless the command is to be quiet, and
an error on one line of the error output. Where the terminal has colours, some words have them. -/

namespace IntrospectSdl.Command

/-- Where colours are used: in messages, and in the help text. -/
structure Colours where
  messages : Bool
  help : Bool
deriving DecidableEq, Repr

/-- Where colours are used, from the settings of the environment. Being forced wins over being
refused in messages, and being refused wins in the help text; if neither is said, the output has to
be a terminal. -/
def Colours.ofEnvironment (force refuse wish : Option String) (terminal : Bool) : Colours :=
  let forced := force.isSome && force != some "0"
  let wished := terminal && wish != some "0"
  ⟨forced || (refuse.isNone && wished), (refuse.getD "").isEmpty && (forced || wished)⟩

/-- The styles of words. -/
inductive Paint where
  | bold
  | boldRed
  | cyan
  | dimmed
  | green
  | heading
deriving DecidableEq, Repr

/-- The control sequence that begins a style. -/
def Paint.code : Paint → String
  | .bold => "\x1b[1m"
  | .boldRed => "\x1b[1;31m"
  | .cyan => "\x1b[36m"
  | .dimmed => "\x1b[2m"
  | .green => "\x1b[32m"
  | .heading => "\x1b[1m\x1b[4m"

/-- A text in which the style begins again after every control sequence that ends all styles. -/
def Paint.resume (style : Paint) : List Char → List Char
  | '\x1b' :: '[' :: '0' :: 'm' :: rest =>
    '\x1b' :: '[' :: '0' :: 'm' :: style.code.toList ++ style.resume rest
  | c :: rest => c :: style.resume rest
  | [] => []

/-- A text in a style, where colours are used. The style lasts to the end of the text, also if the
text itself ends all styles somewhere. -/
def paint (coloured : Bool) (style : Paint) (text : String) : String :=
  if coloured then style.code ++ String.ofList (style.resume text.toList) ++ "\x1b[0m" else text

/-- The name of the command. -/
def commandName : String := "graphql-sdl"

/-- The version of the command. -/
def versionText : String := s!"{commandName} 0.1.0\n"

/-- The help text. -/
def helpText (coloured : Bool) : String :=
  let heading := paint coloured .heading
  let bold := paint coloured .bold
  "Convert a GraphQL introspection result into description-free SDL\n\n" ++
    heading "Usage:" ++ " " ++ bold commandName ++ " [OPTIONS]\n\n" ++
    heading "Options:" ++ "\n" ++
    "      " ++ bold "--src" ++ " <FILE>         Path to the introspection JSON file " ++
      "(`\x7b\"data\": \x7b\"__schema\": ...\x7d\x7d`)\n" ++
    "      " ++ bold "--out" ++ " <FILE>         Path to write the SDL to " ++
      "(overwritten if it exists)\n" ++
    "      " ++ bold "--keep-descriptions" ++ "  Keep descriptions in the generated SDL\n" ++
    "  " ++ bold "-q" ++ ", " ++ bold "--quiet" ++ "              " ++
      "Suppress all output except errors\n" ++
    "  " ++ bold "-h" ++ ", " ++ bold "--help" ++ "               Print help\n" ++
    "  " ++ bold "-V" ++ ", " ++ bold "--version" ++ "            Print version\n"

/-- A time in seconds, to the nearest hundredth. -/
def elapsedText (milliseconds : Nat) : String :=
  let hundredths := (milliseconds + 5) / 10
  let fraction := hundredths % 100
  s!"{hundredths / 100}.{fraction / 10}{fraction % 10}s"

/-- What the command has said, and how it ended. -/
structure Report where
  status : ExitStatus
  out : String
  err : String
deriving DecidableEq, Repr

/-- The report of a successful conversion. -/
def successReport (coloured quiet : Bool) (path : String) (size : Nat) (elapsed : String) :
    Report :=
  let mark := paint coloured .green "✓"
  let clock := paint coloured .dimmed "⏱"
  let path := paint coloured .cyan path
  let text := s!"{mark} Wrote SDL to {path} ({size} bytes)\n  {clock} {elapsed}\n"
  ⟨.success, if quiet then "" else text, ""⟩

/-- The report of a failed conversion. -/
def failureReport (coloured : Bool) (e : RunError) : Report :=
  let label := paint coloured .boldRed "error:"
  ⟨e.status, "", s!"{label} {e.message}\n"⟩

/-- What is said of arguments that cannot be understood. -/
def unusableText : String :=
  s!"error: the arguments cannot be understood; see {commandName} --help\n"

/-- The report where no conversion is attempted. -/
def haltReport (colours : Colours) : Halt → Report
  | .help => ⟨.success, helpText colours.help, ""⟩
  | .version => ⟨.success, versionText, ""⟩
  | .unusable => ⟨.usage, "", unusableText⟩

/-- The options that the arguments of the command give, once expanded. -/
def optionsOf (arguments : List String) : Except Halt Options :=
  Options.ofArguments (expandArguments (commandName :: arguments)).tail

/-- The report on the command with its arguments, on some files. The time is asked for once the
output is written. -/
def reportOn {m : Type → Type} [Monad m] (files : Files m) (elapsed : m String) (colours : Colours)
    (arguments : List String) : m Report := do
  match optionsOf arguments with
  | .error halt => return haltReport colours halt
  | .ok options =>
    match ← (runOn files options.src options.out options.keepDescriptions).run with
    | .error e => return failureReport colours.messages e
    | .ok size =>
      let path := options.out.getD ""
      return successReport colours.messages options.quiet path size (← elapsed)

/-- The command with its arguments in a directory: the directory afterwards, and the report. -/
def execute (colours : Colours) (arguments : List String) (d : Directory) (elapsed : String) :
    Directory × Report :=
  ((reportOn Directory.files (pure elapsed) colours arguments).run d).swap

end IntrospectSdl.Command
