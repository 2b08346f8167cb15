import IntrospectSdl.Convert
import IntrospectSdl.Text.Blank
import IntrospectSdl.Command.Arguments
import IntrospectSdl.Command.Directory

/-! # Running a conversion

A run reads the input, converts it and writes the output. The output is touched only after
everything else has succeeded; it is the converted text, which gets a line feed at its end unless it
has one. -/

namespace IntrospectSdl.Command

/-- What is missing from a request. -/
inductive UsageError where
  | noSource
  | noTarget
deriving DecidableEq, Repr

/-- Why a run fails. -/
inductive RunError where
  | usage (error : UsageError)
  | unreadable (path : String) (error : FileError)
  | noSchema (path : String)
  | convert (error : ConvertError)
  | unwritable (path : String) (error : FileError)
deriving DecidableEq, Repr

/-- The error in words. -/
def RunError.message : RunError → String
  | .usage .noSource => "must provide src path"
  | .usage .noTarget => "must provide out path"
  | .unreadable path error => s!"Failed to read {path}: {error.message}"
  | .noSchema path => s!"no schema found in {path}"
  | .convert error => error.message
  | .unwritable path error => s!"Failed to write {path}: {error.message}"

/-! ### Exit statuses -/

/-- How the command ends. -/
inductive ExitStatus where
  | success
  | usage
  | input
  | parse
  | shape
  | print
  | output
deriving DecidableEq, Repr

namespace ExitStatus

/-- The number of the status. -/
def code : ExitStatus → Nat
  | .success => 0
  | .usage => 2
  | .input => 3
  | .parse => 4
  | .shape => 5
  | .print => 6
  | .output => 7

/-- The name of the status. -/
def name : ExitStatus → String
  | .success => "success"
  | .usage => "usage error"
  | .input => "input error"
  | .parse => "parse error"
  | .shape => "schema shape error"
  | .print => "print error"
  | .output => "I/O error"

end ExitStatus

/-- The status of a failed run. -/
def RunError.status : RunError → ExitStatus
  | .usage _ => .usage
  | .unreadable _ _ | .noSchema _ => .input
  | .convert (.notJson _) => .parse
  | .convert (.wrongShape _) | .convert (.wrongReference _) => .shape
  | .convert (.notPrintable _) => .print
  | .unwritable _ _ => .output

/-! ### A run -/

/-- What is to be converted. -/
structure Request where
  src : String
  out : String
  choice : DescriptionChoice
deriving DecidableEq, Repr

/-- The request that options make; both paths have to be given. -/
def Request.of (src out : Option String) (keepDescriptions : Bool) : Except RunError Request :=
  match src, out with
  | none, _ => .error (.usage .noSource)
  | some _, none => .error (.usage .noTarget)
  | some src, some out => .ok ⟨src, out, if keepDescriptions then .keep else .strip⟩

/-- A text that ends with a line feed. -/
def withFinalLineFeed (text : String) : String :=
  if text.toList.getLast? = some '\n' then text else text.push '\n'

/-- The text that is written, from the content of the input. -/
def Request.output (r : Request) (content : ByteArray) : Except RunError String :=
  match String.fromUTF8? content with
  | none => .error (.unreadable r.src .notUtf8)
  | some text => do
    if Text.isBlank text then .error (.noSchema r.src)
    else return withFinalLineFeed (← (convert r.choice text).mapError .convert)

section

variable {m : Type → Type} [Monad m] (files : Files m)

/-- Performs a request: reads, converts and writes last. Gives the number of bytes written. -/
def Request.perform (r : Request) : ExceptT RunError m Nat := do
  let input ← (files.read r.src).adapt (.unreadable r.src)
  let text ← r.output input
  (files.write r.out text.toUTF8).adapt (.unwritable r.out)
  return text.utf8ByteSize

/-- A run from its options, on some files. -/
def runOn (src out : Option String) (keepDescriptions : Bool) : ExceptT RunError m Nat := do
  (← Request.of src out keepDescriptions).perform files

end

/-- A run in a directory: the directory afterwards, and the bytes written or the error. -/
def run (src out : Option String) (keepDescriptions : Bool) (d : Directory) :
    Directory × Except RunError Nat :=
  ((runOn Directory.files src out keepDescriptions).run.run d).swap

end IntrospectSdl.Command
