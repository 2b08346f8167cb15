import IntrospectSdl.Text.Lines

/-! # Removing descriptions

Descriptions are removed from the text of a schema line by line, without reading the schema: printed
descriptions take whole lines. First go the lines that hold one whole block string and nothing else,
then the blocks from a line that opens with a triple quote to the next line that holds only a triple
quote. All other lines are kept as they are. -/

namespace IntrospectSdl.Sdl.Stripping

open IntrospectSdl.Text (lines)

/-- Spaces and tabulations. -/
def isBlank (c : Char) : Bool := c = ' ' || c = '\t'

/-- What follows the spaces and tabulations at the beginning of a line. -/
def unindent (line : List Char) : List Char := line.dropWhile isBlank

/-- What follows a triple quote at the beginning of a line, after spaces and tabulations. -/
def afterOpening (line : List Char) : Option (List Char) :=
  match unindent line with
  | '"' :: '"' :: '"' :: rest => some rest
  | _ => none

/-- What follows the first triple quote that no backslash escapes. -/
def afterClosing : List Char → Option (List Char)
  | '\\' :: '"' :: '"' :: '"' :: rest => afterClosing rest
  | '"' :: '"' :: '"' :: rest => some rest
  | _ :: rest => afterClosing rest
  | [] => none

/-- Whether a line ends here, but for spaces and tabulations: with a line feed, a carriage return
and a line feed, or the end of the text. -/
def endsHere (rest : List Char) : Bool :=
  match unindent rest with
  | [] | ['\n'] | ['\r', '\n'] => true
  | _ => false

/-- Whether a line holds one whole block string and nothing else. -/
def isWholeBlock (line : List Char) : Bool :=
  match afterOpening line >>= afterClosing with
  | some rest => endsHere rest
  | none => false

/-- Whether a line can open a block: it begins with a triple quote and has an end. -/
def isOpening (line : List Char) : Bool :=
  (afterOpening line).isSome && line.getLast? == some '\n'

/-- Whether a line holds only a triple quote. -/
def isClosing (line : List Char) : Bool :=
  match afterOpening line with
  | some rest => endsHere rest
  | none => false

/-- The lines without the blocks among them, after so many lines have been dropped. An opening line
without a closing line after it is kept. -/
def withoutBlocks : (dropped : Nat) → List (List Char) → List (List Char)
  | _, [] => []
  | n + 1, _ :: rest => withoutBlocks n rest
  | 0, line :: rest =>
    if isOpening line then
      match rest.findIdx? isClosing with
      | some k => withoutBlocks (k + 1) rest
      | none => line :: withoutBlocks 0 rest
    else line :: withoutBlocks 0 rest

/-- The lines that are kept. -/
def keptLines (text : List Char) : List (List Char) :=
  withoutBlocks 0 ((lines text).filter fun line => !isWholeBlock line)

end IntrospectSdl.Sdl.Stripping

namespace IntrospectSdl.Sdl

/-- A text without its descriptions. -/
def strip (text : List Char) : List Char := (Stripping.keptLines text).flatten

end IntrospectSdl.Sdl
