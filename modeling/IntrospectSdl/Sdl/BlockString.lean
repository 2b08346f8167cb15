import IntrospectSdl.Text.Lines

/-! # Block strings

A block string stands between triple quotes. A short text of one line stays on the line of its
quotes, and any other is set on lines of its own. Which breaks are written depends on what a reader
of the block would take away: it drops the blank lines at either end, and from all lines but the
first the indentation that they share. -/

namespace IntrospectSdl.Sdl.BlockString

open IntrospectSdl.Text (splitLines)

/-- The triple quote that opens and closes a block. -/
def fence : List Char := ['"', '"', '"']

/-- Line ends as line feeds. -/
def unifyLineEnds : List Char → List Char
  | '\r' :: '\n' :: rest => '\n' :: unifyLineEnds rest
  | '\r' :: rest => '\n' :: unifyLineEnds rest
  | c :: rest => c :: unifyLineEnds rest
  | [] => []

/-- A backslash before every triple quote. -/
def escapeFences : List Char → List Char
  | '"' :: '"' :: '"' :: rest => '\\' :: '"' :: '"' :: '"' :: escapeFences rest
  | c :: rest => c :: escapeFences rest
  | [] => []

/-- Spaces and tabulations indent. -/
def isIndent (c : Char) : Bool := c = ' ' || c = '\t'

/-- Whether a line begins with a space or a tabulation. -/
def isIndented : List Char → Bool
  | c :: _ => isIndent c
  | [] => false

/-- Texts of one line with more characters get lines of their own. -/
def lineLimit : Nat := 70

/-- Which line breaks stand inside the quotes. -/
structure Breaks where
  afterOpening : Bool
  beforeClosing : Bool
deriving DecidableEq, Repr

/-- The breaks of a text whose line ends are line feeds.

Where every line but the first is empty or indented, the first is moved to a line of its own, so
that the others keep their indentation. A quote or a backslash at the end must not touch the closing
quotes. A single line that begins with a blank stays on the line of the opening quotes. -/
def breaks (text : List Char) : Breaks :=
  let lines := splitLines text
  let single := lines.length == 1
  let hanging := lines.length > 1 && lines.tail.all fun line => line.isEmpty || isIndented line
  let endsInFence := ('\\' :: fence).isSuffixOf (escapeFences text)
  let endsInQuote := text.getLast? == some '"' && !endsInFence
  let endsInBackslash := text.getLast? == some '\\'
  let spread := !single || text.length > lineLimit || endsInQuote || endsInBackslash || hanging ||
    endsInFence
  ⟨(spread && !(single && isIndented text)) || hanging, spread⟩

/-- A line feed if there is to be one. -/
def breakIf (there : Bool) : List Char := if there then ['\n'] else []

/-- The block string of a text. -/
def encode (text : List Char) : List Char :=
  let text := unifyLineEnds text
  let breaks := breaks text
  fence ++ breakIf breaks.afterOpening ++ escapeFences text ++ breakIf breaks.beforeClosing ++ fence

/-- A text with an indentation after each of its line feeds. -/
def indentLines (indent : List Char) (text : List Char) : List Char :=
  text.flatMap fun c => if c = '\n' then '\n' :: indent else [c]

end IntrospectSdl.Sdl.BlockString
