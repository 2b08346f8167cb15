import IntrospectSdl.Sdl.Pattern

/-! # Patterns of descriptions

The lines of a description as two patterns: a block string that opens and closes on one line, and
lines from one that opens a block to the first that holds only a triple quote. -/

namespace IntrospectSdl.Sdl.DescriptionPattern

open Pattern

/-- Spaces and tabulations. -/
def blanks : Pattern := .many false (.one fun c => c == ' ' || c == '\t')

/-- A triple quote. -/
def fence : Pattern := text ['"', '"', '"']

/-- The end of a line, with its line feed unless the text ends there. -/
def lineBreak : Pattern := .alt (.seq (optional (char '\r')) (char '\n')) .lineEnd

/-- Up to two quotes. -/
def fewQuotes : Pattern := optional (.seq (char '"') (optional (char '"')))

/-- One backslash or more. -/
def backslashes : Pattern := atLeastOnce (char '\\')

/-- A part of a block string's content: quotes that do not close it, backslashes that do not escape,
and then a plain character or an escaped triple quote. -/
def contentPart : Pattern :=
  sequence [fewQuotes, .many false (.seq backslashes fewQuotes),
    .alt (.one fun c => c != '"' && c != '\\' && c != '\n') (.seq backslashes fence)]

/-- A line with one whole block string and nothing else. -/
def wholeBlock : Pattern :=
  sequence [.lineStart, blanks, fence, .many false contentPart, fence, blanks, lineBreak]

/-- A line without its line feed. -/
def lineContent : Pattern := .many false (.one (· != '\n'))

/-- An opening line, the lines after it, and the first closing line. -/
def spreadBlock : Pattern :=
  sequence [.lineStart, blanks, fence, lineContent, char '\n',
    .many true (.seq lineContent (char '\n')), blanks, fence, blanks, lineBreak]

/-- A text without the lines of its descriptions: first those on one line, then those on several. -/
def removeDescriptions (text : List Char) : List Char :=
  spreadBlock.removeAll (wholeBlock.removeAll text)

end IntrospectSdl.Sdl.DescriptionPattern
