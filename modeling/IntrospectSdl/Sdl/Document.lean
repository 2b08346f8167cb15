import IntrospectSdl.Sdl.BlockString

/-! # Documents

A printed definition is a sequence of pieces: source text, and descriptions that take whole lines in
front of what they describe. The layout is settled when the pieces are made, so that the same
document can be written with its descriptions or without them. -/

namespace IntrospectSdl.Sdl

/-- A part of a printed definition. -/
inductive Piece where
  /-- Source text as it stands. -/
  | source (text : List Char)
  /-- A description on lines of its own, indented by so many spaces. -/
  | description (indent : Nat) (text : List Char)
deriving DecidableEq, Repr

/-- A printed definition. -/
abbrev Document := List Piece

/-- Whether descriptions are written. -/
inductive Descriptions where
  | shown
  | hidden
deriving DecidableEq, Repr

/-- So many spaces. -/
def spaces (indent : Nat) : List Char := List.replicate indent ' '

/-- The lines of a description. -/
def descriptionLines (indent : Nat) (text : List Char) : List Char :=
  spaces indent ++ BlockString.indentLines (spaces indent) (BlockString.encode text) ++ ['\n']

/-- The text of a piece. -/
def Piece.write (descriptions : Descriptions) : Piece → List Char
  | .source text => text
  | .description indent text =>
    match descriptions with
    | .shown => descriptionLines indent text
    | .hidden => []

/-- The text of a definition. -/
def Document.write (descriptions : Descriptions) (document : Document) : List Char :=
  document.flatMap (Piece.write descriptions)

@[simp] theorem Document.write_nil (d : Descriptions) : Document.write d [] = [] := rfl

@[simp] theorem Document.write_cons (d : Descriptions) (piece : Piece) (document : Document) :
    Document.write d (piece :: document) = piece.write d ++ document.write d := rfl

@[simp] theorem Document.write_append (d : Descriptions) (a b : Document) :
    Document.write d (a ++ b) = a.write d ++ b.write d := List.flatMap_append

@[simp] theorem Piece.write_source (d : Descriptions) (text : List Char) :
    (Piece.source text).write d = text := rfl

/-- The text of several definitions, with a blank line between each two. -/
def writeAll (descriptions : Descriptions) (documents : List Document) : List Char :=
  List.intercalate ['\n', '\n'] (documents.map (Document.write descriptions))

end IntrospectSdl.Sdl
