/-! # Lines

Two readings of a text as lines. `lines` cuts after every line feed and keeps it, so that joining
the lines gives the text back. `splitLines` cuts at every line feed and drops it, so that a text
always has one line more than it has line feeds. -/

namespace IntrospectSdl.Text

/-- Puts a character in front of a text that is cut into lines. -/
def consLine (c : Char) : List (List Char) → List (List Char)
  | [] => [[c]]
  | line :: rest => if c = '\n' then [c] :: line :: rest else (c :: line) :: rest

/-- The lines of a text, each with its line feed; only the last may lack one, and none is empty. -/
def lines (text : List Char) : List (List Char) := text.foldr consLine []

@[simp] theorem lines_nil : lines [] = [] := rfl

@[simp] theorem lines_cons (c : Char) (text : List Char) :
    lines (c :: text) = consLine c (lines text) := rfl

theorem flatten_consLine (c : Char) (ls : List (List Char)) :
    (consLine c ls).flatten = c :: ls.flatten := by
  cases ls with
  | nil => rfl
  | cons line rest => by_cases h : c = '\n' <;> simp [consLine, h]

@[simp] theorem flatten_lines (text : List Char) : (lines text).flatten = text := by
  induction text with
  | nil => rfl
  | cons c text ih => simp [flatten_consLine, ih]

/-- Puts a character in front of the pieces between line feeds. -/
def consPiece (c : Char) : List (List Char) → List (List Char)
  | [] => if c = '\n' then [[], []] else [[c]]
  | piece :: rest => if c = '\n' then [] :: piece :: rest else (c :: piece) :: rest

/-- The pieces of a text between its line feeds. -/
def splitLines (text : List Char) : List (List Char) := text.foldr consPiece [[]]

@[simp] theorem splitLines_nil : splitLines [] = [[]] := rfl

@[simp] theorem splitLines_cons (c : Char) (text : List Char) :
    splitLines (c :: text) = consPiece c (splitLines text) := rfl

theorem length_splitLines (text : List Char) :
    (splitLines text).length = text.count '\n' + 1 := by
  induction text with
  | nil => rfl
  | cons c text ih =>
    rw [splitLines_cons]
    cases h : splitLines text with
    | nil => simp [h] at ih
    | cons piece rest =>
      rw [h] at ih
      by_cases hc : c = '\n' <;> simp [consPiece, hc] at ih ⊢ <;> omega

end IntrospectSdl.Text
