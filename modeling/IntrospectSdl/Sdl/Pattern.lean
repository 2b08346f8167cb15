/-! # Text patterns

Patterns over characters, matched with preference: of two alternatives the first is tried first, and
a repetition takes as much as it can, or as little if it is reluctant. A match is sought from left
to right, and where several begin at one place the preferred one counts. `removeAll` removes the
matches, which do not overlap. -/

namespace IntrospectSdl.Sdl

/-- A pattern. -/
inductive Pattern where
  /-- Nothing. -/
  | empty
  /-- One character of a class. -/
  | one (belongs : Char → Bool)
  /-- The place at the start of the text or after a line feed. -/
  | lineStart
  /-- The place at the end of the text or before a line feed. -/
  | lineEnd
  /-- One pattern after another. -/
  | seq (first second : Pattern)
  /-- One pattern or another. -/
  | alt (first second : Pattern)
  /-- A pattern any number of times. -/
  | many (reluctant : Bool) (pattern : Pattern)

/-- A place in a text: whether a line starts there, and what follows. -/
structure Cursor where
  atLineStart : Bool
  rest : List Char
deriving DecidableEq, Repr

namespace Pattern

/-- One given character. -/
def char (c : Char) : Pattern := .one (· == c)

/-- Patterns one after another. -/
def sequence : List Pattern → Pattern
  | [] => .empty
  | [p] => p
  | p :: rest => .seq p (sequence rest)

/-- A given text. -/
def text (chars : List Char) : Pattern := sequence (chars.map char)

/-- A pattern or nothing, preferably the pattern. -/
def optional (p : Pattern) : Pattern := .alt p .empty

/-- A pattern at least once, preferably often. -/
def atLeastOnce (p : Pattern) : Pattern := .seq p (.many false p)

/-- The places at which a repetition of at most so many rounds can end, by preference. A round that
takes nothing is not made. -/
def rounds (reluctant : Bool) (round : Cursor → List Cursor) : Nat → Cursor → List Cursor
  | 0, c => [c]
  | n + 1, c =>
    let further := ((round c).filter fun d => d.rest.length < c.rest.length).flatMap
      (rounds reluctant round n)
    if reluctant then c :: further else further ++ [c]

/-- The places at which a match can end, by preference. -/
def ends : Pattern → Cursor → List Cursor
  | .empty, c => [c]
  | .one belongs, c =>
    match c.rest with
    | x :: rest => if belongs x then [⟨x == '\n', rest⟩] else []
    | [] => []
  | .lineStart, c => if c.atLineStart then [c] else []
  | .lineEnd, c =>
    match c.rest with
    | [] => [c]
    | x :: _ => if x = '\n' then [c] else []
  | .seq p q, c => (p.ends c).flatMap q.ends
  | .alt p q, c => p.ends c ++ q.ends c
  | .many reluctant p, c => rounds reluctant p.ends c.rest.length c

/-- How many characters the preferred match at a place takes; none if there is no match. -/
def matchLength (p : Pattern) (c : Cursor) : Nat :=
  match p.ends c with
  | [] => 0
  | e :: _ => c.rest.length - e.rest.length

/-- What is left of a text, given how much of it belongs to a match that began before. -/
def removeFrom (p : Pattern) : (taken : Nat) → (atLineStart : Bool) → List Char → List Char
  | _, _, [] => []
  | n + 1, _, x :: rest => p.removeFrom n (x == '\n') rest
  | 0, atLineStart, x :: rest =>
    match p.matchLength ⟨atLineStart, x :: rest⟩ with
    | 0 => x :: p.removeFrom 0 (x == '\n') rest
    | n + 1 => p.removeFrom n (x == '\n') rest

/-- A text without the matches of a pattern. -/
def removeAll (p : Pattern) (text : List Char) : List Char := p.removeFrom 0 true text

end Pattern

end IntrospectSdl.Sdl
