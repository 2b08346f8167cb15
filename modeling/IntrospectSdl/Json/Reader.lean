import IntrospectSdl.Json.Numeral

/-! # Reading JSON text

The text is read one character at a time, as a fold: a state is a stack of open containers and, on
top of it, what may come next or the token that has been begun. A fault is noticed at the first
character that cannot continue the text, and its position is the place after the first byte of that
character, or the end of the text.

At most `depthLimit` containers are open at a time. Strings hold no raw control characters, and an
escape may not be half of a surrogate pair. White space is the space, the tabulation, the line feed
and the carriage return. -/

namespace IntrospectSdl.Json

/-- A container whose next part is being read. -/
inductive Frame where
  /-- A list with the items before the one being read, last first. -/
  | list (items : List Value)
  /-- An object with the members before the one being read, and the key of that one. -/
  | object (members : List (String × Value)) (key : String)

/-- Where the reading of a string stands. -/
inductive Escape where
  /-- Outside of escapes. -/
  | none
  /-- After a backslash. -/
  | letter
  /-- Among the four bytes after `\u`: how many have been read, and their value while all of them
  are hexadecimal digits. The first half of a surrogate pair may be waiting for this one. -/
  | code (first : Option Nat) (bytes : Nat) (value : Option Nat)
  /-- The first half of a surrogate pair has been read, and a backslash has to follow. -/
  | pairBackslash (first : Nat)
  /-- The backslash has been read as well, and a `u` has to follow. -/
  | pairLetter (first : Nat)

/-- What may come next between two tokens. -/
inductive Expectation where
  /-- A value has to come. -/
  | value
  /-- The first item of a list, or its end. -/
  | firstItem
  /-- After an item: a comma, or the end of the list. -/
  | afterItem (items : List Value)
  /-- After a comma in a list: an item has to come. -/
  | nextItem (items : List Value)
  /-- The first key of an object, or its end. -/
  | firstKey
  /-- After a member: a comma, or the end of the object. -/
  | afterMember (members : List (String × Value))
  /-- After a comma in an object: a key has to come. -/
  | nextKey (members : List (String × Value))
  /-- After a key: a colon has to come. -/
  | colon (members : List (String × Value)) (key : String)
  /-- After the whole value. -/
  | nothing (value : Value)

/-- A token whose first character has been read. -/
inductive Token where
  /-- A key, whose characters so far are given last first. -/
  | key (members : List (String × Value)) (chars : List Char) (escape : Escape)
  /-- One of `null`, `true` and `false`, with the letters that have to follow. -/
  | literal (letter : Char) (letters : List Char) (value : Value)
  /-- A string, whose characters so far are given last first. -/
  | string (chars : List Char) (escape : Escape)
  /-- A number. -/
  | number (numeral : Numeral)

/-- Where a text is being read. -/
inductive Mode where
  | between (expectation : Expectation)
  | inside (token : Token)

/-- How far a text has been read. -/
structure State where
  position : Position
  frames : List Frame
  mode : Mode

namespace State

/-- So many containers may be open at a time. -/
def depthLimit : Nat := 127

/-- Before the first character. -/
def start : State := ⟨.start, [], .between .value⟩

/-- White space between the parts of a text. -/
def isSpace (c : Char) : Bool := c = ' ' || c = '\n' || c = '\t' || c = '\r'

/-- The open frames and what may come after a whole value. -/
def complete (value : Value) : List Frame → List Frame × Expectation
  | [] => ([], .nothing value)
  | .list items :: frames => (frames, .afterItem (value :: items))
  | .object members key :: frames => (frames, .afterMember (Value.insert key value members))

/-- The mode after a whole value. -/
def completed (value : Value) (frames : List Frame) : List Frame × Mode :=
  let (frames, expectation) := complete value frames
  (frames, .between expectation)

/-- The mode after the first character of a value. -/
def opening (frames : List Frame) (c : Char) : Except Fault Mode :=
  match c with
  | 'n' => .ok (.inside (.literal 'u' ['l', 'l'] .null))
  | 't' => .ok (.inside (.literal 'r' ['u', 'e'] (.bool true)))
  | 'f' => .ok (.inside (.literal 'a' ['l', 's', 'e'] (.bool false)))
  | '"' => .ok (.inside (.string [] .none))
  | '[' => if frames.length < depthLimit then .ok (.between .firstItem) else .error .tooDeep
  | '{' => if frames.length < depthLimit then .ok (.between .firstKey) else .error .tooDeep
  | c =>
    match Numeral.start? c with
    | some numeral => .ok (.inside (.number numeral))
    | none => .error .noValue

/-- What a character does to a string. -/
inductive TextStep where
  /-- The string ended. -/
  | ended
  /-- The string goes on. -/
  | more (chars : List Char) (escape : Escape)

/-- The character that a letter after a backslash stands for. -/
def escaped? (c : Char) : Option Char :=
  match c with
  | '"' => some '"'
  | '\\' => some '\\'
  | '/' => some '/'
  | 'b' => some '\x08'
  | 'f' => some '\x0c'
  | 'n' => some '\n'
  | 'r' => some '\r'
  | 't' => some '\t'
  | _ => none

/-- The value of a hexadecimal digit. -/
def hexDigit? (c : Char) : Option Nat :=
  if c.isDigit then some (c.toNat - '0'.toNat)
  else if 'a' ≤ c ∧ c ≤ 'f' then some (c.toNat - 'a'.toNat + 10)
  else if 'A' ≤ c ∧ c ≤ 'F' then some (c.toNat - 'A'.toNat + 10)
  else none

/-- Whether a code unit is the first half of a surrogate pair. -/
def isFirstHalf (n : Nat) : Bool := 0xD800 ≤ n && n ≤ 0xDBFF

/-- Whether a code unit is the second half of a surrogate pair. -/
def isSecondHalf (n : Nat) : Bool := 0xDC00 ≤ n && n ≤ 0xDFFF

/-- The string after an escape with four digits. -/
def withCode (chars : List Char) (first : Option Nat) (value : Nat) : Except Fault TextStep :=
  match first with
  | none =>
    if isSecondHalf value then .error .loneSurrogate
    else if isFirstHalf value then .ok (.more chars (.pairBackslash value))
    else .ok (.more (Char.ofNat value :: chars) .none)
  | some high =>
    if isSecondHalf value then
      .ok (.more (Char.ofNat (0x10000 + (high - 0xD800) * 0x400 + (value - 0xDC00)) :: chars) .none)
    else .error .loneSurrogate

/-- Reads one more character of a string. Four bytes are taken after `\u` before they are looked at,
so that a fault in them is placed after the fourth. -/
def textStep (position : Position) (chars : List Char) (escape : Escape) (c : Char) :
    Except SyntaxError TextStep :=
  let fail (fault : Fault) : Except SyntaxError TextStep := .error ⟨fault, position.past c⟩
  match escape with
  | .none =>
    if c = '"' then .ok .ended
    else if c = '\\' then .ok (.more chars .letter)
    else if c.toNat < 0x20 then fail .controlCharacter
    else .ok (.more (c :: chars) .none)
  | .letter =>
    if c = 'u' then .ok (.more chars (.code none 0 (some 0)))
    else
      match escaped? c with
      | some e => .ok (.more (e :: chars) .none)
      | none => fail .badEscape
  | .code first bytes value =>
    let next : Option Nat := do return (← value) * 16 + (← hexDigit? c)
    if bytes + c.utf8Size < 4 then .ok (.more chars (.code first (bytes + c.utf8Size) next))
    else
      let place := position.within c (4 - bytes)
      match next with
      | none => .error ⟨.badEscape, place⟩
      | some code => (withCode chars first code).mapError fun fault => ⟨fault, place⟩
  | .pairBackslash first =>
    if c = '\\' then .ok (.more chars (.pairLetter first)) else fail .unfinishedSurrogate
  | .pairLetter first =>
    if c = 'u' then .ok (.more chars (.code (some first) 0 (some 0))) else fail .unfinishedSurrogate

/-- A string from its characters, last first. -/
def text (chars : List Char) : String := String.ofList chars.reverse

/-- Reads one more character between two tokens. -/
def stepBetween (frames : List Frame) (expectation : Expectation) (c : Char) :
    Except Fault (List Frame × Mode) :=
  let value (frames : List Frame) : Except Fault (List Frame × Mode) :=
    (opening frames c).map (frames, ·)
  if isSpace c then .ok (frames, .between expectation)
  else
    match expectation with
    | .value => value frames
    | .firstItem =>
      if c = ']' then .ok (completed (.array []) frames) else value (.list [] :: frames)
    | .afterItem items =>
      if c = ',' then .ok (frames, .between (.nextItem items))
      else if c = ']' then .ok (completed (.array items.reverse) frames)
      else .error .noListComma
    | .nextItem items =>
      if c = ']' then .error .trailingComma else value (.list items :: frames)
    | .firstKey =>
      if c = '"' then .ok (frames, .inside (.key [] [] .none))
      else if c = '}' then .ok (completed (.object []) frames)
      else .error .keyNotString
    | .afterMember members =>
      if c = ',' then .ok (frames, .between (.nextKey members))
      else if c = '}' then .ok (completed (.object members) frames)
      else .error .noObjectComma
    | .nextKey members =>
      if c = '"' then .ok (frames, .inside (.key members [] .none))
      else if c = '}' then .error .trailingComma
      else .error .keyNotString
    | .colon members key =>
      if c = ':' then .ok (.object members key :: frames, .between .value) else .error .noColon
    | .nothing _ => .error .trailingCharacters

/-- Reads one more character inside a token, or the first one after a number. -/
def stepInside (position : Position) (frames : List Frame) (token : Token) (c : Char) :
    Except SyntaxError (List Frame × Mode) :=
  let fail (fault : Fault) : SyntaxError := ⟨fault, position.past c⟩
  match token with
  | .literal letter letters value =>
    if c = letter then
      match letters with
      | [] => .ok (completed value frames)
      | next :: rest => .ok (frames, .inside (.literal next rest value))
    else .error (fail .noLiteral)
  | .string chars escape => do
    match ← textStep position chars escape c with
    | .more chars escape => .ok (frames, .inside (.string chars escape))
    | .ended => .ok (completed (.string (text chars)) frames)
  | .key members chars escape => do
    match ← textStep position chars escape c with
    | .more chars escape => .ok (frames, .inside (.key members chars escape))
    | .ended => .ok (frames, .between (.colon members (text chars)))
  | .number numeral =>
    match numeral.step c with
    | .more numeral => .ok (frames, .inside (.number numeral))
    | .fault fault => .error (fail fault)
    | .ended =>
      match numeral.value? with
      | none => .error ⟨.numberOutOfRange, position⟩
      | some n =>
        let (frames, expectation) := complete (.number n) frames
        (stepBetween frames expectation c).mapError fail

/-- Reads one more character. -/
def step (s : State) (c : Char) : Except SyntaxError State := do
  let (frames, mode) ←
    match s.mode with
    | .between expectation =>
      (stepBetween s.frames expectation c).mapError fun fault => ⟨fault, s.position.past c⟩
    | .inside token => stepInside s.position s.frames token c
  return ⟨s.position.after c, frames, mode⟩

/-- The whole value, or what is missing where a text ends between two tokens. -/
def endBetween : Expectation → Except Fault Value
  | .nothing value => .ok value
  | .firstItem | .afterItem _ => .error .endInList
  | .firstKey | .afterMember _ | .colon _ _ => .error .endInObject
  | .value | .nextItem _ | .nextKey _ => .error .endInValue

/-- The whole value, or what is missing where a text ends inside a token. Only a number can end so.
-/
def endInside (frames : List Frame) : Token → Except Fault Value
  | .string _ _ | .key _ _ _ => .error .endInString
  | .literal _ _ _ => .error .endInValue
  | .number numeral =>
    if numeral.isComplete then
      match numeral.value? with
      | none => .error .numberOutOfRange
      | some n => endBetween (complete (.number n) frames).2
    else .error .endInValue

/-- The value of a text that ends here. -/
def finish (s : State) : Except SyntaxError Value :=
  let result :=
    match s.mode with
    | .between expectation => endBetween expectation
    | .inside token => endInside s.frames token
  result.mapError fun fault => ⟨fault, s.position⟩

end State

/-- Reads a text that holds one JSON value. -/
def read (text : String) : Except SyntaxError Value := do
  (← text.toList.foldlM State.step State.start).finish

end IntrospectSdl.Json
