/-! # String literals

A string literal stands between double quotes on one line. The quote and the backslash are escaped,
five controls have letters, and every other control character is written as four hexadecimal digits.
-/

namespace IntrospectSdl.Sdl.StringLiteral

/-- Whether the character is a control: below U+0020, or from U+007F to U+009F. -/
def isControl (c : Char) : Bool := c.toNat < 0x20 || (0x7F ≤ c.toNat && c.toNat ≤ 0x9F)

/-- The upper-case hexadecimal digit of a number below sixteen. -/
def hexDigit (n : Nat) : Char := (Nat.digitChar (n % 16)).toUpper

/-- The last four hexadecimal digits of a number. -/
def fourDigits (n : Nat) : List Char :=
  [hexDigit (n / 0x1000), hexDigit (n / 0x100), hexDigit (n / 0x10), hexDigit n]

/-- How a character is written. -/
def encodeChar (c : Char) : List Char :=
  match c with
  | '"' => ['\\', '"']
  | '\\' => ['\\', '\\']
  | '\x08' => ['\\', 'b']
  | '\t' => ['\\', 't']
  | '\n' => ['\\', 'n']
  | '\x0c' => ['\\', 'f']
  | '\r' => ['\\', 'r']
  | c => if isControl c then ['\\', 'u'] ++ fourDigits c.toNat else [c]

/-- The literal of a text. -/
def encode (text : List Char) : List Char := '"' :: text.flatMap encodeChar ++ ['"']

end IntrospectSdl.Sdl.StringLiteral
