import IntrospectSdl.Text.Hidden

/-! # Quoted text in messages

A message that quotes a text puts it between double quotes. Inside, the quote and the backslash are
escaped, the common controls have letters, and every other character that is not shown is written as
its code point in lower-case hexadecimal, `\u{200b}`. A single quote stands as it is. -/

namespace IntrospectSdl.Text

/-- The lower-case hexadecimal digits of a number. -/
def hexDigits (n : Nat) : List Char := Nat.toDigits 16 n

/-- How a character stands between double quotes. -/
def quotedChar (c : Char) : List Char :=
  match c with
  | '"' => ['\\', '"']
  | '\\' => ['\\', '\\']
  | '\t' => ['\\', 't']
  | '\n' => ['\\', 'n']
  | '\r' => ['\\', 'r']
  | '\x00' => ['\\', '0']
  | c => if isHidden c then ['\\', 'u', '\x7b'] ++ hexDigits c.toNat ++ ['\x7d'] else [c]

/-- The text between double quotes, with escapes where they are needed. -/
def quoted (text : String) : String :=
  String.ofList ('"' :: text.toList.flatMap quotedChar ++ ['"'])

end IntrospectSdl.Text
