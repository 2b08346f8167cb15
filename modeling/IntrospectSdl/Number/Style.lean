import IntrospectSdl.Number.Shortest

/-! # Writing floating-point numbers

A number is written with the digits of its shortest decimal. Which powers of ten are written out and
which get an exponent is decided by a `Style`. -/

namespace IntrospectSdl.Number

/-- The decisions of a decimal format. -/
structure Style where
  /-- The least power of the first digit that is written out. -/
  plainFrom : Int
  /-- The greatest power of the first digit that is written out. -/
  plainTo : Int
  /-- What marks a whole number that is written out. -/
  wholeMark : List Char
  /-- The mark before an exponent. -/
  exponentMark : List Char
  /-- The sign of an exponent that is not negative. -/
  plusSign : List Char

/-- Digits with the point after the first `before` of them; zeros fill up either side. -/
def Style.plain (style : Style) (digits : List Char) (before : Int) : List Char :=
  if before ≤ 0 then
    '0' :: '.' :: List.replicate (-before).toNat '0' ++ digits
  else
    let whole := digits.take before.toNat ++ List.replicate (before.toNat - digits.length) '0'
    match digits.drop before.toNat with
    | [] => whole ++ style.wholeMark
    | fraction => whole ++ '.' :: fraction

/-- One digit, the others after the point, and the power of the first digit. -/
def Style.scientific (style : Style) (digits : List Char) (power : Int) : List Char :=
  let mantissa :=
    match digits with
    | first :: second :: rest => first :: '.' :: second :: rest
    | few => few
  let sign := if power < 0 then ['-'] else style.plusSign
  mantissa ++ style.exponentMark ++ sign ++ Nat.toDigits 10 power.natAbs

/-- The text of a finite number. -/
def Style.write (style : Style) (x : Binary64) : String :=
  let decimal := x.shortest
  let digits := Nat.toDigits 10 decimal.digits
  let power := decimal.exponent + (digits.length : Int) - 1
  let size :=
    if style.plainFrom ≤ power ∧ power ≤ style.plainTo then style.plain digits (power + 1)
    else style.scientific digits power
  String.ofList (if x.isNegative then '-' :: size else size)

end IntrospectSdl.Number
