import IntrospectSdl.Json.Value
import IntrospectSdl.Json.SyntaxError

/-! # Numerals

A numeral is read one character at a time. Its digits are collected in a significand of 64 bits;
digits of the whole part that no longer fit raise the scale, digits of the fraction that no longer
fit are dropped. A numeral without fraction and exponent whose digits all fit is an integer; every
other one is the floating-point product or quotient of its significand and a power of ten. -/

namespace IntrospectSdl.Json

open IntrospectSdl.Number (Binary64)

/-- How far a numeral has been read. -/
inductive Numeral.Phase where
  /-- The minus sign has been read, and a digit has to follow. -/
  | sign
  /-- The whole part is a zero, after which no digit may follow. -/
  | zero
  /-- In the whole part. -/
  | whole
  /-- In the whole part, beyond the digits that fit. -/
  | beyond
  /-- The point has been read, and a digit has to follow. -/
  | point
  /-- In the fraction. -/
  | fraction
  /-- In the fraction, beyond the digits that fit. -/
  | dropped
  /-- The exponent mark has been read, and a sign or a digit has to follow. -/
  | mark
  /-- The sign of the exponent has been read, and a digit has to follow. -/
  | exponentSign (negative : Bool)
  /-- In the exponent. -/
  | exponent (negative : Bool) (size : Nat)
  /-- In an exponent so large that it makes the number zero. -/
  | vanished
deriving DecidableEq, Repr

/-- A numeral as far as it has been read. -/
structure Numeral where
  negative : Bool
  significand : Nat
  scale : Int
  phase : Numeral.Phase
deriving DecidableEq, Repr

/-- What a character does to a numeral. -/
inductive Numeral.Step where
  /-- The character belongs to the numeral. -/
  | more (numeral : Numeral)
  /-- The numeral ended before the character. -/
  | ended
  /-- The character may not stand here. -/
  | fault (fault : Fault)

namespace Numeral

/-- The largest significand. -/
def capacity : Nat := UInt64.size - 1

/-- The largest size of an exponent. -/
def exponentLimit : Nat := 0x7FFFFFFF

/-- The value of a decimal digit. -/
def digit? (c : Char) : Option Nat := if c.isDigit then some (c.toNat - '0'.toNat) else none

/-- A numeral begins with a minus sign or a digit. -/
def start? (c : Char) : Option Numeral :=
  if c = '-' then some ⟨true, 0, 0, .sign⟩
  else (digit? c).map fun d => ⟨false, d, 0, if d = 0 then .zero else .whole⟩

/-- The point or the exponent mark after digits, or the end. -/
def afterDigits (n : Numeral) (pointAllowed : Bool) (c : Char) : Step :=
  if c = '.' ∧ pointAllowed then .more { n with phase := .point }
  else if c = 'e' ∨ c = 'E' then .more { n with phase := .mark }
  else .ended

/-- One more digit of the exponent. An exponent beyond the limit is refused, unless it can only make
the number zero. -/
def exponentDigit (n : Numeral) (negative : Bool) (size d : Nat) : Step :=
  if size * 10 + d ≤ exponentLimit then
    .more { n with phase := .exponent negative (size * 10 + d) }
  else if n.significand ≠ 0 ∧ negative = false then .fault .numberOutOfRange
  else .more { n with phase := .vanished }

/-- One more digit of the fraction. -/
def fractionDigit (n : Numeral) (d : Nat) : Numeral :=
  if n.significand * 10 + d ≤ capacity then
    { n with significand := n.significand * 10 + d, scale := n.scale - 1, phase := .fraction }
  else { n with phase := .dropped }

/-- Reads one more character. -/
def step (n : Numeral) (c : Char) : Step :=
  match n.phase, digit? c with
  | .sign, some d => .more { n with significand := d, phase := if d = 0 then .zero else .whole }
  | .sign, none => .fault .badNumber
  | .zero, some _ => .fault .badNumber
  | .zero, none => n.afterDigits true c
  | .whole, some d =>
    if n.significand * 10 + d ≤ capacity then
      .more { n with significand := n.significand * 10 + d }
    else .more { n with scale := n.scale + 1, phase := .beyond }
  | .whole, none => n.afterDigits true c
  | .beyond, some _ => .more { n with scale := n.scale + 1 }
  | .beyond, none => n.afterDigits true c
  | .point, some d => .more (n.fractionDigit d)
  | .point, none => .fault .badNumber
  | .fraction, some d => .more (n.fractionDigit d)
  | .fraction, none => n.afterDigits false c
  | .dropped, some _ => .more n
  | .dropped, none => n.afterDigits false c
  | .mark, some d => n.exponentDigit false 0 d
  | .mark, none =>
    if c = '+' then .more { n with phase := .exponentSign false }
    else if c = '-' then .more { n with phase := .exponentSign true }
    else .fault .badNumber
  | .exponentSign negative, some d => n.exponentDigit negative 0 d
  | .exponentSign _, none => .fault .badNumber
  | .exponent negative size, some d => n.exponentDigit negative size d
  | .exponent _ _, none => .ended
  | .vanished, some _ => .more n
  | .vanished, none => .ended

/-- Whether the numeral may end here. -/
def isComplete (n : Numeral) : Bool :=
  match n.phase with
  | .sign | .point | .mark | .exponentSign _ => false
  | _ => true

/-- The largest power of ten that is one step of `scaled`. -/
def stepPower : Nat := 308

/-- The number `10 ^ k`. -/
def powerOfTen (k : Nat) : Float := Float.ofScientific 1 false k

/-- A number times a power of ten, in one product or quotient where the power is within the format
and after quotients by the largest step otherwise; nothing where the product leaves the format. -/
def scaled (f : Float) (k : Int) : Option Float :=
  if k.natAbs ≤ stepPower then
    if 0 ≤ k then
      let product := f * powerOfTen k.natAbs
      if product.isInf then none else some product
    else some (f / powerOfTen k.natAbs)
  else if f == 0 then some f
  else if 0 ≤ k then none
  else scaled (f / powerOfTen stepPower) (k + stepPower)
termination_by k.natAbs
decreasing_by simp only [stepPower] at *; omega

/-- The floating-point number with the sign of the numeral. -/
def signed (n : Numeral) (f : Float) : Number :=
  .real (.ofFloat (if n.negative then -f else f))

/-- The number a whole numeral stands for. Zero with a minus sign and numbers below the 64-bit range
are floating-point. -/
def wholeValue (n : Numeral) : Number :=
  if n.negative = false then .integer n.significand
  else if n.significand = 0 ∨ 0x8000000000000000 < n.significand then
    n.signed n.significand.toUInt64.toFloat
  else .integer (-(n.significand : Int))

/-- The number that a complete numeral stands for; nothing where it is out of range. -/
def value? (n : Numeral) : Option Number :=
  match n.phase with
  | .zero | .whole => some n.wholeValue
  | .vanished => some (n.signed 0)
  | .exponent negative size =>
    let scale := if negative then n.scale - size else n.scale + size
    (scaled n.significand.toUInt64.toFloat scale).map n.signed
  | _ => (scaled n.significand.toUInt64.toFloat n.scale).map n.signed

end Numeral

end IntrospectSdl.Json
