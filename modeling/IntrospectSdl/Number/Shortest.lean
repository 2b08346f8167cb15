import IntrospectSdl.Number.Binary64

/-! # Shortest decimals

The decimal with the fewest digits that reads back as a given floating-point number and, among those
with so few digits, the one nearest to it; of two equally near the one with the even last digit.

All arithmetic is exact. The reals that round to `m · 2 ^ q` form an interval around it, whose ends
belong to it when `m` is even. For one digit, two digits and so on, the two neighbours of the number
on the decimal grid of that many digits are tested, and the first grid with a neighbour inside the
interval decides. If any point of a grid lies inside, one of these two does, and on the grid of
seventeen digits one always does. -/

namespace IntrospectSdl.Number

/-- A positive rational, by numerator and denominator. -/
structure Ratio where
  num : Nat
  den : Nat

namespace Ratio

/-- The number `n · 2 ^ q`. -/
def ofBinary (n : Nat) (q : Int) : Ratio := ⟨n * Nat.pow 2 q.toNat, Nat.pow 2 (-q).toNat⟩

/-- The number `n · 10 ^ k`. -/
def ofDecimal (n : Nat) (k : Int) : Ratio := ⟨n * Nat.pow 10 k.toNat, Nat.pow 10 (-k).toNat⟩

/-- The order of two numbers. -/
def compare (a b : Ratio) : Ordering := Ord.compare (a.num * b.den) (b.num * a.den)

/-- How many whole steps of `10 ^ k` fit into the number. -/
def floorAt (a : Ratio) (k : Int) : Nat :=
  a.num * Nat.pow 10 (-k).toNat / (a.den * Nat.pow 10 k.toNat)

/-- The power of ten that the first digit counts: the largest `e` with `10 ^ e ≤ a`. Numbers below
one are looked at down to `10 ^ (-400)`, past the smallest one of the format. -/
def leadingPower (a : Ratio) : Int :=
  if a.den ≤ a.num then
    ((Nat.toDigits 10 (a.num / a.den)).length : Int) - 1
  else
    match (List.range 400).find? fun j => a.den ≤ a.num * Nat.pow 10 j with
    | some j => -(j : Int)
    | none => -400

end Ratio

/-- The decimal `digits · 10 ^ exponent`. -/
structure Decimal where
  digits : Nat
  exponent : Int
deriving DecidableEq, Repr

/-- The number that the decimal stands for. -/
def Decimal.value (d : Decimal) : Ratio := .ofDecimal d.digits d.exponent

/-- The same decimal without trailing zeros, of which at most `limit` are taken. -/
def Decimal.trim (d : Decimal) : (limit : Nat) → Decimal
  | 0 => d
  | limit + 1 =>
    if d.digits % 10 = 0 then Decimal.trim ⟨d.digits / 10, d.exponent + 1⟩ limit else d

namespace Binary64

/-- The size of the number. -/
def value (x : Binary64) : Ratio := .ofBinary x.significand x.power

/-- The middle between the number and its lower neighbour. -/
def lowerEnd (x : Binary64) : Ratio :=
  if x.isBinadeFloor then .ofBinary (4 * x.significand - 1) (x.power - 2)
  else .ofBinary (2 * x.significand - 1) (x.power - 1)

/-- The middle between the number and its upper neighbour. -/
def upperEnd (x : Binary64) : Ratio := .ofBinary (2 * x.significand + 1) (x.power - 1)

/-- Whether a decimal reads back as the number, its sign aside. -/
def readsBack (x : Binary64) (d : Decimal) : Bool :=
  let below := x.lowerEnd.compare d.value
  let above := d.value.compare x.upperEnd
  if x.significand % 2 = 0 then below.isLE && above.isLE else below.isLT && above.isLT

/-- The neighbours of the number on the grid of so many digits, the nearer one first. -/
def neighbours (x : Binary64) (count : Nat) : List Decimal :=
  let k := x.value.leadingPower + 1 - (count : Int)
  let low := x.value.floorAt k
  let lower : Decimal := ⟨low, k⟩
  let upper : Decimal := ⟨low + 1, k⟩
  let middle : Ratio := .ofDecimal (10 * low + 5) (k - 1)
  match x.value.compare middle with
  | .lt => [lower, upper]
  | .gt => [upper, lower]
  | .eq => if low % 2 = 0 then [lower, upper] else [upper, lower]

/-- The shortest decimal of a number's size; zero has the digit 0. -/
def shortest (x : Binary64) : Decimal :=
  if x.significand = 0 then ⟨0, 0⟩
  else
    match ((List.range 17).flatMap fun n => x.neighbours (n + 1)).find? x.readsBack with
    | some d => d.trim 17
    | none => ⟨0, 0⟩

end Binary64

end IntrospectSdl.Number
