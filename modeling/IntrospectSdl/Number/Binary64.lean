/-! # Binary floating-point numbers of 64 bits

A number is kept as its bits, so that two of them are equal exactly when they are the same number
with the same sign. A finite one stands for `± m · 2 ^ q`. -/

namespace IntrospectSdl.Number

/-- A floating-point number, by its bits. -/
structure Binary64 where
  bits : UInt64
deriving DecidableEq, Repr

namespace Binary64

/-- The number that the machine computes with. -/
def toFloat (x : Binary64) : Float := Float.ofBits x.bits

/-- The bits of a machine number. -/
def ofFloat (f : Float) : Binary64 := ⟨f.toBits⟩

/-- Whether the sign bit is set. -/
def isNegative (x : Binary64) : Bool := x.bits >>> 63 == 1

/-- The eleven bits of the exponent. -/
def exponentBits (x : Binary64) : Nat := ((x.bits >>> 52) &&& 0x7FF).toNat

/-- The fifty-two bits of the fraction. -/
def fractionBits (x : Binary64) : Nat := (x.bits &&& 0xFFFFFFFFFFFFF).toNat

/-- The significand `m` of `m · 2 ^ q`. -/
def significand (x : Binary64) : Nat :=
  if x.exponentBits = 0 then x.fractionBits else 0x10000000000000 + x.fractionBits

/-- The power `q` of `m · 2 ^ q`. -/
def power (x : Binary64) : Int :=
  if x.exponentBits = 0 then -1074 else (x.exponentBits : Int) - 1075

/-- Whether the next smaller number is only half a step away: at the bottom of a binade. -/
def isBinadeFloor (x : Binary64) : Bool := x.fractionBits == 0 && x.exponentBits > 1

end Binary64

end IntrospectSdl.Number
