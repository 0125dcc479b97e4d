/-! # Decimals and the nearest double

A decimal is a whole number times a power of ten. Its double is the nearest one, a tie goes to the
even neighbour, and what lies beyond the largest double is infinite. All arithmetic is exact.
-/

namespace ContextRoles

/-- The number `mantissa * 10 ^ exponent`. -/
structure Decimal where
  mantissa : Nat
  exponent : Int := 0
  deriving DecidableEq, Repr

namespace Decimal

/-- The quotient rounded to the nearest whole number; a tie goes to the even one. -/
def roundDiv (num den : Nat) : Nat :=
  let down := num / den
  let twice := 2 * (num % den)
  if twice < den then down
  else if den < twice then down + 1
  else down + down % 2

def scaleBinary (num den : Nat) (exponent : Int) : Nat × Nat :=
  if 0 ≤ exponent then (num * Nat.pow 2 exponent.toNat, den)
  else (num, den * Nat.pow 2 (-exponent).toNat)

/-- The exponent of the greatest power of two that is not above a positive fraction. -/
def binaryLog (num den : Nat) : Int :=
  let guess : Int := (num.log2 : Int) - (den.log2 : Int)
  let scaled := scaleBinary num den (-guess)
  if scaled.1 < scaled.2 then guess - 1 else guess

/-- The exponent of the last binary place of the smallest double. -/
def lowestPlace : Int := -1074

def infinityBits : Nat := 0x7FF * Nat.pow 2 52

def fractionBits (num den : Nat) : Nat :=
  let place := max (binaryLog num den - 52) lowestPlace
  let scaled := scaleBinary num den (-place)
  min ((place - lowestPlace).toNat * Nat.pow 2 52 + roundDiv scaled.1 scaled.2) infinityBits

/-- The bits of the nearest double. Exponents that decide the matter alone are not raised to. -/
def toBits (d : Decimal) : Nat :=
  if d.mantissa = 0 then 0
  else if 310 < d.exponent then infinityBits
  else if d.exponent + (d.mantissa.log2 + 1) < -330 then 0
  else if 0 ≤ d.exponent then fractionBits (d.mantissa * Nat.pow 10 d.exponent.toNat) 1
  else fractionBits d.mantissa (Nat.pow 10 (-d.exponent).toNat)

def toFloat (d : Decimal) : Float := Float.ofBits d.toBits.toUInt64

end Decimal

end ContextRoles
