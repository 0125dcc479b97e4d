import ContextRoles.Decimal.Nearest

/-! # The shortest decimal of a double

Of the decimals that a double is nearest to, those with the fewest digits, and of these the one nearest
to the double. They are searched on the decimal grids of one digit, two digits and so on; a grid
that has a point in the interval of reals around the double has a neighbour of the double in it.
-/

namespace ContextRoles.Decimal

/-- A positive double with the bounds of the reals that are rounded to it, all over one denominator. -/
structure Interval where
  low : Nat
  value : Nat
  high : Nat
  den : Nat
  /-- Whether the bounds themselves are rounded to the double. -/
  closed : Bool

/-- The interval of a double by its significand and binary exponent. Below a power of two the
neighbour is half as far away, the smallest exponent excepted. -/
def Interval.ofBinary (significand : Nat) (exponent : Int) : Interval :=
  let below := if significand = Nat.pow 2 52 ∧ lowestPlace < exponent then 1 else 2
  let scaled := scaleBinary 1 1 (exponent - 2)
  { low := (4 * significand - below) * scaled.1
    value := 4 * significand * scaled.1
    high := (4 * significand + 2) * scaled.1
    den := scaled.2
    closed := significand % 2 = 0 }

def scaleDecimal (num den : Nat) (exponent : Int) : Nat × Nat :=
  if 0 ≤ exponent then (num, den * Nat.pow 10 exponent.toNat)
  else (num * Nat.pow 10 (-exponent).toNat, den)

def digitCount (n : Nat) : Nat := (Nat.toDigits 10 n).length

/-- The exponent of the greatest power of ten that is not above a positive fraction. -/
def decimalLog (num den : Nat) : Int :=
  if den ≤ num then (digitCount (num / den) : Int) - 1
  else -(digitCount ((den + num - 1) / num - 1) : Int)

namespace Interval

variable (i : Interval)

def holds (exponent : Int) (n : Nat) : Bool :=
  let low := scaleDecimal i.low i.den exponent
  let high := scaleDecimal i.high i.den exponent
  if i.closed then low.1 ≤ n * low.2 && n * high.2 ≤ high.1
  else low.1 < n * low.2 && n * high.2 < high.1

/-- The nearer of two points beside the double on a grid; of two that are equally near the even one. -/
def nearer (exponent : Int) (down : Nat) : Nat :=
  let (num, den) := scaleDecimal i.value i.den exponent
  let twice := 2 * (num - down * den)
  if twice < den then down
  else if den < twice then down + 1
  else down + down % 2

/-- The point of a grid that is rounded to the double and nearest to it. -/
def onGrid? (exponent : Int) : Option Decimal :=
  let scaled := scaleDecimal i.value i.den exponent
  let down := scaled.1 / scaled.2
  match i.holds exponent down, i.holds exponent (down + 1) with
  | true, true => some ⟨i.nearer exponent down, exponent⟩
  | true, false => some ⟨down, exponent⟩
  | false, true => some ⟨down + 1, exponent⟩
  | false, false => none

def shortest : Decimal :=
  let top := decimalLog i.value i.den
  let grids := (List.range 17).map fun n => top - Int.ofNat n
  (grids.findSome? i.onGrid?).getD ⟨0, 0⟩

end Interval

def trim (d : Decimal) : Decimal :=
  let digits := Nat.toDigits 10 d.mantissa
  let zeros := (digits.reverse.takeWhile (· == '0')).length
  if d.mantissa = 0 then d else ⟨d.mantissa / Nat.pow 10 zeros, d.exponent + Int.ofNat zeros⟩

/-- The shortest decimal of a finite double by the lower bits, its sign aside. -/
def ofMagnitude (bits : Nat) : Decimal :=
  let exponent : Nat := bits / Nat.pow 2 52
  let fraction := bits % Nat.pow 2 52
  if bits = 0 then ⟨0, 0⟩
  else if exponent = 0 then (Interval.ofBinary fraction lowestPlace).shortest.trim
  else
    let place := lowestPlace + ((exponent : Int) - 1)
    (Interval.ofBinary (Nat.pow 2 52 + fraction) place).shortest.trim

/-- Which powers of ten are written without an exponent, and how wide an exponent is at least. -/
structure Layout where
  firstPositional : Int
  pastPositional : Int
  exponentWidth : Nat

/-- Numbers from a ten-thousandth up to 10^16 have no exponent; others have one of two digits. -/
def plainLayout : Layout := ⟨-4, 16, 2⟩

/-- The text of a decimal, with a point even where nothing follows it. -/
def render (layout : Layout) (d : Decimal) : String :=
  let digits := Nat.toDigits 10 d.mantissa
  let top : Int := d.exponent + digits.length - 1
  if d.mantissa = 0 then "0.0"
  else if layout.firstPositional ≤ top ∧ top < layout.pastPositional then
    if top < 0 then
      "0." ++ String.ofList (List.replicate (-top - 1).toNat '0' ++ digits)
    else
      let whole := (top + 1).toNat
      let padded := digits ++ List.replicate (whole - digits.length) '0'
      let after := padded.drop whole
      String.ofList (padded.take whole ++ '.' :: if after.isEmpty then ['0'] else after)
  else
    let exponentDigits := Nat.toDigits 10 top.natAbs
    let padding := List.replicate (layout.exponentWidth - exponentDigits.length) '0'
    let point := if digits.length = 1 then [] else '.' :: digits.drop 1
    String.ofList (digits.take 1 ++ point ++ 'e' :: (if top < 0 then '-' else '+') ::
      (padding ++ exponentDigits))

end Decimal

def floatText (x : Float) : String :=
  if x.isNaN then "nan"
  else
    let bits := x.toBits.toNat
    let sign := if Nat.pow 2 63 ≤ bits then "-" else ""
    let magnitude := bits % Nat.pow 2 63
    if Decimal.infinityBits ≤ magnitude then sign ++ "inf"
    else sign ++ (Decimal.ofMagnitude magnitude).render Decimal.plainLayout

end ContextRoles
