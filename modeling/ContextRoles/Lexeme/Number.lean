import ContextRoles.Decimal.Nearest
import ContextRoles.Lexeme.WhiteSpace

/-! # Numbers

Whole numbers are decimal, or hexadecimal or octal after a leading zero and a letter. A number with a
point or an exponent is read as a decimal and converted to the nearest double.
-/

namespace ContextRoles.Lexeme

open Parsing

def digitValue (c : Char) : Nat :=
  if '0' ≤ c ∧ c ≤ '9' then c.toNat - 48
  else if 'a' ≤ c ∧ c ≤ 'f' then c.toNat - 87
  else if 'A' ≤ c ∧ c ≤ 'F' then c.toNat - 55
  else 0

/-- The value of a sequence of digits, the most significant first. -/
def digitsValue (base : Nat) (digits : List Char) : Nat :=
  digits.foldl (fun n c => n * base + digitValue c) 0

/-- The number that digits of a base write. No other text writes one. -/
def numeral? (base : Nat) (digits : List Char) : Option Nat :=
  if !digits.isEmpty &&
      digits.all fun c => Parser.hexDigitChars.contains c && digitValue c < base then
    some (digitsValue base digits)
  else none

namespace Number

def ofDigits (base : Nat) (digit : Parser Char) : Parser Nat :=
  (Parser.some digit).bind fun digits => .require (numeral? base digits)

def decimal : Parser Nat := ofDigits 10 .digit

def hexadecimal : Parser Nat := (Parser.oneOf ['x', 'X']).then_ (ofDigits 16 .hexDigit)

def octal : Parser Nat := (Parser.oneOf ['o', 'O']).then_ (ofDigits 8 .octalDigit)

def afterZero : Parser Nat := .choice [hexadecimal, octal, decimal, .pure 0]

def natural : Parser Nat := .alt ((Parser.char '0').then_ afterZero) decimal

def sign : Parser Int :=
  .choice [(Parser.char '-').result (-1), (Parser.char '+').result 1, .pure 1]

def integer (sign : Parser Int) : Parser Int :=
  sign.bind fun factor => natural.map fun (n : Nat) => factor * (n : Int)

def fraction : Parser (List Char) :=
  (Parser.char '.').then_ (.label (.some .digit) "fraction")

def exponent : Parser Int :=
  .label ((Parser.oneOf ['e', 'E']).then_
    (sign.bind fun factor => decimal.map fun (n : Nat) => factor * (n : Int))) "exponent"

/-- A whole part, the digits of a fraction and an exponent as one decimal. -/
def assemble (whole : Nat) (digits : List Char) (exponent : Int) : Decimal :=
  ⟨whole * Nat.pow 10 digits.length + digitsValue 10 digits, exponent - digits.length⟩

/-- The fraction, the exponent or both that follow a whole part. -/
def afterWhole (whole : Nat) : Parser Decimal :=
  .alt
    (fraction.bind fun digits => (Parser.option 0 exponent).map (assemble whole digits))
    (exponent.map (assemble whole []))

def float : Parser Float := (decimal.bind afterWhole).map Decimal.toFloat

end Number

inductive Number where
  | whole (value : Nat)
  | real (value : Float)

namespace Number

def afterWholeReal (whole : Nat) : Parser Number := (afterWhole whole).map fun d => .real d.toFloat

def decimalOrFloat : Parser Number :=
  decimal.bind fun n => .option (.whole n) (afterWholeReal n)

def naturalOrFloat : Parser Number :=
  .alt
    ((Parser.char '0').then_ <| .choice
      [hexadecimal.map .whole, octal.map .whole, decimalOrFloat, afterWholeReal 0, .pure (.whole 0)])
    decimalOrFloat

end Number

namespace Language

variable (lang : Language)

def natural : Parser Nat := .label (lang.lexeme Number.natural) "natural"

def integer : Parser Int :=
  .label (lang.lexeme (Number.integer (lang.lexeme Number.sign))) "integer"

def float : Parser Float := .label (lang.lexeme Number.float) "float"

def naturalOrFloat : Parser Number := .label (lang.lexeme Number.naturalOrFloat) "number"

end Language

end ContextRoles.Lexeme
