import ContextRoles.Parsing.Choice
import ContextRoles.Text.Blank
import ContextRoles.Text.Lowercase
import ContextRoles.Text.Numeral
import ContextRoles.Text.Quoted
import ContextRoles.Text.Uppercase

/-! # Parsers of characters and literal text -/

namespace ContextRoles.Parsing.Parser

open ContextRoles.Text (quote)

def satisfy (accepts : Char → Bool) : Parser Char := fun s =>
  match s.rest with
  | [] => .failure ⟨.unexpected "end of input", s.position⟩ s
  | c :: _ =>
    if accepts c then .success c (s.advance 1)
    else .failure ⟨.unexpected (quote (String.singleton c)), s.position⟩ s

def char (expected : Char) : Parser Char :=
  label (satisfy (· == expected)) (quote (String.singleton expected))

/-- Reads a literal text, or nothing at all where it does not match. -/
def string (expected : String) : Parser String := fun s =>
  if s.startsWith expected.toList then .success expected (s.advance expected.length)
  else .failure ⟨.expected (quote expected), s.position⟩ s

def oneOf (chars : List Char) : Parser Char := satisfy chars.contains

def noneOf (chars : List Char) : Parser Char := satisfy fun c => !chars.contains c

def isDecimalDigit (c : Char) : Bool := '0' ≤ c && c ≤ '9'

def hexDigitChars : List Char := "0123456789abcdefABCDEF".toList

def octalDigitChars : List Char := "01234567".toList

def anyChar : Parser Char := satisfy fun _ => true

def letter : Parser Char := label (satisfy Text.isLetter) "letter"

def upper : Parser Char := label (satisfy Text.isUppercase) "uppercase letter"

def lower : Parser Char := label (satisfy Text.isLowercase) "lowercase letter"

def alphanumeric : Parser Char := label (satisfy Text.isAlphanumeric) "letter or digit"

def space : Parser Char := label (satisfy Text.isBlank) "space"

def digit : Parser Char := label (satisfy isDecimalDigit) "digit"

def hexDigit : Parser Char := label (oneOf hexDigitChars) "hex digit"

def octalDigit : Parser Char := label (oneOf octalDigitChars) "oct digit"

end ContextRoles.Parsing.Parser
