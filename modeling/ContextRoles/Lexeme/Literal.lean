import ContextRoles.Lexeme.Number

/-! # Character and string literals

A backslash starts an escape: a letter, a code point in decimal, octal or hexadecimal, the name of a
control character, or a letter after a caret. In a string it may also stand for nothing (`\&`) or
enclose blanks that are left out.
-/

namespace ContextRoles.Lexeme

open Parsing

def letterEscapes : List (Char × Char) :=
  [('a', '\x07'), ('b', '\x08'), ('f', '\x0c'), ('n', '\n'), ('r', '\r'), ('t', '\t'),
    ('v', '\x0b'), ('\\', '\\'), ('"', '"'), ('\'', '\'')]

/-- The names of the control characters and of the space. No name follows one of its beginnings. -/
def controlNames : List (String × Char) :=
  [("NUL", '\x00'), ("SOH", '\x01'), ("STX", '\x02'), ("ETX", '\x03'), ("EOT", '\x04'),
    ("ENQ", '\x05'), ("ACK", '\x06'), ("BEL", '\x07'), ("DLE", '\x10'), ("DC1", '\x11'),
    ("DC2", '\x12'), ("DC3", '\x13'), ("DC4", '\x14'), ("NAK", '\x15'), ("SYN", '\x16'),
    ("ETB", '\x17'), ("CAN", '\x18'), ("SUB", '\x1a'), ("ESC", '\x1b'), ("DEL", '\x7f'),
    ("BS", '\x08'), ("HT", '\t'), ("LF", '\n'), ("VT", '\x0b'), ("FF", '\x0c'), ("CR", '\r'),
    ("SO", '\x0e'), ("SI", '\x0f'), ("EM", '\x19'), ("FS", '\x1c'), ("GS", '\x1d'),
    ("RS", '\x1e'), ("US", '\x1f'), ("SP", ' ')]

def maxCodePoint : Nat := 0x10FFFF

/-- The character of a code point. A surrogate, which is no character, gives the replacement. -/
def charOfCodePoint (n : Nat) : Char :=
  if n.isValidChar then Char.ofNat n else '\uFFFD'

/-- The character of a number, where the number is a code point. -/
def character? (n : Int) : Option Char :=
  if 0 ≤ n ∧ n ≤ maxCodePoint then some (charOfCodePoint n.toNat) else none

namespace Literal

def letterEscape : Parser Char :=
  (Parser.oneOf (letterEscapes.map (·.1))).bind fun c => .require (letterEscapes.lookup c)

def numericEscape : Parser Char :=
  (Parser.choice [Number.decimal, (Parser.char 'o').then_ (Number.ofDigits 8 .octalDigit),
    (Parser.char 'x').then_ (Number.ofDigits 16 .hexDigit)]).bind fun n =>
      if maxCodePoint < n then .fail .invalidEscape else .require (character? n)

def nameEscape : Parser Char :=
  .choice (controlNames.map fun (name, c) => (Parser.attempt (.string name)).result c)

def caretEscape : Parser Char :=
  (Parser.char '^').then_
    ((Parser.satisfy fun c => 'A' ≤ c && c ≤ 'Z').bind fun c =>
      .require (character? (c.toNat - 'A'.toNat + 1 : Int)))

/-- What follows the backslash of an escape that stands for a character. -/
def escapeCode : Parser Char :=
  .label (.choice [letterEscape, numericEscape, nameEscape, caretEscape]) "escape code"

def lastExcluded : Char := '\x1a'

def plainChar (mark : Char) : Parser Char :=
  .satisfy fun c => c != mark && c != '\\' && lastExcluded < c

def character : Parser Char :=
  .label (.alt (plainChar '\'') ((Parser.char '\\').then_ escapeCode)) "literal character"

def gap : Parser Char :=
  .label ((Parser.some .space).then_ (.char '\\')) "end of string gap"

def stringItem : Parser (Option Char) :=
  let escape := (Parser.char '\\').then_ <| .choice
    [gap.result none, (Parser.char '&').result none, escapeCode.map some]
  .label (.alt ((plainChar '"').map some) escape) "string character"

def string : Parser String :=
  (Parser.between (.char '"') (.label (.char '"') "end of string character")
    (.many stringItem)).map fun items => String.ofList (items.filterMap id)

end Literal

namespace Language

variable (lang : Language)

def charLiteral : Parser Char :=
  .label (lang.lexeme (.between (.char '\'') (.label (.char '\'') "end of character")
    Literal.character)) "character"

def stringLiteral : Parser String := lang.lexeme (.label Literal.string "literal string")

end Language

end ContextRoles.Lexeme
