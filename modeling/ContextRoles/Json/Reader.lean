import ContextRoles.Json.Value
import ContextRoles.Lexeme.Number
import ContextRoles.Model.OrderedMap

/-! # Reading JSON

The grammar of JSON with the names of the doubles that are no numbers. An error tells what was expected,
or what is wrong with a string, and where.
-/

namespace ContextRoles

open Lexeme (digitValue digitsValue)

inductive JsonFault where
  | byteOrderMark
  | extraData
  | expectedValue
  | expectedKey
  | expectedColon
  | expectedComma
  | unterminatedString
  | controlCharacter
  | invalidEscape
  | invalidUnicodeEscape
  deriving DecidableEq, Repr

def JsonFault.message : JsonFault → String
  | byteOrderMark => "Unexpected UTF-8 BOM (decode using utf-8-sig)"
  | extraData => "Extra data"
  | expectedValue => "Expecting value"
  | expectedKey => "Expecting property name enclosed in double quotes"
  | expectedColon => "Expecting ':' delimiter"
  | expectedComma => "Expecting ',' delimiter"
  | unterminatedString => "Unterminated string starting at"
  | controlCharacter => "Invalid control character at"
  | invalidEscape => "Invalid \\escape"
  | invalidUnicodeEscape => "Invalid \\uXXXX escape"

structure JsonError where
  fault : JsonFault
  offset : Nat
  deriving DecidableEq, Repr

def JsonError.describe (e : JsonError) (text : String) : String :=
  let before := text.toList.take e.offset
  let line := before.count '\n' + 1
  let column := (before.reverse.takeWhile (· != '\n')).length + 1
  s!"{e.fault.message}: line {line} column {column} (char {e.offset})"

namespace Json

/-- A place in a document: what is left, and how many characters came before. -/
structure Cursor where
  rest : List Char
  offset : Nat := 0

abbrev Read (α : Type) := Except JsonError (α × Cursor)

namespace Cursor

def advance (c : Cursor) (count : Nat) : Cursor := ⟨c.rest.drop count, c.offset + count⟩

def fault {α : Type} (c : Cursor) (f : JsonFault) : Except JsonError α := .error ⟨f, c.offset⟩

def isBlank (c : Char) : Bool := c = ' ' || c = '\t' || c = '\n' || c = '\r'

def skipBlanks (c : Cursor) : Cursor := c.advance (c.rest.takeWhile isBlank).length

end Cursor

/-! ## Strings -/

def hexNumber? (digits : List Char) : Option Nat :=
  if digits.all fun c => ('0' ≤ c && c ≤ '9') || ('a' ≤ c && c ≤ 'f') || ('A' ≤ c && c ≤ 'F') then
    some (digitsValue 16 digits)
  else none

def isHighSurrogate (n : Nat) : Bool := 0xD800 ≤ n && n < 0xDC00

def isLowSurrogate (n : Nat) : Bool := 0xDC00 ≤ n && n < 0xE000

/-- A code point as a character; a lone surrogate, which is no character, gives the replacement. -/
def charOf (n : Nat) : Char := if n.isValidChar then Char.ofNat n else '\uFFFD'

def letterEscape? (c : Char) : Option Char :=
  [('"', '"'), ('\\', '\\'), ('/', '/'), ('b', '\x08'), ('f', '\x0c'), ('n', '\n'), ('r', '\r'),
    ('t', '\t')].lookup c

/-- The second half of a surrogate pair that starts here. There has to be something after it. -/
def pairedSurrogate? : Cursor → Except JsonError (Option Nat)
  | ⟨'\\' :: 'u' :: a :: b :: c :: d :: _ :: _, offset⟩ =>
    match hexNumber? [a, b, c, d] with
    | some n => .ok (if isLowSurrogate n then some n else none)
    | none => .error ⟨.invalidUnicodeEscape, offset + 1⟩
  | _ => .ok none

/-- A character of four digits, which stand at the cursor, and how many characters it takes. -/
def unicodeEscape (at_ : Cursor) : Except JsonError (Char × Nat) :=
  if at_.rest.length ≤ 4 then .error ⟨.invalidUnicodeEscape, at_.offset - 1⟩
  else
    match hexNumber? (at_.rest.take 4) with
    | none => .error ⟨.invalidUnicodeEscape, at_.offset - 1⟩
    | some n =>
      if isHighSurrogate n then do
        match ← pairedSurrogate? (at_.advance 4) with
        | some m => pure (charOf (0x10000 + (n - 0xD800) * 0x400 + (m - 0xDC00)), 10)
        | none => pure (charOf n, 4)
      else .ok (charOf n, 4)

/-- The character of an escape whose backslash was read, and how many characters it takes. -/
def escape (opened : Nat) (at_ : Cursor) : Except JsonError (Char × Nat) :=
  match at_.rest with
  | [] => .error ⟨.unterminatedString, opened⟩
  | 'u' :: _ => (unicodeEscape (at_.advance 1)).map fun (c, count) => (c, count + 1)
  | c :: _ =>
    match letterEscape? c with
    | some e => .ok (e, 1)
    | none => .error ⟨.invalidEscape, at_.offset - 1⟩

/-- The rest of a string that was opened at an offset, after the characters in `done`, the last one
first. -/
def stringFrom (opened : Nat) (done : List Char) (rest : List Char) (offset : Nat) :
    Read String :=
  match rest with
  | [] => .error ⟨.unterminatedString, opened⟩
  | '"' :: rest => .ok (String.ofList done.reverse, ⟨rest, offset + 1⟩)
  | '\\' :: rest =>
    match escape opened ⟨rest, offset + 1⟩ with
    | .error e => .error e
    | .ok (c, count) => stringFrom opened (c :: done) (rest.drop count) (offset + 1 + count)
  | c :: rest =>
    if c.toNat ≤ 0x1F then .error ⟨.controlCharacter, offset⟩
    else stringFrom opened (c :: done) rest (offset + 1)
termination_by rest.length
decreasing_by all_goals (simp only [List.length_drop, List.length_cons]; omega)

def string (at_ : Cursor) : Read String :=
  stringFrom at_.offset [] (at_.rest.drop 1) (at_.offset + 1)

/-! ## Numbers -/

def isDigit (c : Char) : Bool := '0' ≤ c && c ≤ '9'

/-- The digits of a whole part: a zero alone, or digits that do not start with one. -/
def wholeDigits : List Char → List Char
  | '0' :: _ => ['0']
  | text => text.takeWhile isDigit

def fractionDigits : List Char → List Char
  | '.' :: text => text.takeWhile isDigit
  | _ => []

def exponentPart? : List Char → Option (Int × Nat)
  | e :: text =>
    if e = 'e' ∨ e = 'E' then
      let (sign, marks) : Int × Nat := match text with
        | '-' :: _ => (-1, 1)
        | '+' :: _ => (1, 1)
        | _ => (1, 0)
      let digits := (text.drop marks).takeWhile isDigit
      if digits.isEmpty then none
      else some (sign * (digitsValue 10 digits : Int), 1 + marks + digits.length)
    else none
  | [] => none

/-- The number at the beginning of a text and how many characters it takes. A point or an exponent
that no digit follows is not part of it. -/
def number? (text : List Char) : Option (JsonValue × Nat) :=
  let negative := text.head? = some '-'
  let signed : Nat := if negative then 1 else 0
  let whole := wholeDigits (text.drop signed)
  if whole.isEmpty then none
  else
    let afterWhole := text.drop (signed + whole.length)
    let fraction := fractionDigits afterWhole
    let pointed := if fraction.isEmpty then 0 else fraction.length + 1
    let exponent := exponentPart? (afterWhole.drop pointed)
    let count := signed + whole.length + pointed + ((exponent.map Prod.snd).getD 0)
    if fraction.isEmpty && exponent.isNone then
      let n : Int := digitsValue 10 whole
      some (.int (if negative then -n else n), count)
    else
      let d : Decimal :=
        ⟨digitsValue 10 (whole ++ fraction), (exponent.map Prod.fst).getD 0 - fraction.length⟩
      some (.float (if negative then -d.toFloat else d.toFloat), count)

def literals : List (String × JsonValue) :=
  [("null", .null), ("true", .bool true), ("false", .bool false), ("NaN", .float (0 / 0)),
    ("Infinity", .float (1 / 0)), ("-Infinity", .float (-1 / 0))]

def scalar (at_ : Cursor) : Read JsonValue :=
  match literals.find? fun (name, _) => name.toList.isPrefixOf at_.rest with
  | some (name, value) => .ok (value, at_.advance name.length)
  | none =>
    match number? at_.rest with
    | some (value, count) => .ok (value, at_.advance count)
    | none => at_.fault .expectedValue

/-! ## Documents -/

mutual

/-- The value at the cursor. Of two steps one reads something, so fuel twice as long as
the text suffices. -/
def value : Nat → Cursor → Read JsonValue
  | 0, at_ => at_.fault .expectedValue
  | fuel + 1, at_ =>
    match at_.rest with
    | '"' :: _ => (string at_).map fun (s, next) => (.str s, next)
    | '[' :: _ =>
      let inner := (at_.advance 1).skipBlanks
      if inner.rest.head? = some ']' then .ok (.arr [], inner.advance 1)
      else items fuel [] inner
    | '\x7b' :: _ =>
      let inner := (at_.advance 1).skipBlanks
      if inner.rest.head? = some '\x7d' then .ok (.obj [], inner.advance 1)
      else members fuel [] inner
    | _ => scalar at_

/-- The items of an array from the cursor on, after those in `done`, the last one first. -/
def items : Nat → List JsonValue → Cursor → Read JsonValue
  | 0, _, at_ => at_.fault .expectedValue
  | fuel + 1, done, at_ =>
    match value fuel at_ with
    | .error e => .error e
    | .ok (v, next) =>
      let next := next.skipBlanks
      match next.rest with
      | ']' :: _ => .ok (.arr (v :: done).reverse, next.advance 1)
      | ',' :: _ => items fuel (v :: done) (next.advance 1).skipBlanks
      | _ => next.fault .expectedComma

/-- The members of an object from the cursor on, after those in `done`. -/
def members : Nat → List (String × JsonValue) → Cursor → Read JsonValue
  | 0, _, at_ => at_.fault .expectedKey
  | fuel + 1, done, at_ =>
    match at_.rest with
    | '"' :: _ =>
      match string at_ with
      | .error e => .error e
      | .ok (key, next) =>
        let next := next.skipBlanks
        match next.rest with
        | ':' :: _ =>
          match value fuel (next.advance 1).skipBlanks with
          | .error e => .error e
          | .ok (v, next) =>
            let done := setEntry key v done
            let next := next.skipBlanks
            match next.rest with
            | '\x7d' :: _ => .ok (.obj done, next.advance 1)
            | ',' :: _ => members fuel done (next.advance 1).skipBlanks
            | _ => next.fault .expectedComma
        | _ => next.fault .expectedColon
    | _ => at_.fault .expectedKey

end

end Json

def JsonValue.parse (text : String) : Except JsonError JsonValue :=
  let chars := text.toList
  if chars.head? = some '\uFEFF' then .error ⟨.byteOrderMark, 0⟩
  else
    match Json.value (2 * chars.length + 2) (Json.Cursor.mk chars 0).skipBlanks with
    | .error e => .error e
    | .ok (v, next) =>
      let next := next.skipBlanks
      if next.rest.isEmpty then .ok v else next.fault .extraData

end ContextRoles
