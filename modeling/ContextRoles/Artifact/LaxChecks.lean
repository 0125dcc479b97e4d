import ContextRoles.Artifact.Field
import ContextRoles.Lexeme.Number
import ContextRoles.Text.Blank

/-! # Lax checks

The checks that the program is run with. Texts, lists and maps have to be what they are called, and a
whole number may also be a truth value, a double without a fraction or a text of digits.
-/

namespace ContextRoles.Artifact

namespace LaxChecks

open Checked

def fault {α : Type} (f : FieldFault) : Checked α := .error [⟨[], f⟩]

def checkText : JsonValue → Checked String
  | .str s => .ok s
  | _ => fault .notText

def checkItems {α : Type} (check : JsonValue → Checked α) (first : Nat) :
    List JsonValue → Checked (List α)
  | [] => .ok []
  | item :: items =>
    ((within (.index first) (check item)).and (checkItems check (first + 1) items)).map
      fun (a, as) => a :: as

def checkTexts : JsonValue → Checked (List String)
  | .arr items => checkItems checkText 0 items
  | _ => fault .notList

def checkMembers {α : Type} (check : JsonValue → Checked α) :
    List (String × JsonValue) → Checked (List (String × α))
  | [] => .ok []
  | (key, value) :: members =>
    ((within (.key key) (check value)).and (checkMembers check members)).map
      fun (a, as) => (key, a) :: as

def checkTextLists : JsonValue → Checked (OrderedMap (List String))
  | .obj members => (checkMembers checkTexts members).map .ofList
  | _ => fault .notMap

/-! ## Whole numbers -/

def isDigit (c : Char) : Bool := '0' ≤ c && c ≤ '9'

/-- A number without the zeros in front of it, among which there may be underscores. Something of zeros
alone is left, and in front of a point. -/
def dropLeadingZeros? : List Char → Option (List Char)
  | '0' :: rest =>
    let isFiller (c : Char) : Bool := c = '0' || c = '_'
    let last := (rest.takeWhile isFiller).getLastD '0'
    match rest.dropWhile isFiller with
    | [] => some [last]
    | '.' :: fraction => some (last :: '.' :: fraction)
    | c :: digits => if isDigit c || c = '-' then some (c :: digits) else none
  | c :: rest => if isDigit c || c = '-' then some (c :: rest) else none
  | [] => none

/-- The digits of a number, with single underscores between them left out. -/
def groupedDigits? : List Char → Option (List Char)
  | [] => none
  | [c] => if isDigit c then some [c] else none
  | c :: '_' :: rest => if isDigit c then (groupedDigits? rest).map (c :: ·) else none
  | c :: rest => if isDigit c then (groupedDigits? rest).map (c :: ·) else none

def dropZeroFraction? (text : List Char) : Option (List Char) :=
  match text.dropWhile (· != '.') with
  | [] => some text
  | _ :: fraction =>
    if !fraction.isEmpty && fraction.all (· == '0') then some (text.takeWhile (· != '.')) else none

def readInteger? (text : String) : Option Int := do
  let spelled := match Text.trimMargin text.toList with
    | '+' :: '-' :: _ => []
    | '+' :: rest => rest
    | rest => rest
  let (sign, unsigned) : Int × List Char := match ← dropLeadingZeros? spelled with
    | '-' :: rest => (-1, rest)
    | rest => (1, rest)
  let digits ← groupedDigits? (← dropZeroFraction? unsigned)
  some (sign * (Lexeme.digitsValue 10 digits : Int))

def floatInteger (x : Float) : Checked Int :=
  if x.isNaN || x.isInf then fault .infiniteInteger
  else if x.floor != x then fault .fractionalInteger
  else if Float.abs x < 9223372036854775808.0 then .ok x.toInt64.toInt
  else fault .oversizedInteger

def checkInteger : JsonValue → Checked Int
  | .int n => .ok n
  | .bool b => .ok (if b then 1 else 0)
  | .float x => floatInteger x
  | .str s => match readInteger? s with
    | some n => .ok n
    | none => fault .unreadableInteger
  | _ => fault .notInteger

def checkOptional {α : Type} (check : JsonValue → Checked α) : JsonValue → Checked (Option α)
  | .null => .ok none
  | v => (check v).map some

end LaxChecks

instance laxChecks : FieldChecks where
  check
    | .text => LaxChecks.checkText
    | .optionalText => LaxChecks.checkOptional LaxChecks.checkText
    | .optionalInteger => LaxChecks.checkOptional LaxChecks.checkInteger
    | .texts => LaxChecks.checkTexts
    | .textLists => LaxChecks.checkTextLists

end ContextRoles.Artifact
