import ContextRoles.Yaml.Cursor
import ContextRoles.Yaml.Timestamp

/-! # The kinds of plain scalars

A plain scalar is a number, a truth value, a timestamp or nothing at all when it is spelled like one, and
text otherwise.
-/

namespace ContextRoles.Yaml

inductive Tag where
  | null
  | bool
  | int
  | float
  | binary
  | timestamp
  | text
  | merge
  | value
  | seq
  | map
  | omap
  | pairs
  | set
  | unknown
  deriving DecidableEq, Repr

namespace Tag

def standardSpace : String := "tag:yaml.org,2002:"

def names : List (String × Tag) :=
  [("null", null), ("bool", bool), ("int", int), ("float", float), ("binary", binary),
    ("timestamp", timestamp), ("str", text), ("merge", merge), ("value", value), ("seq", seq),
    ("map", map), ("omap", omap), ("pairs", pairs), ("set", set)]

def ofName (name : String) : Tag :=
  ((names.find? fun (short, _) => standardSpace ++ short == name).map (·.2)).getD unknown

end Tag

/-! ## Numbers -/

def isDigitOrGap (c : Char) : Bool := isDigit c || c = '_'

def unsigned : List Char → List Char
  | '-' :: rest => rest
  | '+' :: rest => rest
  | text => text

/-- One or more groups of a colon and a number below sixty, and what follows them. -/
def sixties : Nat → List Char → Option (List Char)
  | 0, _ => none
  | fuel + 1, ':' :: rest =>
    let digits := (rest.takeWhile isDigit).take 2
    let low := match digits with
      | [_] => true
      | [d, _] => d ≤ '5'
      | _ => false
    if low then
      let after := rest.drop digits.length
      if after.head? = some ':' then sixties fuel after else some after
    else none
  | _, _ => none

/-- The groups of sixty after leading digits. A group of two digits gives one of them back where that
alone makes sense. -/
def afterSixties (text : List Char) : Option (List Char) := sixties text.length text

def isInteger (text : List Char) : Bool :=
  match unsigned text with
  | ['0'] => true
  | '0' :: 'b' :: rest => !rest.isEmpty && rest.all fun c => c = '0' || c = '1' || c = '_'
  | '0' :: 'x' :: rest => !rest.isEmpty && rest.all fun c => isHexDigit c || c = '_'
  | '0' :: rest => rest.all fun c => ('0' ≤ c && c ≤ '7') || c = '_'
  | first :: rest =>
    isDigit first &&
      ((rest.all isDigitOrGap) || afterSixties (rest.dropWhile isDigitOrGap) == some [])
  | [] => false

def isExponentOrEmpty : List Char → Bool
  | [] => true
  | e :: sign :: digits =>
    (e = 'e' || e = 'E') && (sign = '+' || sign = '-') && !digits.isEmpty && digits.all isDigit
  | _ => false

def isFloat (text : List Char) : Bool :=
  let body := unsigned text
  let whole := body.takeWhile isDigitOrGap
  let startsWithDigit := (whole.head?.map isDigit).getD false
  let afterWhole := body.drop whole.length
  (startsWithDigit && match afterWhole with
    | '.' :: rest => isExponentOrEmpty (rest.dropWhile isDigitOrGap)
    | _ => match afterSixties afterWhole with
      | some ('.' :: rest) => rest.all isDigitOrGap
      | _ => false) ||
    (match text with
      | '.' :: d :: rest => isDigit d && isExponentOrEmpty (rest.dropWhile isDigitOrGap)
      | _ => false) ||
    [".inf", ".Inf", ".INF"].contains (String.ofList body) ||
    [".nan", ".NaN", ".NAN"].contains (String.ofList text)

/-! ## All kinds -/

def truthWords : List String :=
  ["yes", "Yes", "YES", "no", "No", "NO", "true", "True", "TRUE", "false", "False", "FALSE", "on",
    "On", "ON", "off", "Off", "OFF"]

def nullWords : List String := ["", "~", "null", "Null", "NULL"]

def dropFinalFeed (text : List Char) : List Char :=
  if text.getLast? = some '\n' then text.dropLast else text

def implicitTag (text : String) : Tag :=
  let chars := dropFinalFeed text.toList
  let word := String.ofList chars
  if truthWords.contains word then .bool
  else if isFloat chars then .float
  else if isInteger chars then .int
  else if word = "<<" then .merge
  else if nullWords.contains word && (word ≠ "" || text = "") then .null
  else if Timestamp.isImplicit chars then .timestamp
  else if word = "=" then .value
  else if word = "!" || word = "&" || word = "*" then .unknown
  else .text

end ContextRoles.Yaml
