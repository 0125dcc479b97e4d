import ContextRoles.Lexeme.Number
import ContextRoles.Text.Blank
import ContextRoles.Text.Digit

/-! # Numbers in arguments -/

namespace ContextRoles.CommandLine

/-- The values of digits of any script. Single underscores between them are left out. -/
def groupedDigits? : List Char → Option (List Nat)
  | [] => none
  | [c] => (Text.digitValue? c).map ([·])
  | c :: '_' :: rest => do pure ((← Text.digitValue? c) :: (← groupedDigits? rest))
  | c :: rest => do pure ((← Text.digitValue? c) :: (← groupedDigits? rest))

def readInteger? (text : String) : Option Int :=
  let (sign, unsigned) : Int × List Char := match Text.trimMargin text.toList with
    | '-' :: rest => (-1, rest)
    | '+' :: rest => (1, rest)
    | rest => (1, rest)
  (groupedDigits? unsigned).map fun digits =>
    sign * (digits.foldl (fun n digit => n * 10 + digit) 0 : Nat)

/-- Whether a text looks like a negative number. A line feed at the end does not count. -/
def isNegativeNumber (text : String) : Bool :=
  let isDigit (c : Char) : Bool := (Text.digitValue? c).isSome
  match text.toList with
  | '-' :: rest =>
    let rest := if rest.getLast? = some '\n' then rest.dropLast else rest
    match rest.dropWhile isDigit with
    | [] => !rest.isEmpty
    | '.' :: fraction => !fraction.isEmpty && fraction.all isDigit
    | _ => false
  | _ => false

end ContextRoles.CommandLine
