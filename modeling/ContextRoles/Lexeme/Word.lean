import ContextRoles.Lexeme.WhiteSpace
import ContextRoles.Text.Lowering

/-! # Identifiers, operators and reserved words

Reserved names are looked up by binary search in a sorted table. Where case does not matter, both the
table and the name are lowered first.
-/

namespace ContextRoles.Lexeme

open Parsing
open Text (quote)

/-- The first index from `low` on, below `high`, whose name is not less than `key` in a sorted table,
or else `high`. -/
def lowerBound (table : Array String) (key : String) (low high : Nat) : Nat :=
  if low < high then
    let middle := (low + high) / 2
    if (table.getD middle "") < key then lowerBound table key (middle + 1) high
    else lowerBound table key low middle
  else low
termination_by high - low

def inSorted (table : Array String) (key : String) : Bool :=
  table[lowerBound table key 0 table.size]? == some key

namespace Language

variable (lang : Language)

/-- What two spellings of one reserved name have in common. -/
def key (name : String) : String := if lang.caseSensitive then name else Text.lower name

def reservedTable : Array String :=
  ((lang.reservedNames.map lang.key).mergeSort (fun a b => decide (a ≤ b))).toArray

def isReservedName (name : String) : Bool := inSorted lang.reservedTable (lang.key name)

def isReservedOperator (name : String) : Bool := lang.reservedOperators.contains name

/-- A word by its first character and the characters that may follow. -/
def word (first next : Parser String) : Parser String :=
  first.bind fun c => (Parser.many next).map fun cs => c ++ String.join cs

def identifier : Parser String :=
  let table := lang.reservedTable
  lang.lexeme <| .attempt <|
    (Parser.label (word lang.identifierStart lang.identifierLetter) "identifier").bind fun name =>
      if inSorted table (lang.key name) then .unexpected s!"reserved word {quote name}"
      else .pure name

def operator : Parser String :=
  lang.lexeme <| .attempt <|
    (Parser.label (word lang.operatorStart lang.operatorLetter) "operator").bind fun name =>
      if lang.isReservedOperator name then .unexpected s!"reserved operator {quote name}"
      else .pure name

/-- Reads a text of the length of `name` that agrees with it up to case. -/
def anyCase (name : String) : Parser String := fun s =>
  if Text.lower (String.ofList (s.rest.take name.length)) = Text.lower name then
    .success name (s.advance name.length)
  else .failure ⟨.expected (quote name), s.position⟩ s

/-- The reserved word `name`, not followed by a character that would make a longer word. -/
def reserved (name : String) : Parser String :=
  let spelled := if lang.caseSensitive then Parser.string name else anyCase name
  let ending := Parser.label (.notFollowedBy lang.identifierLetter) s!"end of {quote name}"
  lang.lexeme (.attempt (spelled.skip ending))

/-- The reserved operator `name`, not followed by a character that would make a longer operator. -/
def reservedOperator (name : String) : Parser String :=
  let ending := Parser.label (.notFollowedBy lang.operatorLetter) s!"end of {quote name}"
  lang.lexeme (.attempt ((Parser.string name).skip ending))

end Language

end ContextRoles.Lexeme
