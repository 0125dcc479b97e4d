import ContextRoles.Decimal.Shortest
import ContextRoles.Text.Quoted

/-! # JSON values

Numbers are whole or doubles. An object keeps the order of its keys, and no key occurs twice.
-/

namespace ContextRoles

inductive JsonValue where
  | null
  | bool (value : Bool)
  | int (value : Int)
  | float (value : Float)
  | str (value : String)
  | arr (items : List JsonValue)
  | obj (members : List (String × JsonValue))

namespace JsonValue

def kindName : JsonValue → String
  | null => "NoneType"
  | bool _ => "bool"
  | int _ => "int"
  | float _ => "float"
  | str _ => "str"
  | arr _ => "list"
  | obj _ => "dict"

mutual

def describe : JsonValue → String
  | null => "None"
  | bool true => "True"
  | bool false => "False"
  | int n => toString n
  | float x => floatText x
  | str s => Text.quote s
  | arr items => "[" ++ String.intercalate ", " (describeItems items) ++ "]"
  | obj members => "\x7b" ++ String.intercalate ", " (describeMembers members) ++ "\x7d"

def describeItems : List JsonValue → List String
  | [] => []
  | item :: items => item.describe :: describeItems items

def describeMembers : List (String × JsonValue) → List String
  | [] => []
  | (key, value) :: members => (Text.quote key ++ ": " ++ value.describe) :: describeMembers members

end

def member? (members : List (String × JsonValue)) (key : String) : Option JsonValue :=
  members.lookup key

end JsonValue

end ContextRoles
