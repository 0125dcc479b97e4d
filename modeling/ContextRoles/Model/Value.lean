/-! # Property values

A property holds a literal, or names the type of the values it will hold. Every value is kept as text.
-/

namespace ContextRoles

inductive DataType where
  | number
  | string
  | bool
  | date
  deriving DecidableEq, Repr

namespace DataType

def all : List DataType := [number, string, bool, date]

def name : DataType → String
  | number => "Number"
  | string => "String"
  | bool => "Bool"
  | date => "Date"

def ofName? (name : String) : Option DataType := all.find? (·.name == name)

end DataType

inductive Value where
  | text (value : String)
  | integer (value : Int)
  | truth (value : Bool)
  | dataType (value : DataType)
  deriving DecidableEq, Repr

def Value.render : Value → String
  | text value => value
  | integer value => toString value
  | truth value => if value then "true" else "false"
  | dataType value => value.name

end ContextRoles
