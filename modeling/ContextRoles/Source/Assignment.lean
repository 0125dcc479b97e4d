import ContextRoles.Model.Value
import ContextRoles.Parsing.Indentation
import ContextRoles.Source.Name

/-! # Property assignments -/

namespace ContextRoles.Source

open Parsing Lexeme

def simpleValue : Parser Value :=
  .label (.choice [language.stringLiteral.map .text, language.integer.map .integer,
    (language.reserved "true").result (.truth true),
    (language.reserved "false").result (.truth false)]) "simple value"

def checkDataType (name : String) : Parser DataType :=
  match DataType.ofName? name with
  | some t => .pure t
  | none => .fail (.unknownDataType name)

def dataType : Parser DataType :=
  .label (.attempt (language.identifier.bind checkDataType)) "data type"

def propertyValue : Parser String :=
  (Parser.label (.alt simpleValue (dataType.map .dataType)) "value").map Value.render

/-- A name, an equals sign and a value, each on the line of the one before or indented. -/
def assignment (name : Parser String) : Parser (String × String) := do
  let name ← name
  let _ ← Parser.sameOrIndented.then_ (language.reservedOperator "=")
  let value ← Parser.sameOrIndented.then_ propertyValue
  pure (name, value)

def rolePropertyAssignment : Parser (String × String) := .withPosition (assignment propertyName)

def contextPropertyName : Parser String := .alt propertyName language.identifier

def publicAssignment : Parser (String × String) :=
  .withPosition ((language.reserved "public").then_ (assignment contextPropertyName))

def privateAssignment : Parser (String × String) :=
  .withPosition ((language.reserved "private").then_ (assignment contextPropertyName))

end ContextRoles.Source
