import ContextRoles.Lexeme.Literal
import ContextRoles.Lexeme.Word
import ContextRoles.Model.Name
import ContextRoles.Parsing.Indentation

/-! # Names in sources

The lexical conventions of sources, and the spellings of names. Resources start with a capital and
properties with a small letter; instances start with either.
-/

namespace ContextRoles.Source

open Parsing Lexeme

def language : Language where
  commentStart := "\x7b-"
  commentEnd := "-\x7d"
  commentLine := "--"
  nestedComments := true
  identifierStart := letters .letter
  reservedNames := ["Text", "false", "private", "public", "true"]
  reservedOperators := ["=", "=>"]

def joined (parts : List (Parser String)) : Parser String := (Parser.sequence parts).map String.join

def nameRest : Parser String := (Parser.many language.identifierLetter).map String.join

def namespaceMark : Parser String :=
  .alt (joined [(Parser.many .lower).map String.ofList, letters (.char ':')]) (.string "$")

def domainName : Parser String :=
  joined [.string "model:", letters .upper, nameRest, letters (.char '#')]

def localPropertyName : Parser String := joined [letters .lower, nameRest]

def localResourceName : Parser String := joined [letters .upper, nameRest]

def localInstanceName : Parser String := joined [letters .letter, nameRest]

def qualified (name : Parser String) : Parser String :=
  language.lexeme (.attempt (joined [domainName, name]))

def prefixed (name : Parser String) : Parser String :=
  language.lexeme (.attempt (joined [namespaceMark, name]))

def qualifiedPropertyName : Parser String :=
  .label (qualified localPropertyName) "qualified property name"

def prefixedPropertyName : Parser String :=
  .label (prefixed localPropertyName) "prefixed property name"

def propertyName : Parser String :=
  .label (.alt qualifiedPropertyName prefixedPropertyName) "property name"

def qualifiedResourceName : Parser String := qualified localResourceName

def prefixedResourceName : Parser String := prefixed localResourceName

def resourceName : Parser String :=
  .label (.alt qualifiedResourceName prefixedResourceName) "resource name"

def instanceName : Parser String :=
  .label (.alt (qualified localInstanceName) (prefixed localInstanceName)) "instance name"

def typeDeclaration : Parser TypeDeclaration := .withPosition do
  let instanceName ← instanceName
  let typeName ← Parser.sameLine.then_ resourceName
  pure ⟨instanceName, typeName⟩

end ContextRoles.Source
