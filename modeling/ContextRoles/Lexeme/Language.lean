import ContextRoles.Parsing.Character
import ContextRoles.Parsing.Repetition

/-! # Lexical conventions

What a language takes for comments, identifiers, operators and reserved words. An empty delimiter
switches a kind of comment off.
-/

namespace ContextRoles.Lexeme

open Parsing

def letters (p : Parser Char) : Parser String := p.map String.singleton

def defaultOperatorChars : List Char := ":!#$%&*+./<=>?@\\^|-~".toList

structure Language where
  commentStart : String := ""
  commentEnd : String := ""
  commentLine : String := ""
  /-- Whether a block comment inside a block comment has to be closed as well. -/
  nestedComments : Bool := true
  identifierStart : Parser String := letters (.alt .letter (.char '_'))
  identifierLetter : Parser String := letters (.alt .alphanumeric (.oneOf ['_', '\'']))
  operatorStart : Parser String := letters (.oneOf defaultOperatorChars)
  operatorLetter : Parser String := letters (.oneOf defaultOperatorChars)
  reservedNames : List String := []
  reservedOperators : List String := []
  caseSensitive : Bool := true

end ContextRoles.Lexeme
