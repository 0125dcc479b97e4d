import ContextRoles.Parsing.Recursion
import ContextRoles.Source.Assignment
import ContextRoles.Source.Building

/-! # Definitions

A context has public properties, private properties and role bindings in its body, in this order; a
role has properties. A role binding may define its target on an indented line below it, so contexts
and role bindings refer to each other. Every generated id is drawn when a binding was read, also in a
branch that is abandoned later.
-/

namespace ContextRoles.Source

open Parsing Lexeme

def freshId (ids : Nat → String) : Parser String := fun s =>
  .success (ids s.drawn) { s with drawn := s.drawn + 1 }

def roleOccurrence : Parser Nat := Parser.sameLine.then_ (language.parens language.natural)

def role : Parser Collection := .withPosition do
  let declaration ← typeDeclaration
  let assignments ← Parser.indentedBlock rolePropertyAssignment
  pure (buildRole declaration assignments)

section Recursive

variable (ids : Nat → String)

/-- What follows the arrow of a binding: a name on its line, or a definition on an indented line. -/
def bindingTarget (context : Parser Collection) : Parser Target :=
  .alt ((Parser.sameLine.then_ instanceName).map Target.named)
    ((Parser.indented.then_ (.alt (.attempt context) role)).bind fun definition =>
      .require (Target.defined? definition))

/-- What a role binding says: the role, its occurrence, its target and its properties. -/
structure Binding where
  roleName : String
  occurrence : Option Nat
  target : Target
  assignments : List (String × String)

def bindingWith (context : Parser Collection) : Parser Binding := .withPosition do
  let roleName ← propertyName
  let occurrence ← Parser.option none (roleOccurrence.map some)
  let target ← (Parser.sameOrIndented.then_ (language.reservedOperator "=>")).then_
    (bindingTarget context)
  let assignments ← Parser.indentedBlock rolePropertyAssignment
  pure { roleName, occurrence, target, assignments }

def roleBindingWith (context : Parser Collection) (contextId : String) : Parser Collection := do
  let binding ← bindingWith context
  let id ← freshId ids
  pure (buildRoleBinding id contextId binding.roleName binding.occurrence binding.target
    binding.assignments)

def contextBody (context : Parser Collection) (declaration : TypeDeclaration) :
    Parser Collection := do
  let publicAssignments ← Parser.indentedBlock publicAssignment
  let privateAssignments ← Parser.indentedBlock privateAssignment
  let bindings ← Parser.indentedBlock
    (roleBindingWith ids context (localName declaration.instanceName))
  pure (buildContext declaration publicAssignments privateAssignments bindings)

def contextWith (context : Parser Collection) : Parser Collection :=
  .withPosition (typeDeclaration.bind (contextBody ids context))

/-- A context. A context inside it starts further into the text, so no entry needs a budget. -/
def context : Parser Collection := .recurse 0 (fun self () => contextWith ids (self ())) ()

def roleBinding (contextId : String) : Parser Collection :=
  roleBindingWith ids (context ids) contextId

def definition : Parser Collection := .furthest [context ids, role]

def text : Parser Collection := .withPosition do
  let name ← (language.reserved "Text").then_ instanceName
  let definitions ← Parser.block (definition ids)
  pure (buildText name definitions)

/-- After a lone definition the text ends. What is left at or left of the reference column is a line of
a body that is not indented. -/
def endOfDefinition : Parser Unit := .alt .endOfInput (Parser.indented.then_ .endOfInput)

def sourceFile : Parser Collection :=
  language.whiteSpace.then_
    (.alt ((text ids).skip .endOfInput) ((definition ids).skip endOfDefinition))

end Recursive

end ContextRoles.Source
