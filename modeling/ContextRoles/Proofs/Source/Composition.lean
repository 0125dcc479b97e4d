import ContextRoles.Proofs.Source.Totality

/-! # Tokens and rules are built from combinators

What every primitive has and every combinator keeps, every token of a language and every rule of the
grammar has. Drawing an identifier, and reading a word whatever its case, are primitives of their own.
-/

namespace ContextRoles.Lexeme

open Parsing Parser

variable {E : ∀ {α : Type}, Parser α → Prop} {lang : Language}

/-- The parsers that a language is given are built, and so is a word in any case where the language
reads one. -/
structure Language.Composed (E : ∀ {α : Type}, Parser α → Prop) (lang : Language) : Prop where
  identifierStart : Built E lang.identifierStart
  identifierLetter : Built E lang.identifierLetter
  operatorStart : Built E lang.operatorStart
  operatorLetter : Built E lang.operatorLetter
  anyCase : lang.caseSensitive = false → ∀ name, E (anyCase name)

namespace Language.Composed

theorem of_regular (h : lang.Regular) (hc : lang.caseSensitive = true) : lang.Composed E where
  identifierStart := h.identifierStart.plain.of_plain
  identifierLetter := h.identifierLetter.plain.of_plain
  operatorStart := h.operatorStart.plain.of_plain
  operatorLetter := h.operatorLetter.plain.of_plain
  anyCase hf := by simp [hc] at hf

theorem lexeme {α : Type} {p : Parser α} (h : Built E p) : Built E (lang.lexeme p) :=
  h.skip Language.plain_whiteSpace.of_plain

theorem word {first next : Parser String} (h : Built E first) (h' : Built E next) :
    Built E (word first next) := .bind h fun _ => (Built.many h').map _

theorem identifier (h : lang.Composed E) : Built E lang.identifier := by
  refine lexeme (.attempt (.bind ((word h.identifierStart h.identifierLetter).label _)
    fun name => ?_))
  split
  · exact .unexpected _
  · exact .pure _

theorem operator (h : lang.Composed E) : Built E lang.operator := by
  refine lexeme (.attempt (.bind ((word h.operatorStart h.operatorLetter).label _) fun name => ?_))
  split
  · exact .unexpected _
  · exact .pure _

theorem reserved (h : lang.Composed E) (name : String) : Built E (lang.reserved name) := by
  refine lexeme (.attempt (.skip ?_ ((Built.notFollowedBy h.identifierLetter).label _)))
  by_cases hc : lang.caseSensitive = true
  · rw [if_pos hc]
    exact .string name
  · rw [if_neg hc]
    exact .extra (h.anyCase (Bool.eq_false_iff.mpr hc) name)

theorem reservedOperator (h : lang.Composed E) (name : String) :
    Built E (lang.reservedOperator name) :=
  lexeme (.attempt ((Built.string name).skip ((Built.notFollowedBy h.operatorLetter).label _)))

end Language.Composed

/-- Every token of a language that is given such parsers is built. -/
theorem Token.built (h : lang.Composed E) (token : Token) : Built E (token.parser lang) := by
  have symbol (text : String) : Built E (lang.symbol text) := (Language.plain_symbol text).of_plain
  induction token with
  | whiteSpace => exact Language.plain_whiteSpace.of_plain
  | identifier => exact h.identifier.result ()
  | operator => exact h.operator.result ()
  | charLiteral => exact Language.advancing_charLiteral.plain.of_plain.result ()
  | stringLiteral => exact Language.advancing_stringLiteral.plain.of_plain.result ()
  | decimal => exact Number.advancing_decimal.plain.of_plain.result ()
  | hexadecimal => exact Number.advancing_hexadecimal.plain.of_plain.result ()
  | octal => exact Number.advancing_octal.plain.of_plain.result ()
  | natural => exact Language.advancing_naturalLexeme.plain.of_plain.result ()
  | integer => exact Language.advancing_integerLexeme.plain.of_plain.result ()
  | float => exact Language.advancing_floatLexeme.plain.of_plain.result ()
  | naturalOrFloat => exact Language.advancing_naturalOrFloatLexeme.plain.of_plain.result ()
  | reserved name => exact (h.reserved name).result ()
  | reservedOperator name => exact (h.reservedOperator name).result ()
  | symbol text => exact (symbol text).result ()
  | parens token ih => exact (symbol _).between (symbol _) ih
  | braces token ih => exact (symbol _).between (symbol _) ih
  | angles token ih => exact (symbol _).between (symbol _) ih
  | brackets token ih => exact (symbol _).between (symbol _) ih
  | semiSep token ih => exact (ih.sepBy (symbol _)).result ()
  | semiSep1 token ih => exact (ih.sepBy1 (symbol _)).result ()
  | commaSep token ih => exact (ih.sepBy (symbol _)).result ()
  | commaSep1 token ih => exact (ih.sepBy1 (symbol _)).result ()

end ContextRoles.Lexeme

namespace ContextRoles.Source

open Parsing Parser Lexeme

variable {E : ∀ {α : Type}, Parser α → Prop} {ids : Nat → String}

theorem Rule.built (hd : E (freshId ids)) (rule : Rule) : Built E (rule.parser ids) := by
  have context : Built E (Source.context ids) := built_context hd
  cases rule with
  | domainName => exact advancing_domainName.plain.of_plain.result ()
  | namespaceMark => exact advancing_namespaceMark.plain.of_plain.result ()
  | localPropertyName => exact advancing_localPropertyName.plain.of_plain.result ()
  | localResourceName => exact advancing_localResourceName.plain.of_plain.result ()
  | localInstanceName => exact advancing_localInstanceName.plain.of_plain.result ()
  | propertyName => exact advancing_propertyName.plain.of_plain.result ()
  | resourceName => exact advancing_resourceName.plain.of_plain.result ()
  | instanceName => exact advancing_instanceName.plain.of_plain.result ()
  | typeDeclaration => exact advancing_typeDeclaration.plain.of_plain.result ()
  | simpleValue => exact advancing_simpleValue.plain.of_plain.result ()
  | dataType => exact advancing_dataType.plain.of_plain.result ()
  | propertyValue => exact advancing_propertyValue.plain.of_plain.result ()
  | rolePropertyAssignment => exact advancing_rolePropertyAssignment.plain.of_plain.result ()
  | contextPropertyName => exact advancing_contextPropertyName.plain.of_plain.result ()
  | publicAssignment => exact advancing_publicAssignment.plain.of_plain.result ()
  | privateAssignment => exact advancing_privateAssignment.plain.of_plain.result ()
  | roleOccurrence => exact plain_roleOccurrence.of_plain.result ()
  | role => exact advancing_role.plain.of_plain.result ()
  | bindingTarget => exact (built_bindingTarget context).result ()
  | roleBinding contextId => exact (built_roleBindingWith hd contextId context).result ()
  | contextBody declaration => exact (built_contextBody hd declaration context).result ()
  | context => exact context.result ()
  | definition => exact (built_definition hd).result ()
  | text => exact (built_text hd).result ()
  | endOfDefinition => exact built_endOfDefinition
  | sourceFile => exact (built_sourceFile hd).result ()

end ContextRoles.Source
