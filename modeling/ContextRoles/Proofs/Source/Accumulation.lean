import ContextRoles.Proofs.Parsing.Accumulation
import ContextRoles.Proofs.Parsing.Extension
import ContextRoles.Proofs.Source.Coherence
import ContextRoles.Proofs.Source.Composition

/-! # What was read before a parser starts has no influence

The flag is threaded through every token and every rule without being looked at, also through words
that are read whatever their case and through the drawing of identifiers.
-/

namespace ContextRoles.Source

open Parsing Parser Lexeme

variable {ids : Nat → String}

/-- The primitives of tokens and rules that are not among those of the combinators. -/
inductive Special (ids : Nat → String) : ∀ {α : Type}, Parser α → Prop where
  | anyCase (name : String) : Special ids (Language.anyCase name)
  | freshId : Special ids (freshId ids)

theorem accumulates_anyCase (name : String) : Accumulates (Language.anyCase name) := by
  refine .of_set (fun s => ?_) fun s a t hr => ?_
  · simp only [Language.anyCase, State.rest_marked]
    by_cases h : Text.lower (String.ofList (s.rest.take name.length)) = Text.lower name <;>
      simp only [h, if_true, if_false] <;> rfl
  · simp only [Language.anyCase] at hr
    split at hr <;> cases hr
    exact .inr rfl

theorem Special.accumulates {α : Type} {p : Parser α} (h : Special ids p) : Accumulates p := by
  cases h with
  | anyCase name => exact accumulates_anyCase name
  | freshId => exact ⟨fun _ => rfl, by rintro s a t ⟨⟩ -; rfl⟩

/-- Whether something was read before makes no difference to a parser but that the flag is set behind
it, and whoever reads something sets it. Every token of a language that is given such parsers, and every
rule of the grammar, is such a parser. -/
theorem flag_accumulates (ids : Nat → String) :
    (∀ {α : Type} {p : Parser α}, Built (Special ids) p → ∀ s : State,
      p (s.withConsumed true) = (p (s.withConsumed false)).mapState (·.withConsumed true) ∧
      ∀ a t, p (s.withConsumed false) = .success a t → t.offset ≠ s.offset → t.consumed = true) ∧
    (∀ lang : Language, lang.Composed (Special ids) → ∀ token : Token,
      Built (Special ids) (token.parser lang)) ∧
    ∀ rule : Rule, Built (Special ids) (rule.parser ids) := by
  refine ⟨fun h s => ?_, fun lang h => Token.built h, Rule.built .freshId⟩
  have flag := h.accumulates Special.accumulates
  refine ⟨flag.marked (s.withConsumed false), fun a t hr hmoved => ?_⟩
  cases hc : t.consumed with
  | true => rfl
  | false => exact absurd (flag.still hr hc :) hmoved

/-- A language that reads reserved words in any case. -/
def caseless : Language where
  reservedNames := ["Text"]
  caseSensitive := false

theorem composed_caseless {E : ∀ {α : Type}, Parser α → Prop}
    (h : ∀ name, E (Language.anyCase name)) : caseless.Composed E where
  identifierStart := ((Built.letter).alt (.char '_')).map _
  identifierLetter := ((Built.alphanumeric).alt (.oneOf _)).map _
  operatorStart := (Built.oneOf _).map _
  operatorLetter := (Built.oneOf _).map _
  anyCase _ := h

theorem caseless_composed : caseless.Composed (Special ids) := composed_caseless .anyCase

def behindText : State where
  rest := []
  offset := 6
  size := 6
  position := ⟨1, 9⟩
  consumed := true

theorem flag_accumulates_caseless :
    caseless.Composed (Special tally) ∧
    (Token.reserved "Text").parser caseless ((State.start "TEXT \t").withConsumed false) =
      .success () behindText ∧
    behindText.offset ≠ (State.start "TEXT \t").offset ∧ behindText.consumed = true ∧
    (Token.reserved "Text").parser caseless ((State.start "TEXT \t").withConsumed true) =
      .success () (behindText.withConsumed true) := by
  have hr : (Token.reserved "Text").parser caseless ((State.start "TEXT \t").withConsumed false) =
      .success () behindText := by decide +kernel
  have hne : behindText.offset ≠ (State.start "TEXT \t").offset := by decide
  obtain ⟨same, set⟩ := (flag_accumulates tally).1
    ((flag_accumulates tally).2.1 caseless caseless_composed (.reserved "Text")) (State.start "TEXT \t")
  exact ⟨caseless_composed, hr, hne, set () behindText hr hne, by rw [same, hr]; rfl⟩

end ContextRoles.Source
