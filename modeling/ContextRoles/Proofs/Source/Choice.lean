import ContextRoles.Proofs.Parsing.Choice
import ContextRoles.Proofs.Source.Alternatives

/-! # The alternatives of tokens and rules

Which alternative of a choice has the outcome is decided by their runs from a checkpoint alone. How the
alternatives of a rule are put in brackets, and whether some of them have a label of their own, has no
influence on it.
-/

namespace ContextRoles.Source

open Parsing Parser Lexeme

variable {α : Type} {ps : List (Parser α)} {p : Parser α} {s u : State}

theorem start_eq_of_caseless (h : ∀ p ∈ ps, Built Caseless p) (hp : Chooses ps s p u) : u = s := by
  induction hp with
  | last | taken => rfl
  | passed hr _ _ ih =>
    rw [List.forall_mem_cons] at h
    rw [ih h.2, rewindFrom_of_caseless h.1 hr]

/-- A choice has the outcome of the first alternative that, from the checkpoint, succeeds or fails behind
something that it read, or has no result at all; and of the last one where there is none. The flag from
before the checkpoint is put back. Where the alternatives start they differ at most in the identifiers
that are left to draw, and not even in these where the alternatives draw none. So alternations are
associative: alternatives in brackets are the choice among them without the brackets, and a choice among
choices is one among all their alternatives. The parsers may be any that combinators make of primitives,
as all tokens and rules are (`Token.built`, `Rule.built`). -/
theorem choice_flat (ids : Nat → String) :
    (∀ {α : Type} {ps : List (Parser α)}, ps ≠ [] → (∀ p ∈ ps, Built (Special ids) p) →
      ∀ s : State, (∃ p u, Chooses ps s.checkpoint p u) ∧
        ∀ p u, Chooses ps s.checkpoint p u →
          choice ps s = (p u).merge s.consumed ∧ u = s.checkpoint.rewindFrom u) ∧
    (∀ {α : Type} {ps : List (Parser α)}, (∀ p ∈ ps, Built Caseless p) → ∀ s p u,
      Chooses ps s p u → u = s) ∧
    (∀ {α : Type} (p q r : Parser α), alt (alt p q) r = alt p (alt q r)) ∧
    (∀ {α : Type} (g : Grouping α), g.parser = choice g.alternatives) ∧
    (∀ {α : Type} {pss : List (List (Parser α))}, pss ≠ [] → (∀ ps ∈ pss, ps ≠ []) →
      choice (pss.map choice) = choice pss.flatten) := by
  refine ⟨fun hne h s => ⟨exists_chooses hne _, fun p u hp => ⟨?_, hp.rewound⟩⟩,
    fun h _ _ _ => start_eq_of_caseless h, alt_assoc, Grouping.parser_eq_choice, choice_flatten⟩
  exact hp.choice_eq_merge ((Built.choice h).accumulates Special.accumulates)

def numerals : List (Parser Unit) :=
  [(Token.brackets .natural).parser caseless, Token.natural.parser caseless]

def atQuestionMark : State := (State.start "?").marked

theorem choice_flat_broken :
    (∀ p ∈ [attempt (context tally), role], Built (Special tally) p) ∧
    Chooses [attempt (context tally), role] (State.start broken).checkpoint role
      ((State.start broken).rewindFrom inProperty) ∧
    choice [attempt (context tally), role] (State.start broken) =
      .failure noEqualsSign inBinding ∧
    (∀ p ∈ numerals, Built (Special tally) p) ∧
    choice numerals atQuestionMark = .failure ⟨.expected "natural", ⟨1, 1⟩⟩ atQuestionMark ∧
    (∀ p ∈ numerals, Built Caseless p) ∧
    Chooses numerals atQuestionMark.checkpoint (Token.natural.parser caseless)
      atQuestionMark.checkpoint ∧
    instanceName = choice [qualified localInstanceName, prefixed localInstanceName,
      .fail (.expected "instance name")] ∧
    choice ([[role, context tally], [definition tally]].map choice) =
      choice [role, context tally, definition tally] := by
  obtain ⟨falls, still, -, grouped, flat⟩ := choice_flat tally
  have built : ∀ p ∈ [attempt (context tally), role], Built (Special tally) p := by
    simpa using ⟨(built_context .freshId).attempt, advancing_role.plain.of_plain⟩
  have hbroken : Chooses [attempt (context tally), role] (State.start broken).checkpoint role
      ((State.start broken).rewindFrom inProperty) :=
    .passed (e := noArrow) (t := inProperty.checkpoint) (by decide +kernel) rfl .last
  have hsecond : role ((State.start broken).rewindFrom inProperty) =
      .failure noEqualsSign inBinding := by decide +kernel
  have composed : ∀ p ∈ numerals, Built (Special tally) p := by
    simpa [numerals] using ⟨Token.built caseless_composed (.brackets .natural),
      Token.built caseless_composed .natural⟩
  have caselessly : ∀ p ∈ numerals, Built Caseless p := by
    have hcaseless : caseless.Composed Caseless := composed_caseless .anyCase
    simpa [numerals] using ⟨Token.built hcaseless (.brackets .natural),
      Token.built hcaseless .natural⟩
  have hnumerals : Chooses numerals atQuestionMark.checkpoint (Token.natural.parser caseless)
      (atQuestionMark.checkpoint.rewindFrom atQuestionMark.checkpoint) :=
    .passed (e := ⟨.expected "'['", ⟨1, 1⟩⟩) (t := atQuestionMark.checkpoint) (by decide +kernel)
      rfl .last
  rw [still caselessly _ _ _ hnumerals] at hnumerals
  have hnatural : Token.natural.parser caseless atQuestionMark.checkpoint =
      .failure ⟨.expected "natural", ⟨1, 1⟩⟩ atQuestionMark.checkpoint := by decide +kernel
  have hne : numerals ≠ [] := List.cons_ne_nil _ _
  refine ⟨built, hbroken, ?_, composed, ?_, caselessly, hnumerals, ?_, ?_⟩
  · rw [((falls (List.cons_ne_nil _ _) built _).2 _ _ hbroken).1, hsecond]
    rfl
  · rw [((falls hne composed _).2 _ _ hnumerals).1, hnatural]
    rfl
  · exact grouped (.either (.either (.single (qualified localInstanceName))
      (.single (prefixed localInstanceName))) (.single (.fail (.expected "instance name"))))
  · exact flat (List.cons_ne_nil _ _) (by simp)

end ContextRoles.Source
