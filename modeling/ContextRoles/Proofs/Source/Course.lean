import ContextRoles.Proofs.Lexeme.AnyCase
import ContextRoles.Proofs.Parsing.Course
import ContextRoles.Proofs.Source.Blocks

/-! # The reference position of tokens and rules

Tokens and rules keep the reference column, and move the reference line only to where the cursor comes
by. So the alignment of a body is measured against its own header, however deep the bodies in it are.
-/

namespace ContextRoles.Source

open Parsing Lexeme
open ContextRoles.Parsing.Parser hiding some

variable {ids : Nat → String}

theorem Special.passes {α : Type} {p : Parser α} (h : Special ids p) : Ends State.Passes p := by
  cases h with
  | anyCase name =>
    intro s
    have hr := anyCase_cases name s
    have halike (h : Language.anyCase name s = .success name (s.advance name.length)) :
        Text.Alike name (s.rest.take name.length) := (Language.anyCase_eq_success.mp h).1
    -- The outcome is made a variable, so that nothing tries to compute the words that are compared.
    generalize Language.anyCase name s = r at hr halike ⊢
    rcases hr with rfl | ⟨e, rfl⟩
    · -- At the end of a text there is only the empty word.
      refine ⟨.advance fun hne hnil => hne ?_, rfl, .inl rfl⟩
      have hcount := (halike rfl).length_add_count
      simp only [hnil, List.take_nil, List.length_nil, List.count_nil] at hcount
      omega
    · exact threads_passes.refl s
  | freshId => exact fun s => ⟨⟨(State.Onward.refl s).moved, rfl⟩, rfl, .inl rfl⟩

theorem Special.onward {α : Type} {p : Parser α} (h : Special ids p) : Ends State.Onward p :=
  fun s => (h.passes s).mono fun _ ht => ht.toOnward

/-- No run moves the reference column, and a reference line that was moved is that of a position which
the cursor came by. With a position of its own a parser leaves the reference as it was. The parser may be
any that combinators make of primitives, as all tokens and rules are (`Token.built`, `Rule.built`). -/
theorem reference_framed (ids : Nat → String) {α : Type} {p : Parser α} (h : Built (Special ids) p)
    (s : State) :
    ((p s).EndsIn fun t => t.reference.column = s.reference.column ∧
      (t.reference.line = s.reference.line ∨
        ∃ n, s.offset + n ≤ t.offset ∧ t.reference.line = (s.advance n).position.line)) ∧
    (withPosition p s).EndsIn fun t => t.reference = s.reference :=
  ⟨(h.ends threads_passes Special.passes s).mono fun _ ht => ⟨ht.column_eq, ht.line_eq⟩,
    reference_withPosition p s⟩

def spread : State where
  rest := ":p\n\t=\n 1 :q".toList
  size := 11
  position := ⟨1, 3⟩
  reference := ⟨1, 1⟩

def behindValue : State where
  rest := ":q".toList
  offset := 9
  size := 11
  position := ⟨3, 4⟩
  consumed := true
  reference := ⟨3, 1⟩

theorem reference_framed_spread :
    Built (Special tally) (assignment propertyName) ∧
    assignment propertyName spread = .success (":p", "1") behindValue ∧
    behindValue.reference.column = spread.reference.column ∧
    (behindValue.reference.line = spread.reference.line ∨
      ∃ n, spread.offset + n ≤ behindValue.offset ∧
        behindValue.reference.line = (spread.advance n).position.line) ∧
    behindValue.reference.line ≠ spread.reference.line ∧
    (withPosition (assignment propertyName) spread).EndsIn
      (fun t => t.reference = spread.reference) ∧
    caseless.Composed (Special tally) ∧
    ((Token.reserved "Text").parser caseless spread).EndsIn
      (fun t => t.reference.column = spread.reference.column ∧
        (t.reference.line = spread.reference.line ∨ ∃ n, spread.offset + n ≤ t.offset ∧
          t.reference.line = (spread.advance n).position.line)) := by
  have built : Built (Special tally) (assignment propertyName) :=
    (advancing_assignment advancing_propertyName).plain.of_plain
  have hr : assignment propertyName spread = .success (":p", "1") behindValue := by decide +kernel
  obtain ⟨ends, restored⟩ := reference_framed tally built spread
  rw [hr] at ends
  exact ⟨built, hr, ends.1, ends.2, by decide, restored, caseless_composed,
    (reference_framed tally (Token.built caseless_composed (.reserved "Text")) spread).1⟩

end ContextRoles.Source
