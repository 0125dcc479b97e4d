import ContextRoles.Proofs.Parsing.Repetition
import ContextRoles.Proofs.Source.Course

/-! # Repetitions of tokens and rules

Whatever is repeated, the repetition comes to an end. Where it has a result, it has that of one or more
rounds or none, and that of the recursion by which it may be defined.
-/

namespace ContextRoles.Source

open Parsing Lexeme
open ContextRoles.Parsing.Parser hiding some

variable {ids : Nat → String}

/-- A repetition that has a result, as every one has that does not succeed in place, comes to the outcome
of one or more rounds or none, which is also that of the recursion with any number of entries allowed in
one place. From a cursor into a text, or one that was moved beyond its end, the rounds come to an end,
and only to the outcome of the repetition. The parser may be any that combinators make of primitives, as
all tokens and rules are (`Token.built`, `Rule.built`). -/
theorem many_recursive (ids : Nat → String) {α : Type} {p : Parser α} (h : Built (Special ids) p)
    (s : State) :
    (many p s ≠ .stalled →
      many p s = alt (Parser.some p) (Parser.pure []) s ∧
      ∀ limit, many p s = recurse limit (manyRecursive p) () s) ∧
    (s.Placed → Iterates p [] s (many p s) ∧ ∀ r, Iterates p [] s r → r = many p s) := by
  have flag := h.accumulates Special.accumulates
  have onward := h.ends threads_onward Special.onward
  refine ⟨fun hne => ⟨many_eq_alt flag onward hne, fun limit => ?_⟩,
    fun hs => ⟨iterates_manyFrom onward [] hs, fun r hr => hr.eq_manyFrom onward hs⟩⟩
  exact (recurse_eq_many flag onward limit hne).symm

/-- Two properties and a header. -/
def listed : String := ":p = 1 -- one\n:q = 2\n:A :B"

def behindListed : State where
  rest := ":A :B".toList
  offset := 21
  size := 26
  position := ⟨3, 1⟩
  consumed := true

theorem many_recursive_listed :
    Built (Special tally) rolePropertyAssignment ∧
    many rolePropertyAssignment (State.start listed) ≠ .stalled ∧
    alt (Parser.some rolePropertyAssignment) (Parser.pure []) (State.start listed) =
      .success [(":p", "1"), (":q", "2")] behindListed ∧
    recurse 0 (manyRecursive rolePropertyAssignment) () (State.start listed) =
      .success [(":p", "1"), (":q", "2")] behindListed ∧
    (State.start listed).Placed ∧
    Iterates rolePropertyAssignment [] (State.start listed)
      (.success [(":p", "1"), (":q", "2")] behindListed) ∧
    caseless.Composed (Special tally) ∧
    Iterates (Token.whiteSpace.parser caseless) [] (State.start listed) .stalled := by
  have built : Built (Special tally) rolePropertyAssignment :=
    advancing_rolePropertyAssignment.plain.of_plain
  have hr : many rolePropertyAssignment (State.start listed) =
      .success [(":p", "1"), (":q", "2")] behindListed := by decide +kernel
  have hne : many rolePropertyAssignment (State.start listed) ≠ .stalled := by
    rw [hr]
    exact nofun
  have hplaced : (State.start listed).Placed := (State.sound_start listed).placed
  have hstalled : many (Token.whiteSpace.parser caseless) (State.start listed) = .stalled := by
    decide +kernel
  obtain ⟨recursive, ends⟩ := many_recursive tally built (State.start listed)
  obtain ⟨hsome, hrecursive⟩ := recursive hne
  have spaces := many_recursive tally (Token.built caseless_composed .whiteSpace) (State.start listed)
  exact ⟨built, hne, hsome ▸ hr, hrecursive 0 ▸ hr, hplaced, hr ▸ (ends hplaced).1,
    caseless_composed, hstalled ▸ (spaces.2 hplaced).1⟩

end ContextRoles.Source
