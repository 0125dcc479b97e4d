import ContextRoles.Parsing.Choice

/-! # Repetitions

A repetition ends where its body fails without reading anything, and fails where its body fails after
reading something. A body that succeeds without reading anything stalls the repetition, so each round
leaves less text and the loop ends.
-/

namespace ContextRoles.Parsing.Parser

variable {α β γ : Type}

/-- The rounds of a repetition, with the values of the rounds before in reverse. -/
def manyFrom (p : Parser α) (values : List α) (s : State) : Outcome (List α) :=
  match p s.checkpoint with
  | .failure e t => if t.consumed then .failure e t else .success values.reverse (s.rewindFrom t)
  | .success a t =>
    if t.remaining < s.remaining then manyFrom p (a :: values) (t.withConsumed true) else .stalled
  | .stalled => .stalled
termination_by s.remaining
decreasing_by simpa [State.remaining, State.withConsumed] using ‹_›

def many (p : Parser α) : Parser (List α) := manyFrom p []

def some (p : Parser α) : Parser (List α) := p.bind fun a => (many p).map (a :: ·)

def skipMany (p : Parser α) : Parser Unit := (many p).result ()

def skipSome (p : Parser α) : Parser Unit := (some p).result ()

def sepBy1 (p : Parser α) (separator : Parser β) : Parser (List α) :=
  p.bind fun a => (many (separator.then_ p)).map (a :: ·)

def sepBy (p : Parser α) (separator : Parser β) : Parser (List α) :=
  option [] (sepBy1 p separator)

def endBy1 (p : Parser α) (separator : Parser β) : Parser (List α) := some (p.skip separator)

def endBy (p : Parser α) (separator : Parser β) : Parser (List α) := many (p.skip separator)

def sequence : List (Parser α) → Parser (List α)
  | [] => Parser.pure []
  | p :: ps => p.bind fun a => (sequence ps).map (a :: ·)

end ContextRoles.Parsing.Parser
