import ContextRoles.Parsing.Parser

/-! # Alternatives

An alternative gives way to the next one only when it failed without reading anything. `attempt`
makes a failure look that way, and `furthest` tries every alternative whatever the others read.
-/

namespace ContextRoles.Parsing.Parser

variable {α : Type}

/-- Runs `p`, and `q` from the same place if `p` failed without reading anything. -/
def alt (p q : Parser α) : Parser α := fun s =>
  Outcome.merge s.consumed <|
    match p s.checkpoint with
    | .failure e t => if t.consumed then .failure e t else q (s.checkpoint.rewindFrom t)
    | r => r

instance : OrElse (Parser α) := ⟨fun p q => alt p (q ())⟩

def attempt (p : Parser α) : Parser α := fun s =>
  match p s with
  | .failure e t => .failure e (t.withConsumed s.consumed)
  | r => r

/-- Names what was expected where `p` fails without reading anything. -/
def label (p : Parser α) (name : String) : Parser α := alt p (fail (.expected name))

def choice : List (Parser α) → Parser α
  | [] => fail .noAlternatives
  | p :: ps => ps.foldl alt p

def option (default : α) (p : Parser α) : Parser α := alt p (Parser.pure default)

def optional {β : Type} (p : Parser β) : Parser Unit := alt (p.result ()) (Parser.pure ())

/-- The failure that lies further in the text; of two in one place the second. -/
def furthestFailure (best : Option (ParseError × State)) (e : ParseError) (t : State) :
    ParseError × State :=
  match best with
  | some (e', t') => if e.position.before e'.position then (e', t') else (e, t)
  | none => (e, t)

/-- Tries the alternatives in turn from one state. The first success wins; when all of them fail, the
failure furthest into the text is kept together with its flag. -/
def furthest (ps : List (Parser α)) : Parser α := fun s =>
  Outcome.merge s.consumed (go ps none s.checkpoint)
where
  go : List (Parser α) → Option (ParseError × State) → State → Outcome α
    | [], none, s => .failure ⟨.noAlternatives, s.position⟩ s
    | [], some (e, t), s => .failure e (t.rewindFrom s)
    | p :: ps, best, s =>
      match p s with
      | .failure e t => go ps (some (furthestFailure best e t)) (s.rewindFrom t)
      | r => r

def lookahead (p : Parser α) : Parser α := fun s =>
  match p s with
  | .success a t => .success a (s.rewindFrom t)
  | r => r

/-- Succeeds in place exactly when `p` does not match here. -/
def notFollowedBy (p : Parser α) : Parser Unit := fun s =>
  match p s with
  | .success _ t => .failure ⟨.negated, s.position⟩ (s.rewindFrom t)
  | .failure _ t => .success () (s.rewindFrom t)
  | .stalled => .stalled

end ContextRoles.Parsing.Parser
