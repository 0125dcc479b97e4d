import ContextRoles.Parsing.State

/-! # Parsers

A parser runs from a state and succeeds or fails in another. A third outcome, `stalled`, is kept for
runs that come to no result: a repetition whose body succeeds without reading anything, a recursion
that reads nothing, or a step on a value that it is not defined for.
-/

namespace ContextRoles.Parsing

/-- Why a text does not match a grammar. -/
inductive Cause where
  | expected (what : String)
  | unexpected (what : String)
  | negated
  | noAlternatives
  | notIndented
  | indentationMismatch
  | overOneLine
  | invalidEscape
  | unknownDataType (name : String)
  | stalled
  | other (message : String)
  deriving DecidableEq, Repr

structure ParseError where
  cause : Cause
  position : Position
  deriving DecidableEq, Repr

inductive Outcome (α : Type) where
  | success (value : α) (state : State)
  | failure (error : ParseError) (state : State)
  | stalled
  deriving Repr

namespace Outcome

variable {α β : Type}

def map (f : α → β) : Outcome α → Outcome β
  | success a t => success (f a) t
  | failure e t => failure e t
  | stalled => stalled

def mapState (f : State → State) : Outcome α → Outcome α
  | success a t => success a (f t)
  | failure e t => failure e (f t)
  | stalled => stalled

/-- Carries the flag from before a checkpoint into an outcome. -/
def merge (consumed : Bool) (r : Outcome α) : Outcome α :=
  r.mapState fun t => t.withConsumed (consumed || t.consumed)

end Outcome

def Parser (α : Type) : Type := State → Outcome α

namespace Parser

variable {α β : Type}

protected def pure (a : α) : Parser α := fun s => .success a s

/-- Runs `p` and goes on with the parser that `f` makes of its value. A failure is passed on with
the state in which it arose; nothing is undone. -/
protected def bind (p : Parser α) (f : α → Parser β) : Parser β := fun s =>
  match p s with
  | .success a t => f a t
  | .failure e t => .failure e t
  | .stalled => .stalled

protected def map (f : α → β) (p : Parser α) : Parser β := fun s => (p s).map f

instance : Monad Parser where
  pure := Parser.pure
  bind := Parser.bind
  map f p := Parser.map f p

def result (p : Parser α) (b : β) : Parser β := p.map fun _ => b

def then_ (p : Parser α) (q : Parser β) : Parser β := p.bind fun _ => q

def skip (p : Parser α) (q : Parser β) : Parser α := p.bind fun a => q.result a

def between {γ : Type} (opening : Parser α) (closing : Parser β) (p : Parser γ) : Parser γ :=
  (opening.then_ p).skip closing

def fail (cause : Cause) : Parser α := fun s => .failure ⟨cause, s.position⟩ s

def unexpected (what : String) : Parser α := fail (.unexpected what)

def getPosition : Parser Position := fun s => .success s.position s

def require : Option α → Parser α
  | some a => Parser.pure a
  | none => fun _ => .stalled

def endOfInput : Parser Unit := fun s =>
  if s.atEnd then .success () s else .failure ⟨.expected "end of input", s.position⟩ s

end Parser

end ContextRoles.Parsing
