import ContextRoles.Parsing.Position

/-! # The state of a parse

A state is a cursor into a text, with the reference position that indentation is compared with, the
flag that tells whether anything was read since the last checkpoint, and the number of generated
identifiers drawn so far.
-/

namespace ContextRoles.Parsing

structure State where
  /-- The text that is still to be read. -/
  rest : List Char
  /-- How many characters were read. A cursor that was moved beyond the end stays beyond it. -/
  offset : Nat := 0
  /-- The length of the whole text. -/
  size : Nat
  position : Position := {}
  /-- Whether anything was read since the last checkpoint. -/
  consumed : Bool := false
  /-- The position that indentation is measured against. -/
  reference : Position := {}
  /-- How many identifiers were generated, in abandoned branches too. -/
  drawn : Nat := 0
  deriving DecidableEq, Repr

namespace State

def start (text : String) : State :=
  let chars := text.toList
  { rest := chars, size := chars.length }

def remaining (s : State) : Nat := s.size - s.offset

def atEnd (s : State) : Bool := s.size ≤ s.offset

/-- Whether the text goes on with `expected`. Beyond the end not even the empty text follows. -/
def startsWith (s : State) (expected : List Char) : Bool :=
  s.offset ≤ s.size && expected.isPrefixOf s.rest

def advance (s : State) (count : Nat) : State :=
  { s with
    rest := s.rest.drop count
    offset := s.offset + count
    position := s.position.advanceAll (s.rest.take count)
    consumed := true }

def withConsumed (s : State) (consumed : Bool) : State := { s with consumed }

def withReference (s : State) (reference : Position) : State := { s with reference }

def checkpoint (s : State) : State := s.withConsumed false

/-- The cursor of `s` after a run that ended in `t`. Identifiers drawn on the way stay drawn. -/
def rewindFrom (s t : State) : State := { s with drawn := t.drawn }

end State

end ContextRoles.Parsing
