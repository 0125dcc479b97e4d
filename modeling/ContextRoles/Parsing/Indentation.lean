import ContextRoles.Parsing.Repetition

/-! # Indentation

The cursor is compared with the reference position of the state. `withPosition` moves the reference to
the cursor for the duration of a parser, so each level of nesting measures against its own header.
-/

namespace ContextRoles.Parsing.Parser

variable {α : Type}

def getReference : Parser Position := fun s => .success s.reference s

/-- Runs `p` with the cursor as reference and restores the old reference afterwards. -/
def withPosition (p : Parser α) : Parser α := fun s =>
  (p (s.withReference s.position)).mapState (·.withReference s.reference)

/-- Succeeds right of the reference column and moves the reference to the current line. -/
def indented : Parser Unit := fun s =>
  if s.position.column ≤ s.reference.column then .failure ⟨.notIndented, s.position⟩ s
  else .success () (s.withReference ⟨s.position.line, s.reference.column⟩)

def sameLine : Parser Unit := fun s =>
  if s.position.line = s.reference.line then .success () s
  else .failure ⟨.overOneLine, s.position⟩ s

def sameOrIndented : Parser Unit := alt sameLine indented

def checkIndent : Parser Unit := fun s =>
  if s.position.column = s.reference.column then .success () s
  else .failure ⟨.indentationMismatch, s.position⟩ s

/-- Rounds of `p` that all start on the column where the block starts. -/
def block (p : Parser α) : Parser (List α) := withPosition (many (checkIndent.then_ p))

/-- An optional block right of the reference column. It may not be followed by a line that is still
right of the reference column and not on the column of the block. -/
def indentedBlock (p : Parser α) : Parser (List α) := fun s =>
  match indented s with
  | .success _ opened =>
    match block p opened with
    | .success values t =>
      if !t.atEnd && t.reference.column < t.position.column &&
          t.position.column != opened.position.column then
        .failure ⟨.indentationMismatch, t.position⟩ t
      else .success values t
    | r => r
  | _ => .success [] s

end ContextRoles.Parsing.Parser
