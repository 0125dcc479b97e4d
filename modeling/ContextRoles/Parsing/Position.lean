/-! # Positions

Lines and columns count from one. A line feed starts a new line, and a tab moves to the next column
that is one more than a multiple of eight.
-/

namespace ContextRoles.Parsing

def tabWidth : Nat := 8

/-- A place in a text, ordered by line and then by column. -/
structure Position where
  line : Nat := 1
  column : Nat := 1
  deriving DecidableEq, Repr, Inhabited

namespace Position

def advance (p : Position) (c : Char) : Position :=
  if c = '\n' then ⟨p.line + 1, 1⟩
  else if c = '\t' then ⟨p.line, p.column + tabWidth - (p.column + (tabWidth - 1)) % tabWidth⟩
  else ⟨p.line, p.column + 1⟩

def advanceAll (p : Position) (text : List Char) : Position := text.foldl advance p

/-- Whether `p` lies before `q` in every text that holds both. -/
def before (p q : Position) : Bool :=
  p.line < q.line || (p.line == q.line && p.column < q.column)

instance : ToString Position := ⟨fun p => s!"line {p.line}, column {p.column}"⟩

@[simp] theorem advanceAll_nil (p : Position) : p.advanceAll [] = p := rfl

@[simp] theorem advanceAll_cons (p : Position) (c : Char) (text : List Char) :
    p.advanceAll (c :: text) = (p.advance c).advanceAll text := rfl

theorem advanceAll_append (p : Position) (x y : List Char) :
    p.advanceAll (x ++ y) = (p.advanceAll x).advanceAll y := by
  simp [advanceAll]

end Position

end ContextRoles.Parsing
