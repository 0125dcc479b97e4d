import ContextRoles.Parsing.Parser

/-! # Recursive grammars

A family of parsers may refer to itself. A reference that is entered again must have read something
since, or find some of its budget left for entries in one place; otherwise the recursion stalls. So
every run ends, whatever the grammar.
-/

namespace ContextRoles.Parsing.Parser

variable {ι α : Type}

/-- Runs a recursive family. `room` bounds the text that may be left, `budget` the entries that do not
read anything before the next one. -/
def recurseFrom (limit : Nat) (body : (ι → Parser α) → ι → Parser α) (room budget : Nat) (i : ι)
    (s : State) : Outcome α :=
  body (fun j t =>
    if t.remaining < room then recurseFrom limit body t.remaining limit j t
    else if 0 < budget then recurseFrom limit body room (budget - 1) j t
    else .stalled) i s
termination_by room * (limit + 1) + budget
decreasing_by
  · have h : (t.remaining + 1) * (limit + 1) ≤ room * (limit + 1) := Nat.mul_le_mul_right _ ‹_›
    rw [Nat.succ_mul] at h
    omega
  · omega

/-- What a member of the family runs where it refers to the family. -/
def reenter (limit : Nat) (body : (ι → Parser α) → ι → Parser α) (room budget : Nat) (j : ι) :
    Parser α := fun t =>
  if t.remaining < room then recurseFrom limit body t.remaining limit j t
  else if 0 < budget then recurseFrom limit body room (budget - 1) j t
  else .stalled

theorem recurseFrom_eq (limit : Nat) (body : (ι → Parser α) → ι → Parser α) (room budget : Nat)
    (i : ι) : recurseFrom limit body room budget i = body (reenter limit body room budget) i := by
  funext s
  rw [recurseFrom]
  rfl

/-- The parsers of a family that refers to itself by `body`. `limit` is the number of entries allowed
in one place. -/
def recurse (limit : Nat) (body : (ι → Parser α) → ι → Parser α) (i : ι) : Parser α := fun s =>
  recurseFrom limit body s.remaining limit i s

end ContextRoles.Parsing.Parser
