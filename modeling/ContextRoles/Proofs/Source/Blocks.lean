import ContextRoles.Proofs.Parsing.Blocks
import ContextRoles.Proofs.Source.Accumulation

/-! # Alignment of bodies

Tokens and rules keep the reference column, so blocks of them are aligned, also where an item holds
blocks of its own.
-/

namespace ContextRoles.Source

open Parsing Parser Lexeme

variable {ids : Nat → String}

theorem anyCase_cases (name : String) (s : State) :
    Language.anyCase name s = .success name (s.advance name.length) ∨
      ∃ e, Language.anyCase name s = .failure e s := by
  unfold Language.anyCase
  split
  · exact .inl rfl
  · exact .inr ⟨_, rfl⟩

theorem Special.sameColumn {α : Type} {p : Parser α} (h : Special ids p) : Ends SameColumn p := by
  cases h with
  | anyCase name =>
    intro s
    have hr := anyCase_cases name s
    -- The outcome is made a variable, so that nothing tries to compute the words that are compared.
    generalize Language.anyCase name s = r at hr ⊢
    rcases hr with rfl | ⟨e, rfl⟩ <;> exact rfl
  | freshId => exact threads_sameColumn.refl

/-- A block holds items that each start on the column where it starts, and stops off that column or
where an item fails without reading anything. Behind an indented block the text ends, or the cursor is
at or left of the reference column or on the column of the block. Without an indentation nothing is
read. The items may be any that combinators make of primitives, as all tokens and rules are
(`Token.built`, `Rule.built`). -/
theorem blocks_aligned (ids : Nat → String) {α : Type} {item : Parser α}
    (h : Built (Special ids) item) (s : State) :
    (∀ values t, block item s = .success values t →
      ∃ u v, Items item s.position.column (s.withReference s.position) values u ∧
        NoItem item s.position.column u ∧ t = (u.rewindFrom v).withReference s.reference) ∧
    (s.reference.column < s.position.column → ∀ values t,
      indentedBlock item s = .success values t → block item (entered s) = .success values t ∧
        (t.atEnd = true ∨ t.position.column ≤ s.reference.column ∨
          t.position.column = s.position.column)) ∧
    (s.position.column ≤ s.reference.column → indentedBlock item s = .success [] s) :=
  ⟨fun _ _ => items_of_block (h.ends threads_sameColumn Special.sameColumn),
    fun hopen _ _ => indentedBlock_success hopen, indentedBlock_of_le⟩

/-- Behind the header of a role, on the second line, with two properties to come. -/
def inBody : State where
  rest := ":p = 1\n\t:q = 2 -- two\n :r".toList
  offset := 7
  size := 32
  position := ⟨2, 9⟩
  reference := ⟨1, 2⟩

def behindBody : State where
  rest := ":r".toList
  offset := 30
  size := 32
  position := ⟨4, 2⟩
  consumed := true
  reference := ⟨2, 2⟩

theorem blocks_aligned_properties :
    Built (Special tally) rolePropertyAssignment ∧ inBody.reference.column < inBody.position.column ∧
    indentedBlock rolePropertyAssignment inBody = .success [(":p", "1"), (":q", "2")] behindBody ∧
    (∃ u v, Items rolePropertyAssignment 9 ((entered inBody).withReference ⟨2, 9⟩)
        [(":p", "1"), (":q", "2")] u ∧
      NoItem rolePropertyAssignment 9 u ∧ behindBody = (u.rewindFrom v).withReference ⟨2, 2⟩) ∧
    (behindBody.atEnd = true ∨ behindBody.position.column ≤ 2 ∨ behindBody.position.column = 9) ∧
    behindBody.position.column ≤ behindBody.reference.column ∧
    indentedBlock rolePropertyAssignment behindBody = .success [] behindBody := by
  have built : Built (Special tally) rolePropertyAssignment :=
    advancing_rolePropertyAssignment.plain.of_plain
  have hopen : inBody.reference.column < inBody.position.column := by decide
  have hr : indentedBlock rolePropertyAssignment inBody =
      .success [(":p", "1"), (":q", "2")] behindBody := by decide +kernel
  have hclosed : behindBody.position.column ≤ behindBody.reference.column := by decide
  have aligned := blocks_aligned tally built
  obtain ⟨hblock, hbehind⟩ := (aligned inBody).2.1 hopen _ _ hr
  exact ⟨built, hopen, hr, (aligned (entered inBody)).1 _ _ hblock, hbehind, hclosed,
    (aligned behindBody).2.2 hclosed⟩

end ContextRoles.Source
