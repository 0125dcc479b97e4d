import ContextRoles.Proofs.Parsing.Totality

/-! # Where the items of a block stand

No run moves the reference column, so every item of a block is measured against the column where the
block starts. A block stops off that column, or where an item fails without reading anything. An
indented block does not leave over what is right of the reference column, unless it stands on the
column of the block.
-/

namespace ContextRoles.Parsing.Parser

open State

variable {α : Type} {item : Parser α} {column : Nat} {s t u : State} {values : List α}

/-- The reference column is the same in two states. -/
def SameColumn (s t : State) : Prop := t.reference.column = s.reference.column

theorem threads_sameColumn : Threads SameColumn where
  refl _ := rfl
  trans h h' := h'.trans h
  of_checkpoint h := h
  withConsumed h _ := h
  rewindFrom h _ := h
  restore _ := rfl
  enterLine _ := rfl
  advance _ _ _ := rfl

/-- Items one after the other: each is started on the column, where the one before it ended. -/
inductive Items (item : Parser α) (column : Nat) : State → List α → State → Prop where
  | nil (s : State) : Items item column s [] s
  | cons {s u t : State} {a : α} {values : List α} : s.position.column = column →
      item s.checkpoint = .success a u → Items item column (u.withConsumed true) values t →
      Items item column s (a :: values) t

/-- Off the column, or where an item fails without reading anything. -/
def NoItem (item : Parser α) (column : Nat) (s : State) : Prop :=
  s.position.column ≠ column ∨ ∃ e t, item s.checkpoint = .failure e t ∧ t.consumed = false

theorem items_of_manyFrom (h : Ends SameColumn item) {before all : List α}
    (hcolumn : s.reference.column = column)
    (hr : manyFrom (checkIndent.then_ item) before s = .success all t) :
    ∃ values u v, all = before.reverse ++ values ∧ Items item column s values u ∧
      NoItem item column u ∧ t = u.rewindFrom v := by
  refine manyFrom_induction (motive := fun before s => s.reference.column = column →
    ∃ values u v, all = before.reverse ++ values ∧ Items item column s values u ∧
      NoItem item column u ∧ t = u.rewindFrom v) ?_ ?_ hr hcolumn
  · rintro before s e v hv hc rfl rfl hcolumn
    refine ⟨[], s, v, (List.append_nil _).symm, .nil s, ?_, rfl⟩
    rw [checkIndent_then_eq] at hv
    split at hv
    · exact .inr ⟨e, v, hv, hc⟩
    next hs => exact .inl fun h => hs (h.trans hcolumn.symm)
  · intro before s a v hv ih hcolumn
    rw [checkIndent_then_eq] at hv
    split at hv
    next hs =>
      have hsame : v.reference.column = s.reference.column := (h.success hv :)
      obtain ⟨values, u, w, rfl, hitems, hstops, ht⟩ := ih (hsame.trans hcolumn)
      exact ⟨a :: values, u, w, by simp, .cons (hs.trans hcolumn) hv hitems, hstops, ht⟩
    · cases hv

/-- The values of a block are those of items on the column where it starts, and it ends at the cursor
where it stops. -/
theorem items_of_block (h : Ends SameColumn item) (hr : block item s = .success values t) :
    ∃ u v, Items item s.position.column (s.withReference s.position) values u ∧
      NoItem item s.position.column u ∧ t = (u.rewindFrom v).withReference s.reference := by
  obtain ⟨w, hw, rfl⟩ := mapState_eq_success.mp hr
  obtain ⟨values, u, v, rfl, hitems, hstops, rfl⟩ := items_of_manyFrom h rfl hw
  exact ⟨u, v, hitems, hstops, rfl⟩

theorem indentedBlock_of_le (h : s.position.column ≤ s.reference.column) :
    indentedBlock item s = .success [] s := by
  simp only [indentedBlock, indented, if_pos h]

/-- The reference is moved to the line of the cursor before an indented block. -/
def entered (s : State) : State := s.withReference ⟨s.position.line, s.reference.column⟩

theorem indentedBlock_success (h : s.reference.column < s.position.column)
    (hr : indentedBlock item s = .success values t) : block item (entered s) = .success values t ∧
      (t.atEnd = true ∨ t.position.column ≤ s.reference.column ∨
        t.position.column = s.position.column) := by
  have hopen : indented s = .success () (entered s) := if_neg (Nat.not_le.mpr h)
  simp only [indentedBlock, hopen] at hr
  cases hb : block item (entered s) with
  | success all u =>
    simp only [hb] at hr
    split at hr
    · cases hr
    next hstop =>
      cases hr
      have hsame : t.reference.column = s.reference.column := by
        obtain ⟨w, -, rfl⟩ := mapState_eq_success.mp hb
        rfl
      simp only [hsame, Bool.and_eq_true, Bool.not_eq_true', decide_eq_true_eq, bne_iff_ne] at hstop
      refine ⟨rfl, Decidable.byContradiction fun hleft => hstop ?_⟩
      simp only [not_or, Nat.not_le, Bool.not_eq_true] at hleft
      exact ⟨⟨hleft.1, hleft.2.1⟩, hleft.2.2⟩
  | failure e u => simp [hb] at hr
  | stalled => simp [hb] at hr

end ContextRoles.Parsing.Parser
