import ContextRoles.Proofs.Parsing.Totality

/-! # Identifiers drawn before

A plain parser draws no identifiers, and it does the same however many were drawn before.
-/

namespace ContextRoles.Parsing

namespace State

/-- The state with another number of identifiers drawn. -/
def redrawn (s : State) (n : Nat) : State := { s with drawn := n }

variable (s t : State) (n : Nat)

@[simp] theorem rest_redrawn : (s.redrawn n).rest = s.rest := rfl

@[simp] theorem position_redrawn : (s.redrawn n).position = s.position := rfl

@[simp] theorem reference_redrawn : (s.redrawn n).reference = s.reference := rfl

@[simp] theorem consumed_redrawn : (s.redrawn n).consumed = s.consumed := rfl

@[simp] theorem remaining_redrawn : (s.redrawn n).remaining = s.remaining := rfl

@[simp] theorem checkpoint_redrawn : (s.redrawn n).checkpoint = s.checkpoint.redrawn n := rfl

@[simp] theorem withConsumed_redrawn (b : Bool) :
    (s.redrawn n).withConsumed b = (s.withConsumed b).redrawn n := rfl

@[simp] theorem withReference_redrawn (r : Position) :
    (s.redrawn n).withReference r = (s.withReference r).redrawn n := rfl

@[simp] theorem rewindFrom_redrawn :
    (s.redrawn n).rewindFrom (t.redrawn n) = (s.rewindFrom t).redrawn n := rfl

@[simp] theorem advance_redrawn (count : Nat) :
    (s.redrawn n).advance count = (s.advance count).redrawn n := rfl

@[simp] theorem redrawn_drawn : s.redrawn s.drawn = s := rfl

end State

namespace Outcome

variable {α : Type}

/-- The outcome with another number of identifiers drawn. -/
def redrawn (r : Outcome α) (n : Nat) : Outcome α := r.mapState (·.redrawn n)

@[simp] theorem redrawn_success (a : α) (t : State) (n : Nat) :
    (success a t).redrawn n = success a (t.redrawn n) := rfl

@[simp] theorem redrawn_failure (e : ParseError) (t : State) (n : Nat) :
    (failure e t : Outcome α).redrawn n = failure e (t.redrawn n) := rfl

@[simp] theorem redrawn_stalled (n : Nat) : (stalled : Outcome α).redrawn n = stalled := rfl

theorem merge_redrawn (r : Outcome α) (b : Bool) (n : Nat) :
    (r.redrawn n).merge b = (r.merge b).redrawn n := by
  cases r <;> rfl

end Outcome

namespace Parser

open State

variable {α β : Type} {p q : Parser α}

/-- The number of draws is passed on, and nothing else depends on it. -/
def Steady (p : Parser α) : Prop := ∀ s n, p (s.redrawn n) = (p s).redrawn n

namespace Steady

theorem bind {f : α → Parser β} (h : Steady p) (h' : ∀ a, Steady (f a)) : Steady (p.bind f) := by
  intro s n
  simp only [Parser.bind, h s n]
  cases p s with
  | success a t => exact h' a t n
  | failure e t => rfl
  | stalled => rfl

theorem alt (h : Steady p) (h' : Steady q) : Steady (Parser.alt p q) := by
  intro s n
  simp only [Parser.alt, consumed_redrawn, checkpoint_redrawn, ← Outcome.merge_redrawn,
    h s.checkpoint n]
  congr 1
  cases p s.checkpoint with
  | success a t => rfl
  | failure e t =>
    simp only [Outcome.redrawn_failure, consumed_redrawn, rewindFrom_redrawn, h' _ n]
    split <;> rfl
  | stalled => rfl

theorem attempt (h : Steady p) : Steady (Parser.attempt p) := by
  intro s n
  simp only [Parser.attempt, h s n]
  cases p s <;> rfl

theorem furthest {ps : List (Parser α)} (h : ∀ p ∈ ps, Steady p) :
    Steady (Parser.furthest ps) := by
  have go : ∀ (ps : List (Parser α)) (best : Option (ParseError × State)) (s : State) n,
      (∀ p ∈ ps, Steady p) →
      Parser.furthest.go ps (best.map fun (e, t) => (e, t.redrawn n)) (s.redrawn n) =
        (Parser.furthest.go ps best s).redrawn n := by
    intro ps
    induction ps with
    | nil => rintro (_ | ⟨e, t⟩) s n _ <;> rfl
    | cons p ps ih =>
      intro best s n hps
      rw [List.forall_mem_cons] at hps
      rw [Parser.furthest.go, Parser.furthest.go, hps.1 s n]
      cases p s with
      | success a t => rfl
      | failure e t =>
        simp only [Outcome.redrawn_failure, rewindFrom_redrawn]
        rw [← ih _ _ n hps.2]
        congr 1
        cases best with
        | none => rfl
        | some f =>
          simp only [furthestFailure, Option.map]
          split <;> rfl
      | stalled => rfl
  intro s n
  simp only [Parser.furthest, consumed_redrawn, checkpoint_redrawn, ← Outcome.merge_redrawn]
  exact congrArg _ (go ps none s.checkpoint n h)

theorem many (h : Steady p) : Steady (Parser.many p) := by
  have rounds : ∀ values s n, Parser.manyFrom p values (s.redrawn n) =
      (Parser.manyFrom p values s).redrawn n := by
    intro values s n
    induction values, s using Parser.manyFrom.induct p with
    | case1 values s e t hr hc =>
      rw [Parser.manyFrom, Parser.manyFrom, checkpoint_redrawn, h s.checkpoint n]
      simp only [hr, Outcome.redrawn_failure, consumed_redrawn, hc, if_true]
    | case2 values s e t hr hc =>
      rw [Parser.manyFrom, Parser.manyFrom, checkpoint_redrawn, h s.checkpoint n]
      simp only [hr, Outcome.redrawn_failure, consumed_redrawn, hc, rewindFrom_redrawn]
      rfl
    | case3 values s a t hr hlt ih =>
      rw [Parser.manyFrom, Parser.manyFrom.eq_def p values s, checkpoint_redrawn, h s.checkpoint n]
      simp only [hr, Outcome.redrawn_success, remaining_redrawn, hlt, if_true, withConsumed_redrawn]
      exact ih
    | case4 values s a t hr hlt =>
      rw [Parser.manyFrom, Parser.manyFrom.eq_def p values s, checkpoint_redrawn, h s.checkpoint n]
      simp only [hr, Outcome.redrawn_success, remaining_redrawn, hlt, if_false,
        Outcome.redrawn_stalled]
    | case5 values s hr =>
      rw [Parser.manyFrom, Parser.manyFrom.eq_def p values s, checkpoint_redrawn, h s.checkpoint n]
      simp only [hr, Outcome.redrawn_stalled]
  exact rounds []

theorem lookahead (h : Steady p) : Steady (Parser.lookahead p) := by
  intro s n
  simp only [Parser.lookahead, h s n]
  cases p s <;> rfl

theorem notFollowedBy (h : Steady p) : Steady (Parser.notFollowedBy p) := by
  intro s n
  simp only [Parser.notFollowedBy, h s n]
  cases p s <;> rfl

theorem withPosition (h : Steady p) : Steady (Parser.withPosition p) := by
  intro s n
  simp only [Parser.withPosition, position_redrawn, withReference_redrawn, h _ n]
  cases p (s.withReference s.position) <;> rfl

theorem indented : Steady Parser.indented := by
  intro s n
  by_cases h : s.position.column ≤ s.reference.column <;>
    simp only [Parser.indented, position_redrawn, reference_redrawn, withReference_redrawn, h,
      if_true, if_false, Outcome.redrawn_success, Outcome.redrawn_failure]

theorem indentedBlock (h : Steady (block p)) : Steady (Parser.indentedBlock p) := by
  intro s n
  simp only [Parser.indentedBlock, indented s n]
  cases Parser.indented s with
  | success u opened =>
    simp only [Outcome.redrawn_success, h opened n]
    cases block p opened with
    | success values t =>
      exact (apply_ite (Outcome.redrawn · n) _
        (Outcome.failure ⟨.indentationMismatch, t.position⟩ t) (Outcome.success values t)).symm
    | failure e t => rfl
    | stalled => rfl
  | failure e t => rfl
  | stalled => rfl

theorem of_test {test : State → Prop} [DecidablePred test] {cause : Cause}
    (h : ∀ (s : State) n, test (s.redrawn n) ↔ test s) :
    Steady fun s => if test s then .success () s else .failure ⟨cause, s.position⟩ s := by
  intro s n
  by_cases hs : test s <;> simp only [h, hs, if_true, if_false] <;> rfl

theorem primitive (h : Primitive p) : Steady p := by
  cases h with
  | satisfy accepts =>
    intro s n
    simp only [Parser.satisfy, rest_redrawn]
    split
    · rfl
    · split <;> rfl
  | string expected =>
    intro s n
    have hs : (s.redrawn n).startsWith expected.toList = s.startsWith expected.toList := rfl
    simp only [Parser.string, hs]
    split <;> rfl
  | blockComment lang =>
    intro s n
    have hs : (s.redrawn n).startsWith lang.commentStart.toList =
        s.startsWith lang.commentStart.toList := rfl
    simp only [Lexeme.Language.blockComment, hs, advance_redrawn, rest_redrawn]
    split
    · split <;> rfl
    · rfl
  | indented => exact indented
  | stalled => exact fun _ _ => rfl
  | fail cause => exact fun _ _ => rfl
  | pure a => exact fun _ _ => rfl
  | getPosition => exact fun _ _ => rfl
  | getReference => exact fun _ _ => rfl
  | endOfInput => exact of_test fun _ _ => Iff.rfl
  | sameLine => exact of_test fun _ _ => Iff.rfl
  | checkIndent => exact of_test fun _ _ => Iff.rfl

end Steady

theorem Built.steady (h : Plain p) : Steady p := by
  induction h with
  | extra h => exact h.elim
  | primitive h => exact .primitive h
  | bind _ _ ih ih' => exact ih.bind ih'
  | alt _ _ ih ih' => exact ih.alt ih'
  | attempt _ ih => exact ih.attempt
  | furthest _ ih => exact .furthest ih
  | many _ ih => exact ih.many
  | lookahead _ ih => exact ih.lookahead
  | notFollowedBy _ ih => exact ih.notFollowedBy
  | withPosition _ ih => exact ih.withPosition
  | indentedBlock _ ih => exact ih.indentedBlock
  | atRemaining _ ih => exact fun s n => ih s.remaining s n

theorem Steady.drawn_failure (h : Steady p) {s t : State} {e : ParseError}
    (hr : p s = .failure e t) : t.drawn = s.drawn := by
  have hs := h s s.drawn
  rw [redrawn_drawn, hr] at hs
  have ht : t = t.redrawn s.drawn := (Outcome.failure.inj hs).2
  rw [ht]
  rfl

end Parser

end ContextRoles.Parsing
