import ContextRoles.Proofs.Parsing.Built

/-! # What relates the two ends of a run

A relation between the states before and after a run is passed on from the parts of a combinator to the
whole, if checkpoints, rewinds and moves of the reference keep it. What holds of every step forward then
holds of every run, whether it succeeds or fails.
-/

namespace ContextRoles.Parsing

namespace State

theorem startsWith_iff {s : State} {text : List Char} :
    s.startsWith text = true ↔ s.offset ≤ s.size ∧ text <+: s.rest := by
  simp [startsWith]

end State

namespace Outcome

variable {α : Type} {P Q : State → Prop}

/-- Whether a run that comes to a result ends in a state with a property. -/
def EndsIn (P : State → Prop) : Outcome α → Prop
  | success _ t => P t
  | failure _ t => P t
  | stalled => True

theorem EndsIn.mono {r : Outcome α} (h : r.EndsIn P) (hPQ : ∀ t, P t → Q t) : r.EndsIn Q := by
  cases r with
  | success a t => exact hPQ t h
  | failure e t => exact hPQ t h
  | stalled => trivial

theorem EndsIn.mapState {r : Outcome α} {f : State → State} (h : r.EndsIn fun t => P (f t)) :
    (r.mapState f).EndsIn P := by
  cases r <;> exact h

end Outcome

namespace Parser

open State

variable {α β : Type} {R : State → State → Prop}

/-- A relation that steps forward and moves of the reference line have, and that what combinators do
between the runs of their parts keeps. -/
structure Threads (R : State → State → Prop) : Prop where
  refl : ∀ s, R s s
  trans : ∀ {s t u}, R s t → R t u → R s u
  of_checkpoint : ∀ {s t}, R s.checkpoint t → R s t
  withConsumed : ∀ {s t}, R s t → ∀ b, R s (t.withConsumed b)
  rewindFrom : ∀ {s t u}, R s t → R s u → R s (t.rewindFrom u)
  restore : ∀ {s t r}, R (s.withReference r) t → R s (t.withReference s.reference)
  enterLine : ∀ s, R s (s.withReference ⟨s.position.line, s.reference.column⟩)
  advance : ∀ s n, n ≤ s.rest.length → R s (s.advance n)

/-- Both ends of every run are related. -/
def Ends (R : State → State → Prop) (p : Parser α) : Prop := ∀ s, (p s).EndsIn (R s)

namespace Ends

variable {p q : Parser α} {s t : State}

theorem success {a : α} (h : Ends R p) (hr : p s = .success a t) : R s t := by
  have := h s
  rwa [hr] at this

theorem failure {e : ParseError} (h : Ends R p) (hr : p s = .failure e t) : R s t := by
  have := h s
  rwa [hr] at this

section Combinators

variable (hR : Threads R)

include hR

theorem bind {f : α → Parser β} (h : Ends R p) (h' : ∀ a, Ends R (f a)) : Ends R (p.bind f) := by
  intro s
  simp only [Parser.bind]
  cases hr : p s with
  | success a t => exact (h' a t).mono fun u hu => hR.trans (h.success hr) hu
  | failure e t => exact h.failure hr
  | stalled => trivial

theorem alt (h : Ends R p) (h' : Ends R q) : Ends R (Parser.alt p q) := by
  intro s
  apply Outcome.EndsIn.mapState
  cases hr : p s.checkpoint with
  | success a t => exact hR.withConsumed (hR.of_checkpoint (h.success hr)) _
  | failure e t =>
    have ht := h.failure hr
    dsimp only
    split
    · exact hR.withConsumed (hR.of_checkpoint ht) _
    · refine (h' _).mono fun u hu => hR.withConsumed (hR.of_checkpoint ?_) _
      exact hR.trans (hR.rewindFrom (hR.refl _) ht) hu
  | stalled => trivial

theorem attempt (h : Ends R p) : Ends R (Parser.attempt p) := by
  intro s
  simp only [Parser.attempt]
  cases hr : p s with
  | success a t => exact h.success hr
  | failure e t => exact hR.withConsumed (h.failure hr) _
  | stalled => trivial

theorem furthest_go {ps : List (Parser α)} (h : ∀ p ∈ ps, Ends R p)
    {best : Option (ParseError × State)} {u : State} (hu : R s u) (hbest : ∀ f ∈ best, R s f.2) :
    (Parser.furthest.go ps best u).EndsIn (R s) := by
  induction ps generalizing best u with
  | nil =>
    cases best with
    | none => exact hu
    | some f => exact hR.rewindFrom (hbest f rfl) hu
  | cons p ps ih =>
    rw [List.forall_mem_cons] at h
    rw [Parser.furthest.go]
    cases hr : p u with
    | success a t => exact hR.trans hu (h.1.success hr)
    | failure e t =>
      have ht := hR.trans hu (h.1.failure hr)
      refine ih h.2 (hR.rewindFrom hu ht) ?_
      intro f hf
      cases best with
      | none =>
        simp only [furthestFailure, Option.mem_def, Option.some.injEq] at hf
        exact hf ▸ ht
      | some f' =>
        simp only [furthestFailure, Option.mem_def, Option.some.injEq] at hf
        split at hf
        · exact hf ▸ hbest f' rfl
        · exact hf ▸ ht
    | stalled => trivial

theorem furthest {ps : List (Parser α)} (h : ∀ p ∈ ps, Ends R p) : Ends R (Parser.furthest ps) := by
  intro s
  apply Outcome.EndsIn.mapState
  refine (furthest_go hR h (hR.refl s.checkpoint) fun f hf => by simp at hf).mono fun t ht => ?_
  exact hR.withConsumed (hR.of_checkpoint ht) _

theorem manyFrom (h : Ends R p) (values : List α) (s : State) :
    (Parser.manyFrom p values s).EndsIn (R s) := by
  induction values, s using Parser.manyFrom.induct p with
  | case1 values s e t hr hc =>
    rw [Parser.manyFrom]
    simp only [hr, hc, if_true]
    exact hR.of_checkpoint (h.failure hr)
  | case2 values s e t hr hc =>
    rw [Parser.manyFrom]
    simp only [hr, hc]
    exact hR.rewindFrom (hR.refl s) (hR.of_checkpoint (h.failure hr))
  | case3 values s a t hr hlt ih =>
    rw [Parser.manyFrom]
    simp only [hr, hlt, if_true]
    exact ih.mono fun u hu =>
      hR.trans (hR.withConsumed (hR.of_checkpoint (h.success hr)) true) hu
  | case4 values s a t hr hlt =>
    rw [Parser.manyFrom]
    simp only [hr, hlt, if_false]
    trivial
  | case5 values s hr =>
    rw [Parser.manyFrom]
    simp only [hr]
    trivial

theorem lookahead (h : Ends R p) : Ends R (Parser.lookahead p) := by
  intro s
  simp only [Parser.lookahead]
  cases hr : p s with
  | success a t => exact hR.rewindFrom (hR.refl s) (h.success hr)
  | failure e t => exact h.failure hr
  | stalled => trivial

theorem notFollowedBy (h : Ends R p) : Ends R (Parser.notFollowedBy p) := by
  intro s
  simp only [Parser.notFollowedBy]
  cases hr : p s with
  | success a t => exact hR.rewindFrom (hR.refl s) (h.success hr)
  | failure e t => exact hR.rewindFrom (hR.refl s) (h.failure hr)
  | stalled => trivial

theorem withPosition (h : Ends R p) : Ends R (Parser.withPosition p) := by
  intro s
  apply Outcome.EndsIn.mapState
  exact (h _).mono fun t ht => hR.restore ht

theorem indented : Ends R Parser.indented := by
  intro s
  simp only [Parser.indented]
  split
  · exact hR.refl s
  · exact hR.enterLine s

theorem indentedBlock (h : Ends R (block p)) : Ends R (Parser.indentedBlock p) := by
  intro s
  simp only [Parser.indentedBlock]
  split
  next opened ho =>
    have hs := (indented hR).success ho
    cases hr : block p opened with
    | success values t =>
      have ht := hR.trans hs (h.success hr)
      dsimp only
      split <;> exact ht
    | failure e t => exact hR.trans hs (h.failure hr)
    | stalled => trivial
  · exact hR.refl s

theorem satisfy (accepts : Char → Bool) : Ends R (Parser.satisfy accepts) := by
  intro s
  simp only [Parser.satisfy]
  split
  · exact hR.refl s
  next c rest hrest =>
    split
    · exact hR.advance s 1 (by simp [hrest])
    · exact hR.refl s

theorem string (expected : String) : Ends R (Parser.string expected) := by
  intro s
  simp only [Parser.string]
  split
  next h => exact hR.advance s _ (String.length_toList ▸ (startsWith_iff.mp h).2.length_le)
  · exact hR.refl s

theorem blockComment (lang : Lexeme.Language) : Ends R lang.blockComment := by
  intro s
  simp only [Lexeme.Language.blockComment]
  split
  next h =>
    have opened : R s (s.advance lang.commentStart.length) :=
      hR.advance s _ (String.length_toList ▸ (startsWith_iff.mp h).2.length_le)
    split
    · exact hR.trans opened (hR.advance _ _ (Nat.sub_le _ _))
    · exact hR.trans opened (hR.advance _ _ (Nat.le_refl _))
  · exact hR.refl s

theorem primitive (h : Primitive p) : Ends R p := by
  cases h with
  | satisfy accepts => exact satisfy hR accepts
  | string expected => exact string hR expected
  | blockComment lang => exact blockComment hR lang
  | indented => exact indented hR
  | stalled => exact fun _ => trivial
  | pure a => exact hR.refl
  | fail cause => exact hR.refl
  | getPosition => exact hR.refl
  | getReference => exact hR.refl
  | endOfInput =>
    intro s
    simp only [Parser.endOfInput]
    split <;> exact hR.refl s
  | sameLine =>
    intro s
    simp only [Parser.sameLine]
    split <;> exact hR.refl s
  | checkIndent =>
    intro s
    simp only [Parser.checkIndent]
    split <;> exact hR.refl s

end Combinators

end Ends

theorem Built.ends {E : ∀ {α : Type}, Parser α → Prop} (hR : Threads R)
    (hE : ∀ {α : Type} {p : Parser α}, E p → Ends R p) {p : Parser α} (h : Built E p) : Ends R p := by
  induction h with
  | extra h => exact hE h
  | primitive h => exact .primitive hR h
  | bind _ _ ih ih' => exact .bind hR ih ih'
  | alt _ _ ih ih' => exact .alt hR ih ih'
  | attempt _ ih => exact .attempt hR ih
  | furthest _ ih => exact .furthest hR ih
  | many _ ih => exact .manyFrom hR ih []
  | lookahead _ ih => exact .lookahead hR ih
  | notFollowedBy _ ih => exact .notFollowedBy hR ih
  | withPosition _ ih => exact .withPosition hR ih
  | indentedBlock _ ih => exact .indentedBlock hR ih
  | atRemaining _ ih => exact fun s => ih s.remaining s

end Parser

end ContextRoles.Parsing
