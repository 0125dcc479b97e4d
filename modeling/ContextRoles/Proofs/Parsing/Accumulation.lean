import ContextRoles.Proofs.Parsing.Totality

/-! # The flag only accumulates

Whether anything was read before a parser starts has no influence on what it does. A run that starts
with the flag set is the run that starts with it clear, and ends with the flag set; and a success that
moved the cursor has set it. So alternatives and repetitions decide by what was read since their own
checkpoint.
-/

namespace ContextRoles.Parsing

namespace State

/-- The state in which something was read, here or before. -/
def marked (s : State) : State := s.withConsumed true

variable (s : State)

@[simp] theorem rest_marked : s.marked.rest = s.rest := rfl

@[simp] theorem position_marked : s.marked.position = s.position := rfl

@[simp] theorem reference_marked : s.marked.reference = s.reference := rfl

@[simp] theorem remaining_marked : s.marked.remaining = s.remaining := rfl

@[simp] theorem atEnd_marked : s.marked.atEnd = s.atEnd := rfl

@[simp] theorem advance_marked (count : Nat) : s.marked.advance count = s.advance count := rfl

@[simp] theorem checkpoint_marked : s.marked.checkpoint = s.checkpoint := rfl

theorem marked_of_consumed {s : State} (h : s.consumed = true) : s.marked = s := by
  cases s
  cases h
  rfl

theorem checkpoint_eq_self {s : State} (h : s.consumed = false) : s.checkpoint = s := by
  cases s
  cases h
  rfl

end State

deriving instance DecidableEq for Outcome

namespace Outcome

variable {α : Type} {r : Outcome α}

def marked (r : Outcome α) : Outcome α := r.mapState State.marked

/-- Behind a checkpoint from which nothing was read before, the flag is as it was set since. -/
theorem merge_false (r : Outcome α) : r.merge false = r := by
  cases r <;> rfl

theorem merge_true (b : Bool) (r : Outcome α) : r.merge true = (r.merge b).marked := by
  cases r <;> rfl

theorem marked_eq_success {a : α} {t : State} (h : r = r.marked) (hr : r = .success a t) :
    t.consumed = true := by
  rw [hr] at h
  cases t
  cases h
  rfl

end Outcome

namespace Parser

variable {α β : Type} {p q : Parser α}

/-- The flag is passed on, nothing else depends on it, and whoever moves the cursor sets it. -/
structure Accumulates (p : Parser α) : Prop where
  marked : ∀ s : State, p s.marked = (p s).marked
  still : ∀ ⦃s a t⦄, p s = .success a t → t.consumed = false → t.offset = s.offset

namespace Accumulates

variable {s t : State}

theorem clear {a : α} (h : Accumulates p) (hr : p s = .success a t) (ht : t.consumed = false) :
    s.consumed = false := by
  cases hs : s.consumed with
  | false => rfl
  | true =>
    have hm := h.marked s
    rw [State.marked_of_consumed hs] at hm
    exact absurd (Outcome.marked_eq_success hm hr) (by simp [ht])

theorem keeps_failure {e : ParseError} (h : Accumulates p) (hr : p s = .failure e t)
    (hs : s.consumed = true) : t.consumed = true := by
  have hm := h.marked s
  rw [State.marked_of_consumed hs, hr] at hm
  have ht : t = t.marked := (Outcome.failure.inj hm).2
  rw [ht]
  rfl

/-- A run is the one from the checkpoint, with the flag from before. -/
theorem eq_merge (h : Accumulates p) (s : State) : p s = (p s.checkpoint).merge s.consumed := by
  cases hs : s.consumed with
  | false => rw [State.checkpoint_eq_self hs, Outcome.merge_false]
  | true =>
    have hmarked : s.checkpoint.marked = s := State.marked_of_consumed (s := s) hs
    calc p s = p s.checkpoint.marked := by rw [hmarked]
      _ = (p s.checkpoint).marked := h.marked s.checkpoint
      _ = (p s.checkpoint).merge true := by rw [Outcome.merge_true false, Outcome.merge_false]

theorem bind {f : α → Parser β} (h : Accumulates p) (h' : ∀ a, Accumulates (f a)) :
    Accumulates (p.bind f) where
  marked s := by
    simp only [Parser.bind, h.marked s]
    cases p s with
    | success a t => exact (h' a).marked t
    | failure e t => rfl
    | stalled => rfl
  still s b u hr hc := by
    obtain ⟨a, t, ha, hb⟩ := bind_eq_success.mp hr
    rw [(h' a).still hb hc, h.still ha ((h' a).clear hb hc)]

theorem alt (h : Accumulates p) (h' : Accumulates q) : Accumulates (Parser.alt p q) where
  marked s := Outcome.merge_true s.consumed _
  still s a t hr hc := by
    rcases alt_success hr with ⟨u, hu, rfl⟩ | ⟨e, v, u, -, -, hu, rfl⟩
    · exact (h.still hu (Bool.or_eq_false_iff.mp hc).2 :)
    · exact (h'.still hu (Bool.or_eq_false_iff.mp hc).2 :)

theorem attempt (h : Accumulates p) : Accumulates (Parser.attempt p) where
  marked s := by
    simp only [Parser.attempt, h.marked s]
    cases p s <;> rfl
  still s a t hr hc := by
    simp only [Parser.attempt] at hr
    cases hp : p s with
    | success b u =>
      simp only [hp, Outcome.success.injEq] at hr
      obtain ⟨rfl, rfl⟩ := hr
      exact h.still hp hc
    | failure e u => simp [hp] at hr
    | stalled => simp [hp] at hr

theorem furthest {ps : List (Parser α)} (h : ∀ p ∈ ps, Accumulates p) :
    Accumulates (Parser.furthest ps) where
  marked s := Outcome.merge_true s.consumed _
  still s a t hr hc := by
    obtain ⟨u, hu, rfl⟩ := mapState_eq_success.mp hr
    have hclear : u.consumed = false := (Bool.or_eq_false_iff.mp hc).2
    have hstill : u.offset = s.checkpoint.offset :=
      furthest_go_induction (motive := fun s => u.offset = s.offset)
        (fun hp hr => (h _ hp).still hr hclear) (fun _ _ ih => ih) hu
    exact hstill

theorem manyFrom_marked (p : Parser α) (values : List α) (s : State) :
    Parser.manyFrom p values s.marked = (Parser.manyFrom p values s).marked := by
  induction values, s using Parser.manyFrom.induct p with
  | case1 values s e t hr hc =>
    rw [Parser.manyFrom, Parser.manyFrom, State.checkpoint_marked]
    simp only [hr, hc, if_true]
    exact congrArg (Outcome.failure e) (State.marked_of_consumed hc).symm
  | case2 values s e t hr hc =>
    rw [Parser.manyFrom, Parser.manyFrom, State.checkpoint_marked]
    simp only [hr, hc]
    rfl
  | case3 values s a t hr hlt ih =>
    rw [Parser.manyFrom, Parser.manyFrom.eq_def p values s, State.checkpoint_marked]
    simp only [hr, hlt, State.remaining_marked, if_true]
    exact ih
  | case4 values s a t hr hlt =>
    rw [Parser.manyFrom, Parser.manyFrom.eq_def p values s, State.checkpoint_marked]
    simp only [hr, hlt, State.remaining_marked, if_false]
    rfl
  | case5 values s hr =>
    rw [Parser.manyFrom, Parser.manyFrom.eq_def p values s, State.checkpoint_marked]
    simp only [hr]
    rfl

theorem many (p : Parser α) : Accumulates (Parser.many p) where
  marked := manyFrom_marked p []
  still s as t hr hc := by
    rw [Parser.many, Parser.manyFrom] at hr
    cases hp : p s.checkpoint with
    | success a u =>
      simp only [hp] at hr
      split at hr
      · have hm := manyFrom_marked p [a] (u.withConsumed true)
        rw [State.marked_of_consumed rfl] at hm
        exact absurd (Outcome.marked_eq_success hm hr) (by simp [hc])
      · cases hr
    | failure e u =>
      simp only [hp] at hr
      split at hr
      · cases hr
      · cases hr
        rfl
    | stalled => simp [hp] at hr

theorem lookahead (h : Accumulates p) : Accumulates (Parser.lookahead p) where
  marked s := by
    simp only [Parser.lookahead, h.marked s]
    cases p s <;> rfl
  still s a t hr hc := by
    simp only [Parser.lookahead] at hr
    cases hp : p s with
    | success b u =>
      simp only [hp] at hr
      cases hr
      rfl
    | failure e u => simp [hp] at hr
    | stalled => simp [hp] at hr

theorem notFollowedBy (h : Accumulates p) : Accumulates (Parser.notFollowedBy p) where
  marked s := by
    simp only [Parser.notFollowedBy, h.marked s]
    cases p s <;> rfl
  still s a t hr hc := by
    simp only [Parser.notFollowedBy] at hr
    cases hp : p s with
    | success b u => simp [hp] at hr
    | failure e u =>
      simp only [hp] at hr
      cases hr
      rfl
    | stalled => simp [hp] at hr

theorem withPosition (h : Accumulates p) : Accumulates (Parser.withPosition p) where
  marked s := by
    have hm : p (s.marked.withReference s.position) =
        (p (s.withReference s.position)).marked := h.marked (s.withReference s.position)
    simp only [Parser.withPosition, State.position_marked, hm]
    cases p (s.withReference s.position) <;> rfl
  still s a t hr hc := by
    obtain ⟨u, hu, rfl⟩ := mapState_eq_success.mp hr
    exact (h.still hu hc :)

theorem indented : Accumulates Parser.indented where
  marked s := by
    simp only [Parser.indented, State.position_marked, State.reference_marked]
    by_cases h : s.position.column ≤ s.reference.column <;> simp only [h, if_true, if_false] <;> rfl
  still s a t hr hc := by
    simp only [Parser.indented] at hr
    split at hr <;> cases hr
    rfl

theorem indentedBlock (h : Accumulates (block p)) : Accumulates (Parser.indentedBlock p) where
  marked s := by
    simp only [Parser.indentedBlock, indented.marked s]
    cases Parser.indented s with
    | success u opened =>
      have hm := h.marked opened
      cases hb : block p opened with
      | success values t =>
        rw [hb] at hm
        simp only [Outcome.marked, Outcome.mapState, hm, hb]
        exact (apply_ite Outcome.marked _
          (Outcome.failure ⟨.indentationMismatch, t.position⟩ t) (Outcome.success values t)).symm
      | failure e t =>
        rw [hb] at hm
        simp only [Outcome.marked, Outcome.mapState, hm, hb]
      | stalled =>
        rw [hb] at hm
        simp only [Outcome.marked, Outcome.mapState, hm, hb]
    | failure e t => rfl
    | stalled => rfl
  still s as t hr hc := by
    simp only [Parser.indentedBlock] at hr
    split at hr
    next opened ho =>
      cases hb : block p opened with
      | success values u =>
        simp only [hb] at hr
        split at hr
        · cases hr
        · cases hr
          rw [h.still hb hc, indented.still ho (h.clear hb hc)]
      | failure e u => simp [hb] at hr
      | stalled => simp [hb] at hr
    · cases hr
      rfl

/-- A success in place, or one that has set the flag, and nothing that depends on the flag. -/
theorem of_set (h : ∀ s : State, p s.marked = (p s).marked)
    (h' : ∀ ⦃s a t⦄, p s = .success a t → t = s ∨ t.consumed = true) : Accumulates p where
  marked := h
  still s a t hr hc := by
    rcases h' hr with rfl | ht
    · rfl
    · simp [ht] at hc

theorem satisfy (accepts : Char → Bool) : Accumulates (Parser.satisfy accepts) := by
  refine of_set (fun s => ?_) fun s a t hr => ?_
  · simp only [Parser.satisfy, State.rest_marked]
    split
    · rfl
    · split <;> rfl
  · simp only [Parser.satisfy] at hr
    split at hr
    · cases hr
    · split at hr <;> cases hr
      exact .inr rfl

theorem string (expected : String) : Accumulates (Parser.string expected) := by
  refine of_set (fun s => ?_) fun s a t hr => ?_
  · have hs : s.marked.startsWith expected.toList = s.startsWith expected.toList := rfl
    by_cases h : s.startsWith expected.toList = true
    · simp only [Parser.string, if_pos h, if_pos (hs.trans h), State.advance_marked]
      rfl
    · simp only [Parser.string, if_neg h, if_neg (mt hs.symm.trans h)]
      rfl
  · simp only [Parser.string] at hr
    split at hr <;> cases hr
    exact .inr rfl

theorem blockComment (lang : Lexeme.Language) : Accumulates lang.blockComment := by
  refine of_set (fun s => ?_) fun s a t hr => ?_
  · have hs : s.marked.startsWith lang.commentStart.toList =
        s.startsWith lang.commentStart.toList := rfl
    by_cases h : s.startsWith lang.commentStart.toList = true
    · simp only [Lexeme.Language.blockComment, if_pos h, if_pos (hs.trans h), State.advance_marked]
      split <;> rfl
    · simp only [Lexeme.Language.blockComment, if_neg h, if_neg (mt hs.symm.trans h)]
      rfl
  · simp only [Lexeme.Language.blockComment] at hr
    split at hr
    · split at hr <;> cases hr
      exact .inr rfl
    · cases hr

theorem of_test {test : State → Prop} [DecidablePred test] {cause : Cause}
    (h : ∀ s : State, test s.marked ↔ test s) :
    Accumulates fun s => if test s then .success () s else .failure ⟨cause, s.position⟩ s := by
  refine of_set (fun s => ?_) fun s a t hr => ?_
  · by_cases hs : test s <;> simp only [h, hs, if_true, if_false] <;> rfl
  · split at hr <;> cases hr
    exact .inl rfl

theorem primitive (h : Primitive p) : Accumulates p := by
  cases h with
  | satisfy accepts => exact satisfy accepts
  | string expected => exact string expected
  | blockComment lang => exact blockComment lang
  | indented => exact indented
  | stalled => exact ⟨fun _ => rfl, nofun⟩
  | fail cause => exact ⟨fun _ => rfl, nofun⟩
  | pure a => exact of_set (fun _ => rfl) (by rintro s b t ⟨⟩; exact .inl rfl)
  | getPosition => exact of_set (fun _ => rfl) (by rintro s b t ⟨⟩; exact .inl rfl)
  | getReference => exact of_set (fun _ => rfl) (by rintro s b t ⟨⟩; exact .inl rfl)
  | endOfInput => exact of_test fun _ => Iff.rfl
  | sameLine => exact of_test fun _ => Iff.rfl
  | checkIndent => exact of_test fun _ => Iff.rfl

end Accumulates

theorem Built.accumulates {E : ∀ {α : Type}, Parser α → Prop}
    (hE : ∀ {α : Type} {p : Parser α}, E p → Accumulates p) {p : Parser α} (h : Built E p) :
    Accumulates p := by
  induction h with
  | extra h => exact hE h
  | primitive h => exact .primitive h
  | bind _ _ ih ih' => exact ih.bind ih'
  | alt _ _ ih ih' => exact ih.alt ih'
  | attempt _ ih => exact ih.attempt
  | furthest _ ih => exact .furthest ih
  | many _ _ => exact .many _
  | lookahead _ ih => exact ih.lookahead
  | notFollowedBy _ ih => exact ih.notFollowedBy
  | withPosition _ ih => exact ih.withPosition
  | indentedBlock _ ih => exact ih.indentedBlock
  | atRemaining _ ih => exact ⟨fun s => (ih s.remaining).marked s, fun s => (ih s.remaining).still (s := s)⟩

end Parser

end ContextRoles.Parsing
