import ContextRoles.Proofs.Parsing.Reach

/-! # Where a run ends and where its error lies

A cursor into a source stands at the position that the text before it leads to. A run leads from cursor
to cursor, never back, and reports its failure where the cursor stands. Positions grow with the offset,
so a reported position is that of one offset alone, and of two failures the one at the greater position
is the one further on in the text.
-/

namespace ContextRoles.Parsing

namespace Position

variable {p q r : Position} {x : List Char}

theorem before_iff : p.before q = true ↔
    p.line < q.line ∨ p.line = q.line ∧ p.column < q.column := by
  simp [before]

theorem before_trans (h : p.before q = true) (h' : q.before r = true) : p.before r = true := by
  rw [before_iff] at *
  omega

theorem not_before_self (p : Position) : ¬ p.before p = true := by
  rw [before_iff]
  omega

theorem before_advance (p : Position) (c : Char) : p.before (p.advance c) = true := by
  have hmod : (p.column + (tabWidth - 1)) % tabWidth < tabWidth := Nat.mod_lt _ (by decide)
  rw [before_iff, advance]
  split
  · exact .inl (Nat.lt_succ_self _)
  · split
    · exact .inr ⟨rfl, by dsimp only; omega⟩
    · exact .inr ⟨rfl, Nat.lt_succ_self _⟩

theorem before_advanceAll (hx : x ≠ []) (p : Position) : p.before (p.advanceAll x) = true := by
  induction x generalizing p with
  | nil => exact absurd rfl hx
  | cons c x ih =>
    rw [advanceAll_cons]
    cases x with
    | nil => exact before_advance p c
    | cons d x => exact before_trans (before_advance p c) (ih (List.cons_ne_nil d x) _)

end Position

section Offsets

variable {source : List Char} {i j : Nat}

/-- The position of an offset: that of the start, moved over the text before the offset. -/
def positionAt (source : List Char) (offset : Nat) : Position :=
  Position.advanceAll {} (source.take offset)

theorem positionAt_before (h : i < j) (hj : j ≤ source.length) :
    (positionAt source i).before (positionAt source j) = true := by
  have hsplit : source.take j = source.take i ++ (source.drop i).take (j - i) := by
    rw [← List.take_add, Nat.add_sub_cancel' (Nat.le_of_lt h)]
  rw [positionAt, positionAt, hsplit, Position.advanceAll_append]
  refine Position.before_advanceAll (List.ne_nil_of_length_pos ?_) _
  rw [List.length_take, List.length_drop]
  omega

theorem positionAt_before_iff (hi : i ≤ source.length) (hj : j ≤ source.length) :
    (positionAt source i).before (positionAt source j) = true ↔ i < j := by
  refine ⟨fun h => ?_, fun h => positionAt_before h hj⟩
  rcases Nat.lt_trichotomy i j with hij | rfl | hij
  · exact hij
  · exact absurd h (Position.not_before_self _)
  · exact absurd (Position.before_trans h (positionAt_before hij hi)) (Position.not_before_self _)

theorem positionAt_inj (hi : i ≤ source.length) (hj : j ≤ source.length) :
    positionAt source i = positionAt source j ↔ i = j := by
  refine ⟨fun h => ?_, fun h => congrArg _ h⟩
  rcases Nat.lt_trichotomy i j with hij | hij | hij
  · exact absurd (positionAt_before hij hj) (h ▸ Position.not_before_self _)
  · exact hij
  · exact absurd (positionAt_before hij hi) (h ▸ Position.not_before_self _)

end Offsets

namespace State

variable {source : List Char} {s t : State}

/-- The state is a cursor into a source and stands at its position there. -/
structure Within (source : List Char) (s : State) : Prop where
  size_eq : s.size = source.length
  offset_le : s.offset ≤ source.length
  rest_eq : s.rest = source.drop s.offset
  position_eq : s.position = positionAt source s.offset

theorem within_start (text : String) : (start text).Within text.toList :=
  ⟨rfl, Nat.zero_le _, rfl, rfl⟩

theorem Reaches.offset_le (h : s.Reaches t) : s.offset ≤ t.offset := by
  obtain ⟨x, -, hx, -⟩ := h.reads
  omega

theorem Within.reaches (hs : s.Within source) (h : s.Reaches t) : t.Within source := by
  obtain ⟨x, hrest, hoffset, hposition⟩ := h.reads
  have hdrop : source.drop s.offset = x ++ t.rest := hs.rest_eq ▸ hrest
  have hlength : source.length - s.offset = x.length + t.rest.length := by
    rw [← List.length_drop, hdrop, List.length_append]
  have hread : (source.drop s.offset).take x.length = x := by rw [hdrop, List.take_left]
  refine ⟨h.size_eq.trans hs.size_eq, ?_, ?_, ?_⟩
  · have := hs.offset_le
    omega
  · rw [hoffset, ← List.drop_drop, hdrop, List.drop_left]
  · rw [hposition, hs.position_eq, hoffset, positionAt, positionAt, List.take_add, hread,
      Position.advanceAll_append]

end State

namespace Parser

variable {α β : Type} {p q : Parser α} {s t : State} {e e' : ParseError} {source : List Char}

/-- The error of a failure lies where the cursor stands. -/
def FailsInPlace (p : Parser α) : Prop := ∀ ⦃s e t⦄, p s = .failure e t → e.position = t.position

namespace FailsInPlace

theorem bind {f : α → Parser β} (h : FailsInPlace p) (h' : ∀ a, FailsInPlace (f a)) :
    FailsInPlace (p.bind f) := by
  intro s e t hr
  simp only [Parser.bind] at hr
  cases hp : p s with
  | success a u =>
    simp only [hp] at hr
    exact h' a hr
  | failure e' u =>
    simp only [hp, Outcome.failure.injEq] at hr
    obtain ⟨rfl, rfl⟩ := hr
    exact h hp
  | stalled => simp [hp] at hr

theorem of_mapState {r : Outcome α} {f : State → State} (hr : r.mapState f = .failure e t) :
    ∃ u, r = .failure e u ∧ f u = t := by
  cases r with
  | success a u => cases hr
  | failure e' u =>
    cases hr
    exact ⟨u, rfl, rfl⟩
  | stalled => cases hr

theorem alt (h : FailsInPlace p) (h' : FailsInPlace q) : FailsInPlace (Parser.alt p q) := by
  intro s e t hr
  obtain ⟨u, hu, rfl⟩ := of_mapState hr
  change e.position = u.position
  split at hu
  next hp =>
    split at hu
    · cases hu
      exact h hp
    · exact h' hu
  · exact h hu

theorem attempt (h : FailsInPlace p) : FailsInPlace (Parser.attempt p) := by
  intro s e t hr
  simp only [Parser.attempt] at hr
  split at hr
  next hp =>
    cases hr
    exact (h hp :)
  · exact h hr

theorem furthest_go {ps : List (Parser α)} {best : Option (ParseError × State)}
    (h : ∀ p ∈ ps, FailsInPlace p) (hbest : ∀ f ∈ best, f.1.position = f.2.position)
    (hr : Parser.furthest.go ps best s = .failure e t) : e.position = t.position := by
  induction ps generalizing best s with
  | nil =>
    cases best with
    | none =>
      cases hr
      rfl
    | some f =>
      cases hr
      exact hbest f rfl
  | cons p ps ih =>
    rw [List.forall_mem_cons] at h
    rw [Parser.furthest.go] at hr
    split at hr
    next e' u hp =>
      refine ih h.2 ?_ hr
      rintro f ⟨⟩
      cases best with
      | none => exact h.1 hp
      | some f =>
        simp only [furthestFailure]
        split
        · exact hbest f rfl
        · exact h.1 hp
    · exact h.1 hr

theorem furthest {ps : List (Parser α)} (h : ∀ p ∈ ps, FailsInPlace p) :
    FailsInPlace (Parser.furthest ps) := by
  intro s e t hr
  obtain ⟨u, hu, rfl⟩ := of_mapState hr
  exact (furthest_go h (by simp) hu :)

theorem manyFrom (h : FailsInPlace p) (values : List α) :
    FailsInPlace (Parser.manyFrom p values) := by
  intro s e t hr
  induction values, s using Parser.manyFrom.induct p with
  | case1 values s e' u hp hc =>
    rw [Parser.manyFrom] at hr
    simp only [hp, hc, if_true] at hr
    cases hr
    exact h hp
  | case2 values s e' u hp hc =>
    rw [Parser.manyFrom] at hr
    simp [hp, hc] at hr
  | case3 values s a u hp hlt ih =>
    rw [Parser.manyFrom] at hr
    simp only [hp, hlt, if_true] at hr
    exact ih hr
  | case4 values s a u hp hlt =>
    rw [Parser.manyFrom] at hr
    simp [hp, hlt] at hr
  | case5 values s hp =>
    rw [Parser.manyFrom] at hr
    simp [hp] at hr

theorem lookahead (h : FailsInPlace p) : FailsInPlace (Parser.lookahead p) := by
  intro s e t hr
  simp only [Parser.lookahead] at hr
  split at hr
  · cases hr
  · exact h hr

theorem notFollowedBy (p : Parser α) : FailsInPlace (Parser.notFollowedBy p) := by
  intro s e t hr
  simp only [Parser.notFollowedBy] at hr
  split at hr <;> cases hr
  rfl

theorem withPosition (h : FailsInPlace p) : FailsInPlace (Parser.withPosition p) := by
  intro s e t hr
  obtain ⟨u, hu, rfl⟩ := of_mapState hr
  exact (h hu :)

theorem indentedBlock (h : FailsInPlace (block p)) : FailsInPlace (Parser.indentedBlock p) := by
  intro s e t hr
  simp only [Parser.indentedBlock] at hr
  split at hr
  next opened ho =>
    split at hr
    · split at hr <;> cases hr
      rfl
    · exact h hr
  · cases hr

theorem of_test {test : State → Prop} [DecidablePred test] {cause : Cause} {next : State → State} :
    FailsInPlace fun s =>
      if test s then .success () (next s) else .failure ⟨cause, s.position⟩ s := by
  intro s e t hr
  dsimp only at hr
  split at hr <;> cases hr
  rfl

theorem primitive (h : Primitive p) : FailsInPlace p := by
  cases h with
  | pure a => exact nofun
  | fail cause =>
    rintro s e t ⟨⟩
    rfl
  | stalled => exact nofun
  | getPosition => exact nofun
  | getReference => exact nofun
  | endOfInput => exact of_test
  | sameLine => exact of_test
  | checkIndent => exact of_test
  | indented =>
    intro s e t hr
    simp only [Parser.indented] at hr
    split at hr <;> cases hr
    rfl
  | satisfy accepts =>
    intro s e t hr
    simp only [Parser.satisfy] at hr
    split at hr
    · cases hr
      rfl
    · split at hr <;> cases hr
      rfl
  | string expected =>
    intro s e t hr
    simp only [Parser.string] at hr
    split at hr <;> cases hr
    rfl
  | blockComment lang =>
    intro s e t hr
    simp only [Lexeme.Language.blockComment] at hr
    split at hr
    · split at hr <;> cases hr
      rfl
    · cases hr
      rfl

end FailsInPlace

theorem Built.failsInPlace {E : ∀ {α : Type}, Parser α → Prop}
    (hE : ∀ {α : Type} {p : Parser α}, E p → FailsInPlace p) {p : Parser α} (h : Built E p) :
    FailsInPlace p := by
  induction h with
  | extra h => exact hE h
  | primitive h => exact .primitive h
  | bind _ _ ih ih' => exact ih.bind ih'
  | alt _ _ ih ih' => exact ih.alt ih'
  | attempt _ ih => exact ih.attempt
  | furthest _ ih => exact .furthest ih
  | many _ ih => exact ih.manyFrom []
  | lookahead _ ih => exact ih.lookahead
  | notFollowedBy _ _ => exact .notFollowedBy _
  | withPosition _ ih => exact ih.withPosition
  | indentedBlock _ ih => exact ih.indentedBlock
  | atRemaining _ ih => exact fun s _ _ hr => ih s.remaining hr

/-- From a cursor of a source a run leads to a cursor of it, not back, and fails where the cursor then
stands. -/
structure Located (p : Parser α) : Prop where
  within : ∀ {source s}, State.Within source s →
    (p s).EndsIn fun t => t.Within source ∧ s.offset ≤ t.offset
  inPlace : FailsInPlace p

theorem Built.located {E : ∀ {α : Type}, Parser α → Prop}
    (hE : ∀ {α : Type} {p : Parser α}, E p → Framed p ∧ FailsInPlace p) (h : Built E p) :
    Located p where
  within {_ s} hs := (h.framed (fun hp => (hE hp).1) s).mono fun _ ht =>
    ⟨hs.reaches ht, ht.offset_le⟩
  inPlace := h.failsInPlace fun hp => (hE hp).2

theorem furthestFailure_eq {e' : ParseError} {t' : State} (ht : t.Within source)
    (ht' : t'.Within source) (he : e.position = t.position) (he' : e'.position = t'.position) :
    furthestFailure (Option.some (e', t')) e t =
      if t.offset < t'.offset then (e', t') else (e, t) := by
  have hbefore : e.position.before e'.position = true ↔ t.offset < t'.offset := by
    rw [he, he', ht.position_eq, ht'.position_eq]
    exact positionAt_before_iff ht.offset_le ht'.offset_le
  simp only [furthestFailure, hbefore]

end Parser

end ContextRoles.Parsing
