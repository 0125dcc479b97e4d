import ContextRoles.Proofs.Parsing.Reading

/-! # Runs of indented blocks

Whether a block is read depends on the column of the cursor and on the reference column, so its runs
are followed from state to state. A block reads its rounds as long as they start on its column, and it
ends at the end of the text, at the reference column or left of it, or where its rule is refused.
-/

namespace ContextRoles.Parsing

namespace State

/-- `t` stands behind `w` and in front of `tail`, and some identifiers were drawn on the way. -/
structure Behind (s : State) (w tail : List Char) (d : Nat) (t : State) : Prop where
  ahead : s.rest = w ++ tail
  sound : t.Sound
  rest : t.rest = tail
  position : t.position = s.position.advanceAll w
  column : t.reference.column = s.reference.column
  drawn : t.drawn = s.drawn + d

namespace Behind

variable {s t u : State} {v w tail : List Char} {d d' : Nat}

theorem refl (hs : s.Sound) : s.Behind [] s.rest 0 s := ⟨rfl, hs, rfl, rfl, rfl, rfl⟩

theorem pass (hs : s.Sound) (h : s.rest = w ++ tail) : s.Behind w tail 0 (s.pass w) :=
  ⟨h, hs.pass h, rest_pass h, rfl, rfl, rfl⟩

theorem trans (h : s.Behind v (w ++ tail) d t) (h' : t.Behind w tail d' u) :
    s.Behind (v ++ w) tail (d + d') u where
  ahead := by rw [h.ahead, List.append_assoc]
  sound := h'.sound
  rest := h'.rest
  position := by rw [h'.position, h.position, Position.advanceAll_append]
  column := h'.column.trans h.column
  drawn := by rw [h'.drawn, h.drawn, Nat.add_assoc]

theorem withConsumed (h : s.Behind w tail d t) (b : Bool) :
    s.Behind w tail d (t.withConsumed b) :=
  ⟨h.ahead, h.sound, h.rest, h.position, h.column, h.drawn⟩

theorem of_checkpoint (h : s.checkpoint.Behind w tail d t) : s.Behind w tail d t :=
  ⟨h.ahead, h.sound, h.rest, h.position, h.column, h.drawn⟩

/-- The reference that a run starts with may be moved and put back behind it. -/
theorem restore {r : Position} (h : (s.withReference r).Behind w tail d t) :
    s.Behind w tail d (t.withReference s.reference) :=
  ⟨h.ahead, h.sound, h.rest, h.position, rfl, h.drawn⟩

theorem remaining_lt (h : s.Behind w tail d t) (hs : s.Sound) (hw : w ≠ []) :
    t.remaining < s.remaining := by
  have hpos := List.length_pos_iff.mpr hw
  rw [h.sound.remaining, hs.remaining, h.rest, h.ahead, List.length_append]
  omega

end Behind

end State

namespace Parser

open State

variable {α β : Type} {p q : Parser α} {s t : State} {v w tail text : List Char} {d d' : Nat}
  {a : α} {b : β} {as : List α}

section Runs

/-- From `s` on, `p` reads `w` as `a` and draws some identifiers. -/
def Runs (p : Parser α) (s : State) (w tail : List Char) (d : Nat) (a : α) : Prop :=
  ∃ t, p s = .success a t ∧ s.Behind w tail d t

theorem refusesAt_sameLine (h : s.position.line ≠ s.reference.line) : RefusesAt sameLine s :=
  ⟨_, s, if_neg h, rfl, rfl⟩

theorem ReadsIf.runs {P : State → Prop} (h : ReadsIf P p w tail a) (hs : s.Sound)
    (hr : s.rest = w ++ tail) (hp : P s) : Runs p s w tail 0 a :=
  ⟨_, h s hs hr hp, .pass hs hr⟩

namespace Runs

theorem bind {f : α → Parser β} (h : Runs p s v (w ++ tail) d a)
    (h' : ∀ t, s.Behind v (w ++ tail) d t → Runs (f a) t w tail d' b) :
    Runs (p.bind f) s (v ++ w) tail (d + d') b := by
  obtain ⟨t, ht, hbehind⟩ := h
  obtain ⟨u, hu, hbehind'⟩ := h' t hbehind
  exact ⟨u, bind_eq_success.mpr ⟨a, t, ht, hu⟩, hbehind.trans hbehind'⟩

theorem bind_zero {f : α → Parser β} (h : Runs p s v (w ++ tail) 0 a)
    (h' : ∀ t, s.Behind v (w ++ tail) 0 t → Runs (f a) t w tail d b) :
    Runs (p.bind f) s (v ++ w) tail d b := by
  have both := h.bind h'
  rwa [Nat.zero_add] at both

theorem map (h : Runs p s w tail d a) (f : α → β) : Runs (Parser.map f p) s w tail d (f a) := by
  obtain ⟨t, ht, hbehind⟩ := h
  exact ⟨t, map_eq_success.mpr ⟨a, ht, rfl⟩, hbehind⟩

theorem bind_pure (h : Runs p s w tail d a) (f : α → β) :
    Runs (p.bind fun a => Parser.pure (f a)) s w tail d (f a) := by
  rw [← map_eq_bind]
  exact h.map f

theorem skip {q : Parser β} (h : Runs p s w tail d a) (h' : Reads q [] tail b) :
    Runs (p.skip q) s w tail d a := by
  have both : Runs (p.skip q) s (w ++ []) tail (d + 0) a :=
    Runs.bind (f := fun a => q.result a) h fun t ht =>
      (h'.map fun _ => a).runs ht.sound ht.rest trivial
  rwa [List.append_nil] at both

theorem withPosition (h : Runs p (s.withReference s.position) w tail d a) :
    Runs (Parser.withPosition p) s w tail d a := by
  obtain ⟨t, ht, hbehind⟩ := h
  exact ⟨_, mapState_eq_success.mpr ⟨t, ht, rfl⟩, hbehind.restore⟩

theorem alt_left (h : Runs p s.checkpoint w tail d a) : Runs (Parser.alt p q) s w tail d a := by
  obtain ⟨t, ht, hbehind⟩ := h
  refine ⟨t.withConsumed (s.consumed || t.consumed), ?_, hbehind.of_checkpoint.withConsumed _⟩
  rw [Parser.alt, ht]
  rfl

theorem alt_right (hp : RefusesAt p s.checkpoint) (h : Runs q s.checkpoint w tail d a) :
    Runs (Parser.alt p q) s w tail d a := by
  obtain ⟨t, ht, hbehind⟩ := h
  exact ⟨t.withConsumed (s.consumed || t.consumed), by rw [hp.alt_eq, ht]; rfl,
    hbehind.of_checkpoint.withConsumed _⟩

theorem attempt (h : Runs p s w tail d a) : Runs (Parser.attempt p) s w tail d a := by
  obtain ⟨t, ht, hbehind⟩ := h
  exact ⟨t, by rw [Parser.attempt, ht], hbehind⟩

theorem attempt_alt (hp : FailsAt p s.checkpoint) (h : Runs q s.checkpoint w tail d a) :
    Runs (Parser.alt (Parser.attempt p) q) s w tail d a := .alt_right (.attempt hp) h

theorem furthest_first {ps : List (Parser α)} (h : Runs p s.checkpoint w tail d a) :
    Runs (Parser.furthest (p :: ps)) s w tail d a := by
  obtain ⟨t, ht, hbehind⟩ := h
  refine ⟨t.withConsumed (s.consumed || t.consumed), ?_, hbehind.of_checkpoint.withConsumed _⟩
  rw [Parser.furthest, Parser.furthest.go, ht]
  rfl

theorem furthest_second {ps : List (Parser α)} (hp : FailsAt p s.checkpoint)
    (h : Runs q s.checkpoint w tail d a) :
    Runs (Parser.furthest (p :: q :: ps)) s w tail d a := by
  obtain ⟨e, u, hu, hd⟩ := hp
  obtain ⟨t, ht, hbehind⟩ := h
  refine ⟨t.withConsumed (s.consumed || t.consumed), ?_, hbehind.of_checkpoint.withConsumed _⟩
  have hself : s.checkpoint.rewindFrom u = s.checkpoint := rewindFrom_eq_self hd
  rw [Parser.furthest, Parser.furthest.go, hu]
  simp only [hself]
  rw [Parser.furthest.go, ht]
  rfl

end Runs

namespace FailsAt

theorem bind_left {f : α → Parser β} (h : FailsAt p s) : FailsAt (p.bind f) s := by
  obtain ⟨e, t, ht, hd⟩ := h
  exact ⟨e, t, by simp [Parser.bind, ht], hd⟩

theorem bind_right {f : α → Parser β} (h : Runs p s v tail 0 a)
    (h' : ∀ t, s.Behind v tail 0 t → FailsAt (f a) t) : FailsAt (p.bind f) s := by
  obtain ⟨t, ht, hbehind⟩ := h
  obtain ⟨e, u, hu, hd⟩ := h' t hbehind
  exact ⟨e, u, by simp [Parser.bind, ht, hu], hd.trans hbehind.drawn⟩

theorem withPosition (h : FailsAt p (s.withReference s.position)) :
    FailsAt (Parser.withPosition p) s := by
  obtain ⟨e, t, ht, hd⟩ := h
  exact ⟨e, t.withReference s.reference, by simp [Parser.withPosition, ht, Outcome.mapState], hd⟩

end FailsAt

end Runs

section Blocks

def rounds (p : Parser α) : Parser (List α) := many (checkIndent.then_ p)

theorem checkIndent_then (p : Parser α) (h : s.position.column = s.reference.column) :
    checkIndent.then_ p s = p s := by
  rw [checkIndent_then_eq, if_pos h]

theorem Runs.rounds_nil (hs : s.Sound)
    (h : s.position.column ≠ s.reference.column ∨ Refuses p s.rest) :
    Runs (rounds p) s [] s.rest 0 [] := by
  have stop : ∃ e t, checkIndent.then_ p s.checkpoint = .failure e t ∧ t.consumed = false ∧
      t.drawn = s.drawn := by
    by_cases hc : s.position.column = s.reference.column
    · obtain ⟨e, t, ht, hset, hd⟩ := h.resolve_left (not_not_intro hc) s.checkpoint hs rfl
      exact ⟨e, t, (checkIndent_then p (s := s.checkpoint) hc).trans ht, hset, hd⟩
    · have hc' : ¬ s.checkpoint.position.column = s.checkpoint.reference.column := hc
      have hfails : checkIndent.then_ p s.checkpoint =
          .failure ⟨.indentationMismatch, s.checkpoint.position⟩ s.checkpoint := by
        rw [checkIndent_then_eq, if_neg hc']
      exact ⟨_, _, hfails, rfl, rfl⟩
  obtain ⟨e, t, ht, hset, hd⟩ := stop
  refine ⟨s, ?_, .refl hs⟩
  rw [rounds, many, manyFrom, ht]
  simp only [hset, Bool.false_eq_true, if_false, List.reverse_nil, rewindFrom_eq_self hd]

theorem Runs.rounds_cons (hs : s.Sound) (hv : v ≠ [])
    (hc : s.position.column = s.reference.column)
    (h : Runs p s.checkpoint v (w ++ tail) d a)
    (h' : ∀ t, s.Behind v (w ++ tail) d t → Runs (rounds p) t w tail d' as) :
    Runs (rounds p) s (v ++ w) tail (d + d') (a :: as) := by
  obtain ⟨t, ht, hbehind⟩ := h
  have hbehind' := hbehind.of_checkpoint.withConsumed true
  obtain ⟨u, hu, hrest⟩ := h' _ hbehind'
  refine ⟨u, ?_, hbehind'.trans hrest⟩
  have hlt : t.remaining < s.remaining := hbehind.of_checkpoint.remaining_lt hs hv
  have hcheck : s.checkpoint.position.column = s.checkpoint.reference.column := hc
  have hround : checkIndent.then_ p s.checkpoint = .success a t :=
    (checkIndent_then p hcheck).trans ht
  rw [rounds, many, manyFrom, hround]
  simp only [hlt, if_true]
  rw [Reads.manyFrom_eq, ← rounds, hu]
  rfl

theorem Runs.indentedBlock_closed (hs : s.Sound) (hc : s.position.column ≤ s.reference.column) :
    Runs (Parser.indentedBlock p) s [] s.rest 0 [] := by
  refine ⟨s, ?_, .refl hs⟩
  simp only [Parser.indentedBlock, indented, if_pos hc]

theorem indented_eq (hc : s.reference.column < s.position.column) :
    indented s = .success () (s.withReference ⟨s.position.line, s.reference.column⟩) :=
  if_neg (Nat.not_le.mpr hc)

theorem Runs.indentedBlock_open (hc : s.reference.column < s.position.column)
    (h : Runs (rounds p) (s.withReference s.position) w tail d as)
    (hend : tail = [] ∨ (s.position.advanceAll w).column ≤ s.reference.column ∨
      (s.position.advanceAll w).column = s.position.column) :
    Runs (Parser.indentedBlock p) s w tail d as := by
  obtain ⟨t, ht, hbehind⟩ := h
  have hblock : block p (s.withReference ⟨s.position.line, s.reference.column⟩) =
      .success as (t.withReference ⟨s.position.line, s.reference.column⟩) :=
    mapState_eq_success.mpr ⟨t, ht, rfl⟩
  refine ⟨t.withReference ⟨s.position.line, s.reference.column⟩, ?_, hbehind.ahead, hbehind.sound,
    hbehind.rest, hbehind.position, rfl, hbehind.drawn⟩
  simp only [Parser.indentedBlock, indented_eq hc, hblock]
  have hpos : t.position = s.position.advanceAll w := hbehind.position
  refine if_neg fun hcond => ?_
  simp only [withReference, Bool.and_eq_true, Bool.not_eq_true', decide_eq_true_eq, bne_iff_ne,
    hpos] at hcond
  obtain ⟨⟨hatEnd, hlt⟩, hne⟩ := hcond
  rcases hend with rfl | hle | heq
  · have : t.atEnd = true := by rw [hbehind.sound.atEnd, hbehind.rest]; rfl
    simp [State.atEnd] at this hatEnd
    omega
  · omega
  · exact hne heq

/-- A rule that fails after reading something fails with its block. -/
theorem FailsAt.indentedBlock (hs : s.Sound) (hc : s.reference.column < s.position.column)
    (h : Breaks p s.rest) : FailsAt (Parser.indentedBlock p) s := by
  obtain ⟨e, t, ht, hset, hd⟩ := h (s.withReference s.position).checkpoint hs rfl
  have hround : checkIndent.then_ p (s.withReference s.position).checkpoint = .failure e t :=
    (checkIndent_then p (s := (s.withReference s.position).checkpoint) rfl).trans ht
  have hrounds : rounds p (s.withReference s.position) = .failure e t := by
    rw [rounds, many, manyFrom, hround]
    simp only [hset, if_true]
  have hblock : block p (s.withReference ⟨s.position.line, s.reference.column⟩) =
      .failure e (t.withReference ⟨s.position.line, s.reference.column⟩) := by
    change Outcome.mapState _ (rounds p (s.withReference s.position)) = _
    rw [hrounds]
    rfl
  exact ⟨e, t.withReference ⟨s.position.line, s.reference.column⟩,
    by simp only [Parser.indentedBlock, indented_eq hc, hblock], hd⟩

/-- Behind a block the text ends, or it goes on at the reference column or left of it, or on the column
of the block with something that its rule refuses. -/
def Ended (p : Parser α) (reference column : Nat) (position : Position) (tail : List Char) : Prop :=
  tail = [] ∨ position.column ≤ reference ∨ position.column = column ∧ Refuses p tail

theorem Ended.stops {reference column : Nat} {position : Position}
    (h : Ended p reference column position tail) (hnil : Refuses p []) (hk : reference < column) :
    position.column ≠ column ∨ Refuses p tail := by
  rcases h with rfl | hle | ⟨-, hrefuses⟩
  · exact .inr hnil
  · exact .inl (by omega)
  · exact .inr hrefuses

theorem Runs.indented (hs : s.Sound) (hc : s.reference.column < s.position.column) :
    Runs Parser.indented s [] s.rest 0 () :=
  ⟨_, indented_eq hc, rfl, hs, rfl, rfl, rfl, rfl⟩

theorem Runs.indentedBlock {k : Nat} (hs : s.Sound) (hr : s.rest = w ++ tail)
    (hnil : Refuses p []) (hk : s.reference.column < k)
    (h : s.position.column = k → Runs (rounds p) (s.withReference s.position) w tail d as)
    (hw : w = [] ∧ d = 0 ∧ as = [] ∨ s.position.column = k)
    (hend : Ended p s.reference.column k (s.position.advanceAll w) tail) :
    Runs (Parser.indentedBlock p) s w tail d as := by
  by_cases hcol : s.position.column = k
  · refine .indentedBlock_open (by omega) (h hcol) ?_
    rcases hend with htail | hle | ⟨heq, -⟩
    · exact .inl htail
    · exact .inr (.inl hle)
    · exact .inr (.inr (heq.trans hcol.symm))
  · obtain ⟨rfl, rfl, rfl⟩ := hw.resolve_right hcol
    have htail : s.rest = tail := hr
    rcases Nat.lt_or_ge s.reference.column s.position.column with hopen | hclosed
    · rcases hend with rfl | hle | ⟨heq, -⟩
      · have stops := Runs.rounds_nil (p := p) (s := s.withReference s.position) hs
          (.inr (by rw [show (s.withReference s.position).rest = [] from htail]; exact hnil))
        have hrest : (s.withReference s.position).rest = [] := htail
        rw [hrest] at stops
        exact .indentedBlock_open hopen stops (.inl rfl)
      · exact absurd hle (Nat.not_le.mpr hopen)
      · exact absurd heq hcol
    · rw [← htail]
      exact .indentedBlock_closed hs hclosed

end Blocks

end Parser

end ContextRoles.Parsing
