import ContextRoles.Proofs.Source.Coherence
import ContextRoles.Proofs.Source.Following
import ContextRoles.Proofs.Source.Shifting

/-! # Texts that go on

A text may be followed by another one when the line ends between them. What is read up to the end of the
first text is read with the white space that leads to the second one, and nothing of the second one is
read where it starts in the first column.
-/

namespace ContextRoles.Parsing.Position

theorem one_le_column_advance (p : Position) (c : Char) : 1 ≤ (p.advance c).column := by
  have hmod : (p.column + (tabWidth - 1)) % tabWidth < tabWidth := Nat.mod_lt _ (by decide)
  rw [advance]
  split
  · exact Nat.le_refl _
  · split
    · dsimp only
      omega
    · exact Nat.le_add_left 1 _

theorem one_le_column_advanceAll {p : Position} (h : 1 ≤ p.column) (w : List Char) :
    1 ≤ (p.advanceAll w).column := by
  induction w generalizing p with
  | nil => exact h
  | cons c w ih => exact ih (one_le_column_advance p c)

end ContextRoles.Parsing.Position

namespace ContextRoles.Source

open Parsing Lexeme
open ContextRoles.Parsing.Parser hiding some

variable {n : Nat} {g rest tail w x : List Char} {stop : Position} {s t : State}

/-- The second run reads a text that goes on with white space `g` and with `tail` behind the one of the
first run. It may be some lines further down. Where `tail` starts is at `stop`, on a later line. -/
structure Prolonged (n : Nat) (g tail : List Char) (stop : Position) (s t : State) : Prop where
  sound : s.Sound
  sound' : t.Sound
  rest : t.rest = s.rest ++ (g ++ tail)
  parted : g.head? = some '\n' ∨ s.rest.getLast? = some '\n'
  position : t.position = s.position.below n
  reference : t.reference = s.reference.below n
  reaches : t.position.advanceAll (s.rest ++ g) = stop
  passed : t.reference.line < stop.line
  column : 1 ≤ t.position.column
  margin : 1 ≤ t.reference.column
  consumed : t.consumed = s.consumed
  drawn : t.drawn = s.drawn

/-- The first run is at the end of its text, the second one in front of `tail`. -/
structure Exhausted (tail : List Char) (stop : Position) (s t : State) : Prop where
  sound : s.Sound
  sound' : t.Sound
  ended : s.rest = []
  rest : t.rest = tail
  position : t.position = stop
  passed : tail ≠ [] → t.reference.line < stop.line ∧ 1 ≤ t.reference.column
  consumed : t.consumed = s.consumed
  drawn : t.drawn = s.drawn

namespace Prolonged

theorem line_lt (h : Prolonged n g tail stop s t) : t.position.line < stop.line := by
  have hmem : '\n' ∈ s.rest ++ g := by
    rcases h.parted with hg | hs
    · exact List.mem_append_right _ (List.mem_of_mem_head? hg)
    · exact List.mem_append_left _ (List.mem_of_getLast? hs)
  rw [← h.reaches]
  exact Position.line_lt_advanceAll hmem _

/-- Over what both texts have in common the runs go together, as long as a line ends ahead. -/
theorem pass (h : Prolonged n g tail stop s t) (hw : s.rest = w ++ rest)
    (hparted : g.head? = some '\n' ∨ rest.getLast? = some '\n') :
    t.rest = w ++ (rest ++ (g ++ tail)) ∧ Prolonged n g tail stop (s.pass w) (t.pass w) := by
  have hrest : t.rest = w ++ (rest ++ (g ++ tail)) := by rw [h.rest, hw, List.append_assoc]
  have hahead : (s.pass w).rest = rest := State.rest_pass hw
  refine ⟨hrest, ?_⟩
  exact
    { sound := h.sound.pass hw
      sound' := h.sound'.pass hrest
      rest := by rw [State.rest_pass hrest, hahead]
      parted := by rwa [hahead]
      position := by rw [State.position_pass, State.position_pass, h.position,
        Position.advanceAll_below]
      reference := h.reference
      reaches := by
        rw [hahead, State.position_pass, ← Position.advanceAll_append, ← List.append_assoc, ← hw,
          h.reaches]
      passed := h.passed
      column := Position.one_le_column_advanceAll h.column w
      margin := h.margin
      consumed := by simp only [State.pass, h.consumed]
      drawn := h.drawn }

theorem ends_line (h : Prolonged n g tail stop s t) : Parted s.rest (g ++ tail) := by
  refine h.parted.imp_left fun hg => ?_
  obtain ⟨g', rfl⟩ := List.head?_eq_some_iff.mp hg
  rintro _ ⟨⟩
  rfl

end Prolonged

theorem follows_prolonged : Follows (Prolonged n g tail stop) where
  sound _ _ h := ⟨h.sound, h.sound'⟩
  consumed _ _ h := h.consumed
  drawn _ _ h := h.drawn
  withConsumed _ _ _ h := { h with consumed := rfl }
  rewindFrom _ _ _ _ h hd := { h with drawn := hd }
  step s t c r h hr hlayout := by
    have hne : s.rest.getLast? = some '\n' → r ≠ [] := by
      rintro hlast rfl
      rw [hr] at hlast
      obtain rfl : c = '\n' := by simpa using hlast
      exact hlayout rfl rfl
    have hparted : g.head? = some '\n' ∨ r.getLast? = some '\n' := by
      refine h.parted.imp_right fun hlast => ?_
      obtain ⟨d, r, rfl⟩ := List.exists_cons_of_ne_nil (hne hlast)
      simpa [hr] using hlast
    obtain ⟨hrest, hpass⟩ := h.pass (w := [c]) hr hparted
    exact ⟨[c], _, hrest, .inl rfl, hpass⟩
  stops s t h hs := by
    rw [h.rest]
    cases hr : s.rest with
    | nil =>
      have hg : g.head? = some '\n' := h.parted.resolve_right (by simp [hr])
      obtain ⟨g', rfl⟩ := List.head?_eq_some_iff.mp hg
      rintro _ ⟨⟩
      decide
    | cons c r =>
      rintro _ ⟨⟩
      exact isBlank_of_isLayout (hs c (by simp [hr]))

/-- In front of a lexeme there is something left of the first text. -/
def Lexical (w : List Char) : Prop := (Sealed w ∧ Solid w) ∧ w ≠ []

/-- Behind the characters of a lexeme something was read, or something is left. -/
def Spent (s : State) : Prop := s.rest = [] → s.consumed = true

theorem prolonged_whiteSpace (hg : Gap g tail) :
    Alike AnyErrors (fun s t => Along (Prolonged n g tail stop) Sealed s t ∧ Spent s)
      (Either (Along (Prolonged n g tail stop) Lexical) (Exhausted tail stop))
      language.whiteSpace := by
  rintro s t ⟨⟨h, hsealed⟩, hspent⟩
  obtain ⟨x, rest, hx, hgap, hrest⟩ := hsealed.exists_gap
  by_cases hend : rest = []
  · subst hend
    rw [List.append_nil] at hx
    have hjoined : Gap (x ++ g) tail :=
      hgap.join_of hg (h.ends_line.imp_right fun hlast => .inr (by rwa [hx] at hlast))
    have ht : t.rest = (x ++ g) ++ tail := by rw [h.rest, hx, List.append_assoc]
    have hx' : s.rest = x ++ [] := by rw [hx, List.append_nil]
    -- both runs have set the flag: with the white space of the first text, or before it
    have hflag : s.consumed = true ∨ x ≠ [] :=
      or_iff_not_imp_right.mpr fun hnil => hspent (by rw [hx, not_not.mp hnil])
    have hmarked : (s.pass x).consumed = true :=
      hflag.elim (fun hc => by simp [State.pass, hc]) fun hne => s.consumed_pass hne
    have hmarked' : (t.pass (x ++ g)).consumed = true :=
      hflag.elim (fun hc => by simp [State.pass, h.consumed, hc])
        fun hne => t.consumed_pass (List.append_ne_nil_of_left_ne_nil hne g)
    rw [hgap.reads s h.sound hx' trivial, hjoined.reads t h.sound' ht trivial]
    refine .success ⟨rfl, .inr ?_⟩
    exact
      { sound := h.sound.pass hx'
        sound' := h.sound'.pass ht
        ended := State.rest_pass hx'
        rest := State.rest_pass ht
        position := by rw [State.position_pass, ← hx, h.reaches]
        passed := fun _ => ⟨h.passed, h.margin⟩
        consumed := hmarked'.trans hmarked.symm
        drawn := h.drawn }
  · have hparted : g.head? = some '\n' ∨ rest.getLast? = some '\n' :=
      h.parted.imp_right fun hlast => by rwa [hx, List.getLast?_append_of_ne_nil x hend] at hlast
    obtain ⟨ht, hpass⟩ := h.pass hx hparted
    have hgap' : Gap x (rest ++ (g ++ tail)) :=
      hgap.append hend ((hx ▸ h.ends_line : Parted (x ++ rest) (g ++ tail)).of_append hend)
    rw [hgap.reads s h.sound hx trivial, hgap'.reads t h.sound' ht trivial]
    refine .success ⟨rfl, .inl ⟨hpass, ?_⟩⟩
    rw [State.rest_pass hx]
    exact ⟨⟨hrest, hgap.solid⟩, hend⟩

theorem aligns_exhausted : State.Aligns AnyErrors (Exhausted tail stop) := State.Free.aligns
  { sound := fun _ _ h => ⟨h.sound, h.sound'⟩
    consumed := fun _ _ h => h.consumed
    drawn := fun _ _ h => h.drawn
    withConsumed := fun _ _ _ h => { h with consumed := rfl }
    rewindFrom := fun _ _ _ _ h hd => { h with drawn := hd } }

theorem weaving_prolonged (hg : Gap g tail) (hstop : tail ≠ [] → stop.column = 1) :
    Weaving tail AnyErrors (Along (Prolonged n g tail stop) Lexical)
      (Along (Prolonged n g tail stop) Sealed)
      (fun s t => Along (Prolonged n g tail stop) Sealed s t ∧ Spent s) (Exhausted tail stop) where
  ahead := aligns_along follows_prolonged.toFree
  inside := aligns_along follows_prolonged.toFree
  behind := aligns_exhausted
  enters _ _ h := ⟨h.1, h.2.1.1⟩
  satisfy _ ha := follows_prolonged.bare ha
  peek _ ha := follows_prolonged.peek ha
  string _ hne ha := follows_prolonged.literal hne ha
  minus := follows_prolonged.minus.start fun _ _ h => ⟨h.1, h.2.1⟩
  quoted := follows_prolonged.quoting.string.start fun _ _ h => ⟨h.1, h.2.1.1⟩
  spend _ _ _ _ h h' hrest := ⟨h', fun hnil =>
    hrest.resolve_left fun hsame => h.2.2 (hsame.symm.trans hnil)⟩
  whiteSpace := prolonged_whiteSpace hg
  column _ _ h := by rw [h.1.position]; rfl
  referenceColumn _ _ h := by rw [h.1.reference]; rfl
  line _ _ h := by
    rw [h.1.position, h.1.reference]
    exact Nat.add_right_cancel_iff
  atEnd s t h := by
    have hne : s.rest ≠ [] := h.2.2
    rw [h.1.sound.atEnd, h.1.sound'.atEnd, h.1.rest, List.isEmpty_eq_false_iff.mpr hne,
      List.isEmpty_eq_false_iff.mpr (List.append_ne_nil_of_left_ne_nil hne _)]
  enter _ _ h :=
    ⟨{ h.1 with reference := h.1.position, passed := h.1.line_lt, margin := h.1.column }, h.2⟩
  opened _ _ h := ⟨{ h.1 with
    reference := by rw [h.1.position, h.1.reference]; rfl
    passed := h.1.line_lt }, h.2⟩
  restore _ _ _ _ h h' := ⟨{ h'.1 with
    reference := h.1.reference
    passed := h.1.passed
    margin := h.1.margin }, h'.2⟩
  restoreBehind _ _ _ _ h h' := { h' with passed := fun _ => ⟨h.1.passed, h.1.margin⟩ }
  margin _ _ _ _ _ h := h.1.margin
  lenient _ _ _ _ _ := trivial
  ended _ _ h := h.ended
  goesOn s t h := by
    by_cases htail : tail = []
    · exact .inl (h.rest.trans htail)
    · have hpassed := h.passed htail
      exact .inr ⟨h.rest, h.position ▸ hpassed.1, h.position ▸ hstop htail, hpassed.2⟩
  move _ _ _ h := { h with }
  moveBoth _ _ _ _ h hrest := { h with passed := fun hne => absurd (h.rest.symm.trans hrest) hne }

section Sources

variable {ids : Nat → String} {drawn : Nat} {source : String} {collection : Collection}

theorem ne_nil_of_read (hr : (read ids drawn source).result = .ok collection) :
    source.toList ≠ [] := by
  intro hnil
  obtain ⟨c, t, ht, -⟩ := exists_sourceFile hr
  obtain ⟨e, u, hu, -⟩ := refuses_sourceFile_nil ids
    { State.start source with drawn } (State.sound_start source) hnil
  rw [ht] at hu
  cases hu

theorem read_trailed {trail : String} (h : Accepts language.whiteSpace trail ())
    (hstart : trail.toList.head? = some '\n')
    (hr : (read ids drawn source).result = .ok collection) :
    read ids drawn (source ++ trail) = read ids drawn source := by
  have hne := ne_nil_of_read hr
  have hmem : '\n' ∈ source.toList ++ trail.toList :=
    List.mem_append_right _ (List.mem_of_mem_head? hstart)
  have start : Prolonged 0 trail.toList [] (Position.advanceAll {} (source.toList ++ trail.toList))
      { State.start source with drawn } { State.start (source ++ trail) with drawn } :=
    { sound := State.sound_start source
      sound' := State.sound_start (source ++ trail)
      rest := String.toList_append.trans (by rw [List.append_nil]; rfl)
      parted := .inl hstart
      position := rfl
      reference := rfl
      reaches := rfl
      passed := Position.line_lt_advanceAll hmem {}
      column := Nat.le_refl _
      margin := Nat.le_refl _
      consumed := rfl
      drawn := rfl }
  exact (weaving_prolonged (gap_of_accepts h) fun hne => absurd rfl hne).read_eq hr fun hsealed =>
    ⟨⟨start, hsealed⟩, fun hnil => absurd hnil hne⟩

/-- Lines of white space and comments in front of a source only move what is reported down by as many
lines, and those behind a source that is accepted change nothing. -/
theorem read_surrounded (ids : Nat → String) (drawn : Nat) (source : String) :
    (∀ lead, Accepts language.whiteSpace lead () → lead.toList.getLast? = some '\n' →
      read ids drawn (lead ++ source) =
        (read ids drawn source).below (lead.toList.count '\n')) ∧
    ∀ trail, Accepts language.whiteSpace trail () → trail.toList.head? = some '\n' →
      ∀ collection, (read ids drawn source).result = .ok collection →
        read ids drawn (source ++ trail) = read ids drawn source :=
  ⟨fun _ h hend => read_append h hend, fun _ h hstart _ hr => read_trailed h hstart hr⟩

theorem read_surrounded_commented :
    (read tally 0 overwriting).result = .ok overwritten ∧
    read tally 0 ("\x7b- a\n\x7b- b -\x7d -\x7d\n\t-- c\n" ++ overwriting) =
      (read tally 0 overwriting).below 3 ∧
    read tally 0 (overwriting ++ "\n  -- d\n\x7b- e\n-\x7d --") = read tally 0 overwriting ∧
    (read tally 0 ":r :R\n  p = 4").result.toOption = none ∧
    read tally 0 ("--\n" ++ ":r :R\n  p = 4") = (read tally 0 ":r :R\n  p = 4").below 1 := by
  have hr := result_eq_ok read_overwriting.1
  obtain ⟨before, behind⟩ := read_surrounded tally 0 overwriting
  refine ⟨hr, before _ ?_ ?_, behind _ ?_ ?_ _ hr, by decide +kernel,
    (read_surrounded tally 0 _).1 "--\n" ?_ ?_⟩ <;> decide +kernel

end Sources

end ContextRoles.Source
