import ContextRoles.Proofs.Source.Assembly
import ContextRoles.Proofs.Source.Upholding

/-! # Lines left over behind a definition

A definition is read up to its end, also when a line in the first column follows it. That line is
reported as one that is not indented: by what follows the definition, not by what may be read there.
-/

namespace ContextRoles.Parsing

namespace Position

theorem getLast?_of_column {p : Position} (hp : 1 ≤ p.column) {w : List Char} (hne : w ≠ [])
    (h : (p.advanceAll w).column = 1) : w.getLast? = some '\n' := by
  obtain ⟨w, c, rfl⟩ := List.eq_nil_or_concat w |>.resolve_left hne
  have hstart : 1 ≤ (p.advanceAll w).column := one_le_column_advanceAll hp w
  have hmod := Nat.mod_lt ((p.advanceAll w).column + (tabWidth - 1)) (show 0 < tabWidth by decide)
  rw [List.concat_eq_append, advanceAll_append, advanceAll_cons, advanceAll_nil, advance] at h
  rw [List.concat_eq_append, List.getLast?_concat]
  split at h
  next hc => rw [hc]
  · split at h <;> simp only at h <;> omega

end Position

end ContextRoles.Parsing

namespace ContextRoles.Source

open Parsing Lexeme
open ContextRoles.Parsing.Parser hiding some

variable {ids : Nat → String} {n : Nat} {c : Collection} {s t u : State} {g r tail : List Char}
  {stop : Position}

theorem ample_prolonged (hg : Gap g tail) (hstop : tail ≠ [] → stop.column = 1) :
    Ample tail AnyErrors (Along (Prolonged n g tail stop) Lexical)
      (Along (Prolonged n g tail stop) Sealed)
      (fun s t => Along (Prolonged n g tail stop) Sealed s t ∧ Spent s) (Exhausted tail stop) :=
  ⟨weaving_prolonged hg hstop, fun _ _ hst => hst.2.2⟩

theorem Exhausted.endOfDefinition_eq (h : Exhausted tail stop s t) (htail : tail ≠ [])
    (hstop : stop.column = 1) :
    endOfDefinition t = .failure ⟨.notIndented, stop⟩ (t.checkpoint.withConsumed t.consumed) := by
  have hmore : t.checkpoint.atEnd = false := by
    rw [h.sound'.checkpoint.atEnd, List.isEmpty_eq_false_iff]
    exact h.rest ▸ htail
  have hends : RefusesAt endOfInput t.checkpoint :=
    ⟨_, _, by rw [endOfInput, if_neg (by simp [hmore])], rfl, rfl⟩
  have hclosed : t.checkpoint.position.column ≤ t.checkpoint.reference.column := by
    change t.position.column ≤ t.reference.column
    rw [h.position, hstop]
    exact (h.passed htail).2
  have hfails : (Parser.indented.then_ endOfInput) t.checkpoint =
      .failure ⟨.notIndented, stop⟩ t.checkpoint := by
    simp only [Parser.then_, Parser.bind, Parser.indented, if_pos hclosed]
    exact congrArg (fun position => Outcome.failure ⟨.notIndented, position⟩ _) h.position
  rw [endOfDefinition, hends.alt_eq, hfails]
  simp [Outcome.merge, Outcome.mapState, State.checkpoint, State.withConsumed]

theorem Weaving.refusesAt_text {E : ParseError → ParseError → Prop}
    {L T W B : State → State → Prop} (h : Weaving tail E L T W B) (hst : L s t)
    (hno : ¬ "Text".toList <+: s.rest) : RefusesAt (Source.text ids) t := by
  have hst' := h.enter hst
  have hs : (s.withReference s.position).Sound := (h.ahead.sound hst').1
  obtain ⟨e, u, hu, hc, hd⟩ := (refuses_reserved hno).refusesAt hs rfl
  have both := h.reserved (show "Text" ≠ "" by decide) (by decide) hst'
  rw [hu] at both
  generalize hv : language.reserved "Text" (t.withReference t.position) = r at both
  cases both with
  | @failure _ e' _ v _ hc' hd' =>
    have hrefuses : RefusesAt (language.reserved "Text") (t.withReference t.position) :=
      ⟨e', v, hv, (hc'.trans hc).trans (h.ahead.consumed hst').symm,
        (hd'.trans hd).trans (h.ahead.drawn hst').symm⟩
    exact hrefuses.bind.bind.withPosition

/-- A source that is accepted as a definition is read up to where another text follows it in the first
column, and refused there. -/
theorem sourceFile_leftover (hprolonged : Prolonged 0 [] tail stop s t) (hrest : s.rest = g ++ r)
    (hg : Gap g r) (hno : ¬ "Text".toList <+: r) (hr : sourceFile ids s = .success c u)
    (htail : tail ≠ []) (hsolid : Solid tail) (hstop : stop.column = 1) :
    ∃ v, sourceFile ids t = .failure ⟨.notIndented, stop⟩ v := by
  have hs := hprolonged.sound
  have h := ample_prolonged (n := 0) (.nil hsolid) fun _ => hstop
  obtain ⟨w, hdef, hw, -⟩ := definition_of_sourceFile hs hrest hg hno hr
  have hahead : (s.pass g).checkpoint.Sound := hs.pass hrest
  have hne : r ≠ [] := by
    have headed := leaves_definition hahead hdef
    rw [show (s.pass g).checkpoint.rest = r from State.rest_pass hrest] at headed
    exact headed.ne_nil
  have hspent : Spent s := fun hnil => absurd (hrest.symm.trans hnil) (by simp [hne])
  have blanks := (h.whiteSpace.upheld (C := fun _ => True))
    ⟨⟨hprolonged, sealed_of_sourceFile hs hr⟩, hspent⟩
  rw [hg.reads s hs hrest trivial] at blanks
  obtain ⟨v, hv, huv⟩ := blanks.exists_success trivial
  have hbegins := huv.resolve_right fun hend => hne ((State.rest_pass hrest).symm.trans (h.ended hend))
  have hchecked := h.ahead.withConsumed false hbegins
  have hno' : ¬ "Text".toList <+: ((s.pass g).withConsumed false).rest := by
    rwa [show ((s.pass g).withConsumed false).rest = r from State.rest_pass hrest]
  have refused : RefusesAt ((text ids).skip endOfInput) v.checkpoint :=
    (h.refusesAt_text hchecked hno').bind
  obtain ⟨x, hx, hwx⟩ := h.definition_success hchecked hdef (.inl hw)
  have hend : Exhausted tail stop w x := hwx.resolve_left fun hlexical => h.left hlexical hw
  have fails : ((definition ids).skip endOfDefinition) v.checkpoint =
      .failure ⟨.notIndented, stop⟩ (x.checkpoint.withConsumed x.consumed) := by
    simp only [Parser.skip, Parser.bind, State.checkpoint, hx, Parser.result, Parser.map]
    rw [hend.endOfDefinition_eq htail hstop]
    rfl
  refine ⟨x.withConsumed (v.consumed || x.consumed), ?_⟩
  simp only [sourceFile, Parser.then_, Parser.bind, hv]
  rw [refused.alt_eq, fails]
  rfl

/-- A line in the first column behind a context or a role with its body is reported as not indented, in
the place where it starts. The header may be in any column. -/
theorem read_leftover (ids : Nat → String) (drawn : Nat) (before after : String)
    (hr : (read ids drawn before).result = .ok c)
    (hstart : language.whiteSpace (State.start before) = .success () s)
    (hno : ¬ "Text".toList <+: s.rest) (hne : after.toList ≠ []) (hsolid : Solid after.toList)
    (hcolumn : (Position.advanceAll {} before.toList).column = 1) :
    ∃ e, (read ids drawn (before ++ after)).result = .error e ∧ e.message = "not indented" ∧
      e.position = Position.advanceAll {} before.toList := by
  obtain ⟨c', t, ht, -⟩ := exists_sourceFile hr
  obtain ⟨g, hsource, hg⟩ := gap_of_whiteSpace (State.sound_start before) hstart
  have hends := Position.getLast?_of_column (Nat.le_refl 1) (ne_nil_of_read hr) hcolumn
  have start : Prolonged 0 [] after.toList (Position.advanceAll {} before.toList)
      { State.start before with drawn } { State.start (before ++ after) with drawn } :=
    { sound := State.sound_start before
      sound' := State.sound_start (before ++ after)
      rest := String.toList_append
      parted := .inr hends
      position := rfl
      reference := rfl
      reaches := by rw [List.append_nil]; rfl
      passed := Position.line_lt_advanceAll (List.mem_of_getLast? hends) {}
      column := Nat.le_refl _
      margin := Nat.le_refl _
      consumed := rfl
      drawn := rfl }
  obtain ⟨v, hv⟩ := sourceFile_leftover start hsource hg hno ht hne hsolid hcolumn
  refine ⟨⟨.notIndented, Position.advanceAll {} before.toList⟩, ?_, rfl, rfl⟩
  rw [read, hv]

/-- A context in the fourth column that binds a role defined in place. A context would not take the
property of that role for its own. -/
def shifted : String :=
  "-- a\n   :k :K\n    public :p = 1\n    :r(2) =>\n      :s :S\n       :q = -3\n\x7b- b -\x7d\n"

theorem read_leftover_shifted :
    ∃ c s, (read tally 0 shifted).result = .ok c ∧
      language.whiteSpace (State.start shifted) = .success () s ∧ s.position.column = 4 ∧
      ∃ e, (read tally 0 (shifted ++ "(1) = true\n")).result = .error e ∧
        e.message = "not indented" ∧ e.position = ⟨8, 1⟩ := by
  obtain ⟨c, hc⟩ := Option.isSome_iff_exists.mp
    (show (read tally 0 shifted).result.toOption.isSome = true by decide +kernel)
  have hstart : language.whiteSpace (State.start shifted) =
      .success () ((State.start shifted).pass "-- a\n   ".toList) := by decide +kernel
  obtain ⟨e, he, hmessage, hposition⟩ := read_leftover tally 0 shifted "(1) = true\n"
    (result_eq_ok hc) hstart (by decide +kernel) (by decide) (by decide) (by decide +kernel)
  refine ⟨c, _, result_eq_ok hc, hstart, by decide +kernel, e, he, hmessage, ?_⟩
  rw [hposition]
  decide +kernel

/-- A line that is left of a definition and right of the first column is not reported as such. -/
theorem not_read_leftover_indented : ¬ ∀ (before after : String) (c : Collection) (s : State),
    (read tally 0 before).result = .ok c →
    language.whiteSpace (State.start before) = .success () s → ¬ "Text".toList <+: s.rest →
    after.toList ≠ [] → Solid after.toList →
    s.position.line < (Position.advanceAll {} before.toList).line →
    (Position.advanceAll {} before.toList).column ≤ s.position.column →
    ∃ e, (read tally 0 (before ++ after)).result = .error e ∧ e.message = "not indented" ∧
      e.position = Position.advanceAll {} before.toList := by
  intro h
  obtain ⟨c, hc⟩ := Option.isSome_iff_exists.mp
    (show (read tally 0 "  :A :B\n  ").result.toOption.isSome = true by decide +kernel)
  have hstart : language.whiteSpace (State.start "  :A :B\n  ") =
      .success () ((State.start "  :A :B\n  ").pass "  ".toList) := by decide +kernel
  obtain ⟨e, he, hmessage, -⟩ := h "  :A :B\n  " ":c = 1\n" c _ (result_eq_ok hc) hstart
    (by decide +kernel) (by decide) (by decide) (by decide +kernel) (by decide +kernel)
  have hends : (read tally 0 ("  :A :B\n  " ++ ":c = 1\n")).result =
      .error ⟨.expected "end of input", ⟨2, 3⟩⟩ := by decide +kernel
  rw [hends] at he
  cases he
  exact absurd hmessage (by decide)

end ContextRoles.Source
