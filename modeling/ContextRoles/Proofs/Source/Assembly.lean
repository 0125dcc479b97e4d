import ContextRoles.Proofs.Source.Heading
import ContextRoles.Proofs.Source.Keying
import ContextRoles.Proofs.Source.Prolonging

/-! # Texts that are put together from sources

Sources with one definition each may be put together below a title. A definition that starts in the
first column ends where the next one starts, as it ends with its own source, so each one is read in the
text as it is read alone. What the text holds is what the sources hold, merged in their order and linked
once.
-/

namespace ContextRoles.Source

open Parsing Lexeme
open ContextRoles.Parsing.Parser hiding some

variable {ids : Nat → String} {k d m n : Nat} {c : Collection} {cs : List Collection}
  {source x : String} {sources : List String} {g g' r tail w : List Char} {s t : State}

section Sources

/-- A source whose last line is ended. What it defines starts in the first column, behind white space,
and is not a text: only texts begin with their keyword. -/
structure Lone (source : String) : Prop where
  ends : source.toList.getLast? = some '\n'
  starts : ∃ s, language.whiteSpace (State.start source) = .success () s ∧ s.position.column = 1 ∧
    ¬ "Text".toList <+: s.rest

/-- The sources are accepted one after the other. Each takes its identifiers from where the one before
it has stopped. -/
inductive ReadEach (ids : Nat → String) : Nat → List String → List Collection → Nat → Prop where
  | nil {k : Nat} : ReadEach ids k [] [] k
  | cons {k m n : Nat} {source : String} {c : Collection} {sources : List String}
      {cs : List Collection} : read ids k source = ⟨.ok c, m⟩ → ReadEach ids m sources cs n →
      ReadEach ids k (source :: sources) (c :: cs) n

theorem lone_of_gap (hsource : source.toList = g ++ r) (hg : Gap g r)
    (hends : source.toList.getLast? = some '\n') (hcolumn : (Position.advanceAll {} g).column = 1)
    (hr : ¬ "Text".toList <+: r) : Lone source := by
  refine ⟨hends, _, hg.reads (State.start source) (State.sound_start source) hsource trivial,
    hcolumn, ?_⟩
  rwa [State.rest_pass hsource]

end Sources

section Definitions

/-- One definition stands behind a gap. It is read up to the end of the text and draws `d`
identifiers. -/
structure Stands (ids : Nat → String) (k : Nat) (g r : List Char) (d : Nat) (c : Collection) :
    Prop where
  gap : Gap g r
  column : (Position.advanceAll {} g).column = 1
  ends : r.getLast? = some '\n'
  closed : Sealed r
  headed : Headed r
  reads : ∃ s t, s.Sound ∧ s.rest = r ∧ s.position = Position.advanceAll {} g ∧
    s.consumed = false ∧ s.drawn = k ∧ definition ids s = .success c t ∧ t.rest = [] ∧
    t.drawn = k + d

theorem Stands.ne_nil (h : Stands ids k g r d c) : r ≠ [] := by
  rintro rfl
  simpa using h.ends

theorem definition_of_sourceFile (hs : s.Sound) (hrest : s.rest = g ++ r) (hg : Gap g r)
    (hno : ¬ "Text".toList <+: r) (hr : sourceFile ids s = .success c t) :
    ∃ u, definition ids (s.pass g).checkpoint = .success c u ∧ u.rest = [] ∧ u.drawn = t.drawn := by
  obtain ⟨⟨⟩, u, hu, hr⟩ := bind_eq_success.mp hr
  rw [hg.reads s hs hrest trivial] at hu
  cases hu
  have sound : (s.pass g).checkpoint.Sound := hs.pass hrest
  have refused : Refuses ((text ids).skip endOfInput) r :=
    (refuses_reserved hno).bind.bind.withPosition.bind
  obtain ⟨e, v, hv, -, hd⟩ := refused.refusesAt sound (State.rest_pass hrest)
  rcases alt_success hr with ⟨u, hu, -⟩ | ⟨e', v', u, hv', -, hu, rfl⟩
  · rw [hv] at hu
    cases hu
  · rw [hv] at hv'
    cases hv'
    rw [State.rewindFrom_eq_self hd] at hu
    obtain ⟨c', w, hdef, hu⟩ := bind_eq_success.mp hu
    obtain ⟨⟨⟩, hend, rfl⟩ := map_eq_success.mp hu
    have hw := ((framed_definition ids).success hdef).sound sound
    have hrest := (leaves_endOfDefinition hw hend).1
    rw [reads_endOfDefinition w hw hrest trivial, State.pass_nil] at hend
    cases hend
    exact ⟨u, hdef, hrest, rfl⟩

theorem Lone.exists_stands (h : Lone source) (hread : read ids k source = ⟨.ok c, m⟩) :
    ∃ g r d c', source.toList = g ++ r ∧ m = k + d ∧ Stands ids k g r d c' ∧
      c'.entities = c.entities.mapValues Entity.unlinked := by
  obtain ⟨hends, s, hs, hcolumn, hno⟩ := h
  obtain ⟨c', t, ht, hc'⟩ := exists_sourceFile (congrArg Reading.result hread)
  rw [hread] at hc'
  injection hc' with hok hm
  injection hok with hlinked
  have sound : ({ State.start source with drawn := k } : State).Sound := State.sound_start source
  obtain ⟨g, hsource, hg⟩ := gap_of_whiteSpace (State.sound_start source) hs
  generalize hr : s.rest = r at hsource hg hno
  rw [hg.reads _ (State.sound_start source) hsource trivial] at hs
  cases hs
  obtain ⟨u, hu, hend, hd⟩ := definition_of_sourceFile sound hsource hg hno ht
  have ahead := (sound.pass hsource).checkpoint
  have hle : k ≤ u.drawn := ((framed_definition ids).success hu).drawn_le
  have headed : Headed ((State.start source).pass g).rest := (leaves_definition ahead hu :)
  rw [hr] at headed
  have hends' : r.getLast? = some '\n' := by
    have hall : (g ++ r).getLast? = some '\n' := hsource ▸ hends
    rwa [List.getLast?_append_of_ne_nil g headed.ne_nil] at hall
  have closed : Sealed r := by
    obtain ⟨g', r', hsource', hg', hsealed⟩ := (sealed_of_sourceFile sound ht).exists_gap
    obtain ⟨-, rfl⟩ := hg.unique hg' (hsource.symm.trans hsource')
    exact hsealed
  refine ⟨g, r, u.drawn - k, c', hsource, by omega, ⟨hg, hcolumn, hends', closed, headed,
    _, u, ahead, hr, rfl, rfl, rfl, hu, hend, by omega⟩, ?_⟩
  rw [hlinked, Collection.unlinked_linkFilledRoles, (fresh_definition hu).unlinked]

theorem Stands.runs (h : Stands ids k g r d c) (hg : Gap g' tail)
    (hcolumn : (Position.advanceAll {} g').column = 1) (hresists : Resists tail) (ht : t.Sound)
    (hrest : t.rest = r ++ (g' ++ tail)) (hpos : t.position = (Position.advanceAll {} g).below n)
    (hflag : t.consumed = false) (hdrawn : t.drawn = k) :
    Runs (definition ids) t (r ++ g') tail d c := by
  obtain ⟨s, u, hs, hr, hposition, hclear, hk, hu, hend, hd⟩ := h.reads
  obtain ⟨m, hm⟩ := Position.exists_below h.ends g' t.position
  have hline : '\n' ∈ r ++ g' := List.mem_append_left _ (List.mem_of_getLast? h.ends)
  have hstart : 1 ≤ t.position.column := by
    rw [hpos]
    exact Nat.le_of_eq h.column.symm
  have alone : Prolonged n g' tail (t.position.advanceAll (r ++ g'))
      (s.withReference s.position) (t.withReference t.position) :=
    { sound := hs
      sound' := ht
      rest := hrest.trans (hr ▸ rfl)
      parted := .inr ((congrArg List.getLast? hr).trans h.ends)
      position := hpos.trans (hposition ▸ rfl)
      reference := hpos.trans (hposition ▸ rfl)
      reaches := congrArg (fun w => t.position.advanceAll (w ++ g')) hr
      passed := Position.line_lt_advanceAll hline t.position
      column := hstart
      margin := hstart
      consumed := hflag.trans hclear.symm
      drawn := hdrawn.trans hk.symm }
  have lexical : Lexical s.rest := hr ▸ ⟨⟨h.closed, h.gap.solid⟩, h.ne_nil⟩
  have weaving := weaving_prolonged (n := n) hg fun _ => (congrArg Position.column hm).trans hcolumn
  have both : Alike AnyErrors (Loose _) (Loose _) (definition ids) :=
    weaving.definitionFrom_of_all hresists weaving.lodges_loose fun _ _ => trivial
  rcases (both ⟨_, _, alone, lexical⟩).kinds with
    ⟨a, b, v, w, hv, hw, rfl, p, q, hvw⟩ | ⟨e, e', v, w, hv, -⟩ | ⟨hv, -⟩
  · rw [hu] at hv
    cases hv
    obtain hvw | hvw := hvw
    · exact absurd hend hvw.2.2
    · have reaches := (framed_definition ids).success hw
      exact ⟨w, hw, by rw [hrest, List.append_assoc], hvw.sound', hvw.rest, hvw.position,
        reaches.column_eq, by rw [hdrawn, ← hd]; exact hvw.drawn⟩
  · rw [hu] at hv
    cases hv
  · rw [hu] at hv
    cases hv

end Definitions

section Texts

/-- Definitions one below the other, with what each one draws. -/
inductive Stacked (ids : Nat → String) : Nat → List Char → Nat → List Collection → Prop where
  | nil {k : Nat} : Stacked ids k [] 0 []
  | cons {k d n : Nat} {g r w : List Char} {c : Collection} {cs : List Collection} :
      Stands ids k g r d c → Stacked ids (k + d) w n cs → Stacked ids k (g ++ (r ++ w)) (d + n) (c :: cs)

namespace Stacked

theorem exists_gap (h : Stacked ids k w d cs) : ∃ g r, w = g ++ r ∧ Gap g r ∧
    (Position.advanceAll {} g).column = 1 ∧ Resists r := by
  cases h with
  | nil => exact ⟨[], [], rfl, gap_nil, rfl, resists_nil⟩
  | @cons _ _ _ g r w _ _ h _ =>
    exact ⟨g, r ++ w, rfl, h.gap.append h.ne_nil (.inr h.ends), h.column,
      (h.headed.append h.ends).resists⟩

/-- Each definition is read with the gap in front of the next one. -/
theorem runs (h : Stacked ids k w d cs) (hw : w = g ++ r) (hg : Gap g r) (hs : s.Sound)
    (hr : s.rest = r) (hpos : s.position = (Position.advanceAll {} g).below n)
    (hcolumn : s.reference.column = 1) (hdrawn : s.drawn = k) :
    Runs (rounds (definition ids)) s r [] d cs := by
  induction h generalizing s g r n with
  | nil =>
    obtain ⟨rfl, rfl⟩ := List.append_eq_nil_iff.mp hw.symm
    have stop := Runs.rounds_nil (p := definition ids) hs (.inr (hr ▸ refuses_definition_nil))
    rwa [hr] at stop
  | @cons k d m g₀ r₀ w c cs h rest ih =>
    obtain ⟨rfl, rfl⟩ := (h.gap.append h.ne_nil (.inr h.ends)).unique hg hw
    obtain ⟨g', r', rfl, hg', hcolumn', hresists⟩ := rest.exists_gap
    have hfirst : s.position.column = 1 := by
      rw [hpos]
      exact h.column
    obtain ⟨n', hn'⟩ := Position.exists_below h.ends g' s.position
    rw [← List.append_assoc] at hr ⊢
    refine .rounds_cons hs (List.append_ne_nil_of_left_ne_nil h.ne_nil g') (hfirst.trans hcolumn.symm)
      ?_ fun t ht => ?_
    · rw [List.append_nil]
      exact h.runs hg' hcolumn' hresists hs (by rw [← List.append_assoc]; exact hr) hpos rfl hdrawn
    · exact ih rfl hg' ht.sound (ht.rest.trans (List.append_nil r')) (ht.position.trans hn')
        (ht.column.trans hcolumn) (ht.drawn.trans (hdrawn ▸ rfl))

end Stacked

theorem ReadEach.exists_stacked (h : ReadEach ids k sources cs m)
    (hlone : ∀ source ∈ sources, Lone source) :
    ∃ d cs', m = k + d ∧ Stacked ids k (String.join sources).toList d cs' ∧
      cs'.map Collection.entities = cs.map fun c => c.entities.mapValues Entity.unlinked := by
  induction h with
  | nil => exact ⟨0, [], rfl, .nil, rfl⟩
  | @cons k m n source c sources cs hread _ ih =>
    rw [List.forall_mem_cons] at hlone
    obtain ⟨g, r, d, c', hsource, rfl, hstands, hc⟩ := hlone.1.exists_stands hread
    obtain ⟨d', cs', rfl, hstacked, hcs⟩ := ih hlone.2
    have hjoin : (String.join (source :: sources)).toList =
        g ++ (r ++ (String.join sources).toList) := by
      rw [String.join_cons, String.toList_append, hsource, List.append_assoc]
    exact ⟨d + d', c' :: cs', Nat.add_assoc .., hjoin ▸ .cons hstands hstacked,
      congrArg₂ List.cons hc hcs⟩

/-- A title and sources below it are read as the title and what the sources hold. -/
theorem read_titled (hx : Spells instanceName x) (h : ReadEach ids k sources cs m)
    (hlone : ∀ source ∈ sources, Lone source) :
    read ids k ("Text " ++ x ++ "\n" ++ String.join sources) =
      ⟨.ok (Collection.linkFilledRoles ⟨localName x,
        .mergeAll (cs.map fun c => c.entities.mapValues Entity.unlinked)⟩), m⟩ := by
  obtain ⟨d, cs', rfl, hstacked, hcs⟩ := h.exists_stacked hlone
  obtain ⟨g, r, hjoin, hg, hcolumn, -⟩ := hstacked.exists_gap
  have solid := (Spelled.of_isName isSpelling_of_isLetter (by decide) hx.instanceName).solid
    (r := '\n' :: g ++ r) (ne_nil_of_isName hx.instanceName)
  have ending : LineBreak ('\n' :: g) r := ⟨.blank (by decide) hg, .inl (by simp)⟩
  have hstop : Stops isWordChar ([' '] ++ (x.toList ++ '\n' :: g ++ r)) := by
    rintro _ ⟨⟩
    decide +kernel
  rw [← List.append_assoc] at solid
  have title := reads_title (space_of_blank solid) hstop hx ending
  generalize htitle : "Text".toList ++ [' '] ++ (x.toList ++ '\n' :: g) = v at title
  have hchars : ("Text " ++ x ++ "\n" ++ String.join sources).toList = v ++ r := by
    simp [← htitle, hjoin]
  have hsplit : v = "Text ".toList ++ x.toList ++ ['\n'] ++ g := by simp [← htitle]
  obtain ⟨n, hn⟩ := Position.exists_below (w := "Text ".toList ++ x.toList ++ ['\n'])
    List.getLast?_concat g {}
  rw [← hsplit] at hn
  have front : Solid (v ++ r) := by
    rw [← htitle, List.append_assoc, List.append_assoc]
    have hword : ∀ c ∈ "Text".toList, isWordChar c = true := List.all_eq_true.mp (by decide +kernel)
    exact (Spelled.word hword).solid (by decide)
  let s : State := { State.start ("Text " ++ x ++ "\n" ++ String.join sources) with drawn := k }
  have run : Runs (sourceFile ids) s ([] ++ v ++ r) [] d (buildText x cs') := by
    refine runs_sourceFile (.nil front) title (State.sound_start _) hchars fun t ht => ?_
    have hpos : t.position = (Position.advanceAll {} g).below n := ht.position.trans hn
    exact hstacked.runs (s := t.withReference t.position) hjoin hg ht.sound ht.rest hpos
      ((congrArg Position.column hpos).trans hcolumn) ht.drawn
  obtain ⟨t, ht, hb⟩ := run
  have hdrawn : t.drawn = k + d := hb.drawn
  rw [read, ht, buildText, hcs]
  exact congrArg _ hdrawn

/-- Two sources that bind what the other one defines, and a third one that defines the first again. -/
def overlapping : List String :=
  ["-- a\n:A :B\n  :r => :C\n", ":C :D\n  :s => :A\n    :p = 1\n", "\n:A :E\n"]

theorem exists_read (hr : (read ids k source).result.toOption.isSome = true)
    (hd : (read ids k source).drawn = m) : ∃ c, read ids k source = ⟨.ok c, m⟩ := by
  obtain ⟨c, hc⟩ := Option.isSome_iff_exists.mp hr
  exact ⟨c, by rw [← result_eq_ok hc, ← hd]⟩

theorem read_titled_overlapping :
    ∃ a b c, Spells instanceName ":T" ∧ ReadEach tally 0 overlapping [a, b, c] 2 ∧
      (∀ source ∈ overlapping, Lone source) ∧
      read tally 0 ("Text " ++ ":T" ++ "\n" ++ String.join overlapping) =
        ⟨.ok (Collection.linkFilledRoles ⟨"T",
          .mergeAll ([a, b, c].map fun c => c.entities.mapValues Entity.unlinked)⟩), 2⟩ := by
  obtain ⟨a, ha⟩ : ∃ a, read tally 0 "-- a\n:A :B\n  :r => :C\n" = ⟨.ok a, 1⟩ :=
    exists_read (by decide +kernel) (by decide +kernel)
  obtain ⟨b, hb⟩ : ∃ b, read tally 1 ":C :D\n  :s => :A\n    :p = 1\n" = ⟨.ok b, 2⟩ :=
    exists_read (by decide +kernel) (by decide +kernel)
  obtain ⟨c, hc⟩ : ∃ c, read tally 2 "\n:A :E\n" = ⟨.ok c, 2⟩ :=
    exists_read (by decide +kernel) (by decide +kernel)
  have name : Spells instanceName ":T" := by decide +kernel
  have each : ReadEach tally 0 overlapping [a, b, c] 2 := .cons ha (.cons hb (.cons hc .nil))
  have commented : Gap "-- a\n".toList ":A :B\n  :r => :C\n".toList :=
    .line (x := " a".toList) (by decide) (.blank (by decide) (.nil (by decide +kernel)))
  have bare : Gap [] ":C :D\n  :s => :A\n    :p = 1\n".toList := .nil (by decide +kernel)
  have spaced : Gap ['\n'] ":A :E\n".toList := .of_blanks (by decide +kernel) (by decide +kernel)
  have lone : ∀ source ∈ overlapping, Lone source := List.forall_mem_cons.mpr
    ⟨lone_of_gap (by decide) commented (by decide) (by decide) (by decide), List.forall_mem_cons.mpr
      ⟨lone_of_gap (by decide) bare (by decide) (by decide) (by decide), List.forall_mem_singleton.mpr
        (lone_of_gap (by decide) spaced (by decide) (by decide) (by decide))⟩⟩
  exact ⟨a, b, c, name, each, lone, read_titled name each lone⟩

end Texts

end ContextRoles.Source
