import ContextRoles.Proofs.Source.Sealing
import ContextRoles.Source.Reading

/-! # Texts that begin further down

White space in front of a source moves all of it to lines further down. Columns stay what they are, and
of lines it only matters which ones are the same, so the source is read to the same collection, or
refused with the same error that many lines further down.
-/

namespace ContextRoles.Parsing

/-- The position in the same column, some lines further down. -/
def Position.below (p : Position) (n : Nat) : Position := ⟨p.line + n, p.column⟩

def ParseError.below (e : ParseError) (n : Nat) : ParseError := ⟨e.cause, e.position.below n⟩

namespace Position

theorem advance_below (p : Position) (n : Nat) (c : Char) :
    (p.below n).advance c = (p.advance c).below n := by
  simp only [advance, below]
  split
  · simp only [Nat.add_right_comm]
  · split <;> rfl

theorem advanceAll_below (p : Position) (n : Nat) (w : List Char) :
    (p.below n).advanceAll w = (p.advanceAll w).below n := by
  induction w generalizing p with
  | nil => rfl
  | cons c w ih => rw [advanceAll_cons, advanceAll_cons, advance_below, ih]

theorem before_below (p q : Position) (n : Nat) :
    (p.below n).before (q.below n) = p.before q := by
  rw [Bool.eq_iff_iff, before_iff, before_iff]
  simp only [below]
  omega

theorem line_advanceAll_count (p : Position) (w : List Char) :
    (p.advanceAll w).line = p.line + w.count '\n' := by
  induction w generalizing p with
  | nil => rfl
  | cons c w ih =>
    rw [advanceAll_cons, ih, List.count_cons]
    by_cases hc : c = '\n'
    · subst hc
      simp only [advance, if_true, beq_self_eq_true]
      omega
    · have hline : (p.advance c).line = p.line := by
        rw [advance, if_neg hc]
        split <;> rfl
      simp [hc, hline]

theorem advanceAll_of_ends {w : List Char} (h : w.getLast? = some '\n') (p : Position) :
    p.advanceAll w = ⟨p.line + w.count '\n', 1⟩ := by
  obtain ⟨x, rfl⟩ := List.getLast?_eq_some_iff.mp h
  rw [advanceAll_append, List.count_append, ← Nat.add_assoc, ← line_advanceAll_count]
  rfl

theorem exists_below {w : List Char} (h : w.getLast? = some '\n') (g : List Char) (p : Position) :
    ∃ n, p.advanceAll (w ++ g) = (advanceAll {} g).below n := by
  have hcount : 0 < w.count '\n' := List.count_pos_iff.mpr (List.mem_of_getLast? h)
  have hstart : (⟨p.line + w.count '\n', 1⟩ : Position) =
      below {} (p.line + w.count '\n' - 1) := by
    simp only [below, mk.injEq, and_true]
    omega
  rw [advanceAll_append, advanceAll_of_ends h, hstart]
  exact ⟨_, advanceAll_below _ _ _⟩

end Position

end ContextRoles.Parsing

namespace ContextRoles.Source

open Parsing Lexeme
open ContextRoles.Parsing.Parser hiding some

variable {c : Char} {g rest w x : List Char} {s t : State}

/-- A reading whose error lies some lines further down. -/
def Reading.below (r : Reading) (n : Nat) : Reading := ⟨r.result.mapError (·.below n), r.drawn⟩

section Skipping

theorem whiteSpace_blank (hc : Text.isBlank c = true) (hs : s.Sound) (hr : s.rest = c :: w) :
    language.whiteSpace s = language.whiteSpace (s.pass [c]) := by
  have hsplit : s.rest = (c :: w.takeWhile Text.isBlank) ++ w.dropWhile Text.isBlank := by
    rw [hr, List.cons_append, List.takeWhile_append_dropWhile]
  have all := (stretch_run hc w).whiteSpace_eq hs hsplit
  cases w with
  | nil => exact all
  | cons d w =>
    by_cases hd : Text.isBlank d = true
    · have hrest : (s.pass [c]).rest = d :: w := State.rest_pass (w := [c]) hr
      have hsplit' : (s.pass [c]).rest =
          (d :: w.takeWhile Text.isBlank) ++ w.dropWhile Text.isBlank := by
        rw [hrest, List.cons_append, List.takeWhile_append_dropWhile]
      rw [all, (stretch_run hd w).whiteSpace_eq (hs.pass (w := [c]) hr) hsplit',
        ← State.pass_append, List.takeWhile_cons_of_pos hd]
      rfl
    · rw [List.takeWhile_cons_of_neg hd] at all
      exact all

theorem Gap.whiteSpace_pass (h : Gap g []) (hg : g = [] ∨ g.getLast? = some '\n') (hs : s.Sound)
    (hr : s.rest = g ++ w) : language.whiteSpace s = language.whiteSpace (s.pass g) := by
  generalize hrest : ([] : List Char) = rest at h
  induction h using Gap.induction generalizing s with
  | nil _ => rw [State.pass_nil]
  | @blank c g rest hc _ ih =>
    have htail : g = [] ∨ g.getLast? = some '\n' := by
      cases g with
      | nil => exact .inl rfl
      | cons d g => exact .inr (by simpa using hg)
    have hpass : (s.pass [c]).rest = g ++ w := State.rest_pass (w := [c]) hr
    rw [whiteSpace_blank hc hs hr, ih htail (hs.pass (w := [c]) hr) hpass hrest, ← State.pass_append]
    rfl
  | @line x g rest hx _ ih =>
    have hr' : s.rest = ("--".toList ++ x) ++ ('\n' :: g ++ w) := by rw [hr, List.append_assoc]
    have round : language.Stretch ("--".toList ++ x) ('\n' :: g ++ w) :=
      stretch_line hx (by rintro _ ⟨⟩; rfl)
    have htail : '\n' :: g = [] ∨ ('\n' :: g).getLast? = some '\n' := by
      refine .inr ?_
      have hlast := hg.resolve_left (by simp)
      rwa [List.getLast?_append_cons] at hlast
    rw [round.whiteSpace_eq hs hr', ih htail (hs.pass hr') (State.rest_pass hr') hrest,
      ← State.pass_append]
  | @last x hx =>
    have hmem : '\n' ∈ "--".toList ++ x := List.mem_of_getLast? (hg.resolve_left (by simp))
    exact absurd hmem (by simpa using hx)
  | @comment x g rest hx _ ih =>
    subst hrest
    have hclosed := afterComment_append (z := w) hx
    simp only [List.append_nil, List.append_assoc] at hclosed
    have hr' : s.rest = ("\x7b-".toList ++ x) ++ (g ++ w) := by rw [hr, List.append_assoc]
    have htail : g = [] ∨ g.getLast? = some '\n' := by
      cases g with
      | nil => exact .inl rfl
      | cons d g =>
        have hlast := hg.resolve_left (by simp)
        rw [List.getLast?_append_cons] at hlast
        exact .inr hlast
    rw [(stretch_comment hclosed).whiteSpace_eq hs hr',
      ih htail (hs.pass hr') (State.rest_pass hr') rfl, ← State.pass_append]

end Skipping

section States

variable {n : Nat} {P : Position → Position → Prop}

def Lower (n : Nat) (e e' : ParseError) : Prop := e' = e.below n

/-- The second run is in the same place of the same text, which begins further down for it. -/
structure Shifted (n : Nat) (P : Position → Position → Prop) (s t : State) : Prop where
  sound : s.Sound
  sound' : t.Sound
  rest : t.rest = s.rest
  position : t.position = s.position.below n
  reference : P s.reference t.reference
  consumed : t.consumed = s.consumed
  drawn : t.drawn = s.drawn

theorem aligns_shifted : State.Aligns (Lower n) (Shifted n P) where
  sound _ _ h := ⟨h.sound, h.sound'⟩
  consumed _ _ h := h.consumed
  drawn _ _ h := h.drawn
  withConsumed _ _ _ h := { h with consumed := rfl }
  rewindFrom _ _ _ _ h hd := { h with drawn := hd }
  error s t cause h := by rw [h.position]; rfl

theorem Shifted.advance {k : Nat} (h : Shifted n P s t) (hk : k ≤ s.rest.length) :
    Shifted n P (s.advance k) (t.advance k) where
  sound := (State.Reaches.advance hk).sound h.sound
  sound' := (State.Reaches.advance (h.rest ▸ hk)).sound h.sound'
  rest := congrArg (List.drop k) h.rest
  position := by
    change t.position.advanceAll (t.rest.take k) = _
    rw [h.position, h.rest, Position.advanceAll_below]
    rfl
  reference := h.reference
  consumed := rfl
  drawn := h.drawn

theorem shifted_satisfy (accepts : Char → Bool) :
    Alike (Lower n) (Shifted n P) (Shifted n P) (satisfy accepts) := by
  intro s t h
  simp only [Parser.satisfy, h.rest]
  split
  · exact .failure (aligns_shifted.error _ h) h.consumed h.drawn
  next c r hr =>
    split
    · exact .success ⟨rfl, h.advance (by simp [hr])⟩
    · exact .failure (aligns_shifted.error _ h) h.consumed h.drawn

theorem shifted_char (c : Char) : Alike (Lower n) (Shifted n P) (Shifted n P) (char c) :=
  (shifted_satisfy _).label aligns_shifted aligns_shifted _

theorem Shifted.startsWith (h : Shifted n P s t) (w : List Char) : t.startsWith w = s.startsWith w := by
  rw [Bool.eq_iff_iff, State.startsWith_iff, State.startsWith_iff, h.rest]
  exact and_congr_left fun _ => iff_of_true (Nat.le.intro h.sound') (Nat.le.intro h.sound)

theorem shifted_string (expected : String) :
    Alike (Lower n) (Shifted n P) (Shifted n P) (string expected) := by
  intro s t h
  simp only [Parser.string, h.startsWith]
  split
  next hw =>
    exact .success ⟨rfl, h.advance (String.length_toList ▸ (State.startsWith_iff.mp hw).2.length_le)⟩
  · exact .failure (aligns_shifted.error _ h) h.consumed h.drawn

theorem shifted_blockComment :
    Alike (Lower n) (Shifted n P) (Shifted n P) language.blockComment := by
  intro s t h
  simp only [Language.blockComment, h.startsWith]
  split
  next hw =>
    have opened := h.advance (String.length_toList ▸ (State.startsWith_iff.mp hw).2.length_le)
    rw [opened.rest]
    split
    · exact .success ⟨rfl, opened.advance (Nat.sub_le _ _)⟩
    · have finished := opened.advance (Nat.le_refl _)
      exact .failure (aligns_shifted.error _ finished) finished.consumed finished.drawn
  · exact .failure (aligns_shifted.error _ h) h.consumed h.drawn

theorem shifted_spaces :
    Alike (Lower n) (Shifted n P) (Shifted n P) (Parser.some .space) := by
  have blank : Advancing Parser.space := (Advancing.satisfy _).label _
  have space : Alike (Lower n) (Shifted n P) (Shifted n P) Parser.space :=
    (shifted_satisfy _).label aligns_shifted aligns_shifted _
  exact space.some aligns_shifted blank.framed blank.consuming space

theorem shifted_whiteSpace : Alike (Lower n) (Shifted n P) (Shifted n P) language.whiteSpace := by
  have spaces : Alike (Lower n) (Shifted n P) (Shifted n P) (skipSome .space) :=
    shifted_spaces.result ()
  have line : Alike (Lower n) (Shifted n P) (Shifted n P) language.lineComment :=
    ((shifted_string _).attempt aligns_shifted).then_ (((shifted_satisfy _).many aligns_shifted
      (.satisfy _) (.satisfy _)).result ())
  have parts : ∀ p ∈ [skipSome .space, language.lineComment, language.blockComment],
      Alike (Lower n) (Shifted n P) (Shifted n P) p := by
    simpa using ⟨spaces, line, shifted_blockComment⟩
  have round : Alike (Lower n) (Shifted n P) (Shifted n P) language.separation :=
    (Alike.choice aligns_shifted aligns_shifted parts).label aligns_shifted aligns_shifted _
  have advancing : Advancing language.separation := language.advancing_separator
  exact (round.many aligns_shifted advancing.framed advancing.consuming).result ()

theorem quoting_shifted : Quoting (Lower n) (Shifted n P) (Shifted n P) (Shifted n P)
    (Shifted n P) where
  ahead := aligns_shifted
  inside := aligns_shifted
  within := aligns_shifted
  escaping := aligns_shifted
  opens := shifted_char _
  closes := shifted_char _
  plain _ _ := shifted_satisfy _
  backslash := shifted_char _
  code _ _ := shifted_satisfy _
  name _ _ := shifted_string _
  gap := (shifted_spaces.then_ (shifted_char _)).label aligns_shifted aligns_shifted _

abbrev Moved (n : Nat) (p q : Position) : Prop := q = p.below n

/-- Of the reference only the column is known. -/
abbrev Leveled (p q : Position) : Prop := q.column = p.column

theorem aligns_never {E : ParseError → ParseError → Prop} : State.Aligns E fun _ _ => False :=
  ⟨⟨⟨nofun, nofun, nofun, nofun⟩, nofun⟩, nofun⟩

theorem weaving_shifted (n : Nat) :
    Weaving [] (Lower n) (Shifted n (Moved n)) (Shifted n (Moved n)) (Shifted n (Moved n))
      fun _ _ => False where
  ahead := aligns_shifted
  inside := aligns_shifted
  behind := aligns_never
  enters _ _ := id
  satisfy _ _ := shifted_satisfy _
  peek accepts _ := (shifted_satisfy accepts).mono (fun _ _ => id)
    fun _ _ _ _ ha => ⟨ha.1, ha.2.drawn⟩
  string _ _ _ := shifted_string _
  minus := shifted_char _
  quoted := quoting_shifted.string
  spend _ _ _ _ _ h _ := h
  whiteSpace := shifted_whiteSpace.mono (fun _ _ => id) fun _ _ _ _ ha => ⟨ha.1, .inl ha.2⟩
  column _ _ h := by rw [h.position]; rfl
  referenceColumn _ _ h := by rw [h.reference]; rfl
  line s t h := by
    rw [h.position, h.reference]
    exact Nat.add_right_cancel_iff
  atEnd s t h := by rw [h.sound.atEnd, h.sound'.atEnd, h.rest]
  enter _ _ h := { h with reference := h.position }
  opened s t h := { h with reference := by rw [h.position, h.reference]; rfl }
  restore _ _ _ _ h h' := { h' with reference := h.reference }
  restoreBehind := nofun
  margin := nofun
  lenient := nofun
  ended := nofun
  goesOn := nofun
  move := nofun
  moveBoth := nofun

theorem lodges_shifted (n : Nat) : Lodges (Lower n) (Shifted n (Moved n)) (fun _ _ => False)
    (Shifted n Leveled) (Shifted n Leveled) where
  ahead := aligns_shifted
  after := aligns_shifted
  enter _ _ h := { h with reference := h.position }
  leave _ _ _ _ h h' := { h'.resolve_right id with reference := h.reference }

theorem shifted_sourceFile (ids : Nat → String) (n : Nat) :
    Alike (Lower n) (Shifted n Leveled) (Shifted n Leveled) (sourceFile ids) := by
  have weaving := weaving_shifted n
  have lodges := lodges_shifted n
  have hE : ∀ e₁ e₁' e₂ e₂', Lower n e₁ e₁' → Lower n e₂ e₂' →
      e₂'.position.before e₁'.position = e₂.position.before e₁.position := by
    rintro e₁ _ e₂ _ rfl rfl
    exact Position.before_below _ _ n
  have definition := weaving.definition resists_nil ids hE
  have ends : Alike (Lower n) (Shifted n Leveled) (Shifted n Leveled) endOfInput := by
    intro s t h
    have hend : t.atEnd = s.atEnd := by rw [h.sound.atEnd, h.sound'.atEnd, h.rest]
    simp only [Parser.endOfInput, hend]
    split
    · exact .success ⟨rfl, h⟩
    · exact .failure (aligns_shifted.error _ h) h.consumed h.drawn
  have indented : Alike (Lower n) (Shifted n Leveled) (Shifted n Leveled) Parser.indented := by
    intro s t h
    have hiff : t.position.column ≤ t.reference.column ↔ s.position.column ≤ s.reference.column := by
      rw [h.position, h.reference]
      rfl
    simp only [Parser.indented, hiff]
    split
    · exact .failure (aligns_shifted.error _ h) h.consumed h.drawn
    · exact .success ⟨rfl, { h with }⟩
  exact shifted_whiteSpace.then_ (((weaving.textFrom lodges rfl definition).skip ends).alt
    aligns_shifted aligns_shifted ((weaving.definitionFrom resists_nil lodges hE).skip
      (ends.alt aligns_shifted aligns_shifted (indented.then_ ends))))

end States

section Sources

variable {ids : Nat → String} {drawn : Nat} {lead source : String}

theorem gap_of_accepts (h : Accepts language.whiteSpace lead ()) : Gap lead.toList [] := by
  obtain ⟨t, ht, hrest⟩ := accepts_iff.mp h
  obtain ⟨g, hg, hgap⟩ := gap_of_whiteSpace (State.sound_start lead) ht
  rw [hrest, List.append_nil] at hg
  have hlead : lead.toList = g := hg
  rwa [hlead, ← hrest]

theorem read_append (h : Accepts language.whiteSpace lead ())
    (hend : lead.toList.getLast? = some '\n') :
    read ids drawn (lead ++ source) =
      (read ids drawn source).below (lead.toList.count '\n') := by
  let s : State := { State.start source with drawn }
  let t : State := { State.start (lead ++ source) with drawn }
  have hs : s.Sound := State.sound_start source
  have ht : t.Sound := State.sound_start (lead ++ source)
  have hrest : t.rest = lead.toList ++ source.toList := String.toList_append
  have hskip : sourceFile ids t = sourceFile ids (t.pass lead.toList) := by
    unfold sourceFile Parser.then_ Parser.bind
    rw [(gap_of_accepts h).whiteSpace_pass (.inr hend) ht hrest]
  have hne : lead.toList ≠ [] := by
    intro hnil
    simp [hnil] at hend
  have hposition : (t.pass lead.toList).position =
      Position.below {} (lead.toList.count '\n') := Position.advanceAll_of_ends hend {}
  have shifted : Shifted (lead.toList.count '\n') Leveled s
      ((t.pass lead.toList).withConsumed false) :=
    ⟨hs, ht.pass hrest, State.rest_pass hrest, hposition, rfl, rfl, rfl⟩
  have marked : sourceFile ids (t.pass lead.toList) =
      (sourceFile ids ((t.pass lead.toList).withConsumed false)).marked := by
    have flag := (built_sourceFile (E := Special ids) .freshId).accumulates Special.accumulates
    rw [← flag.marked]
    congr 1
    exact (State.marked_of_consumed (State.consumed_pass t hne)).symm
  have total : sourceFile ids s ≠ .stalled := total_sourceFile ids s hs
  have hstep : sourceFile ids { State.start (lead ++ source) with drawn } = _ := hskip.trans marked
  unfold read
  rw [hstep]
  rcases (shifted_sourceFile ids _ shifted).kinds with
    ⟨c, c', u, v, hu, hv, rfl, huv⟩ | ⟨e, e', u, v, hu, hv, rfl, -, hd⟩ | ⟨hu, -⟩
  · simp only [s] at hu
    simp only [hu, hv]
    exact congrArg (Reading.mk _) huv.drawn
  · simp only [s] at hu
    simp only [hu, hv]
    exact congrArg (Reading.mk _) hd
  · exact absurd hu total

end Sources

end ContextRoles.Source
