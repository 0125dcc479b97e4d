import ContextRoles.Proofs.Source.Following

/-! # Line ends and tabs

A text may end its lines with a carriage return and a line feed, or stand with spaces up to the next tab
stop in the place of each tab: the lines and columns of all lexemes stay the same, and a source that is
read to a collection is read to the same one.
-/

namespace ContextRoles.Source

open Parsing Lexeme
open ContextRoles.Parsing.Parser hiding some

variable {layout : Position → Char → List Char} {p : Position} {c : Char}
  {b g rest text w x : List Char} {s t : State}

section Texts

/-- The text with the characters laid out one by one, each according to where it stands. -/
def respace (layout : Position → Char → List Char) : Position → List Char → List Char
  | _, [] => []
  | p, c :: text => layout p c ++ respace layout (p.advance c) text

/-- A way to lay out line feeds and tabs that leaves every line and column in place. -/
structure Respaces (layout : Position → Char → List Char) : Prop where
  renders : ∀ p c, Renders c (layout p c)
  advances : ∀ (p : Position) c, p.advanceAll (layout p c) = p.advance c
  ends : ∀ p, ∃ b, layout p '\n' = b ++ ['\n'] ∧ '\n' ∉ b
  stays : ∀ p c, c ≠ '\n' → '\n' ∉ layout p c

theorem respace_append (p : Position) (x y : List Char) :
    respace layout p (x ++ y) = respace layout p x ++ respace layout (p.advanceAll x) y := by
  induction x generalizing p with
  | nil => rfl
  | cons c x ih => simp [respace, ih]

namespace Respaces

variable (h : Respaces layout)
include h

theorem layout_solid (hc : Text.isBlank c = false) : layout p c = [c] := by
  rcases h.renders p c with hl | ⟨hl, -⟩
  · exact hl
  · simp [isLayout_of_solid hc] at hl

theorem layout_ne_nil : layout p c ≠ [] := by
  rcases h.renders p c with hl | ⟨-, hl, -⟩
  · simp [hl]
  · exact hl

theorem advanceAll_respace (p : Position) (x : List Char) :
    p.advanceAll (respace layout p x) = p.advanceAll x := by
  induction x generalizing p with
  | nil => rfl
  | cons c x ih => rw [respace, Position.advanceAll_append, h.advances, ih, Position.advanceAll_cons]

theorem isEmpty_respace (p : Position) (x : List Char) :
    (respace layout p x).isEmpty = x.isEmpty := by
  cases x with
  | nil => rfl
  | cons c x => simp [respace, h.layout_ne_nil]

theorem respace_solid (hw : ∀ c ∈ w, Text.isBlank c = false) : respace layout p w = w := by
  induction w generalizing p with
  | nil => rfl
  | cons c w ih =>
    rw [List.forall_mem_cons] at hw
    rw [respace, h.layout_solid hw.1, ih hw.2]
    rfl

theorem prefix_respace (hw : ∀ c ∈ w, Text.isBlank c = false) :
    w <+: respace layout p text ↔ w <+: text := by
  induction w generalizing p text with
  | nil => simp
  | cons d w ih =>
    rw [List.forall_mem_cons] at hw
    cases text with
    | nil => simp [respace]
    | cons c text =>
      rcases h.renders p c with hl | ⟨hc, hne, hblank⟩
      · rw [respace, hl, List.singleton_append, List.cons_prefix_cons, List.cons_prefix_cons, ih hw.2]
      · obtain ⟨e, b, hb⟩ := List.exists_cons_of_ne_nil hne
        have hde : d ≠ e := by
          rintro rfl
          have := hblank d (by simp [hb])
          simp [hw.1] at this
        have hdc : d ≠ c := by
          rintro rfl
          simp [isLayout_of_solid hw.1] at hc
        rw [respace, hb, List.cons_append, List.cons_prefix_cons, List.cons_prefix_cons]
        exact iff_of_false (fun hp => hde hp.1) fun hp => hdc hp.1

theorem respace_of_prefix (hw : ∀ c ∈ w, Text.isBlank c = false) (hp : w <+: text) :
    respace layout p text = w ++ respace layout (p.advanceAll w) (text.drop w.length) := by
  obtain ⟨rest, rfl⟩ := hp
  rw [respace_append, h.respace_solid hw, List.drop_left]

theorem solid (hs : Solid text) : Solid (respace layout p text) := by
  obtain ⟨blank, line, comment⟩ := solid_iff.mp hs
  refine solid_iff.mpr ⟨fun c hc => ?_, mt (h.prefix_respace (solid_of_all (by decide))).mp line,
    mt (h.prefix_respace (solid_of_all (by decide))).mp comment⟩
  cases text with
  | nil => cases hc
  | cons d text =>
    have hd := blank d rfl
    rw [respace, h.layout_solid hd] at hc
    cases hc
    exact hd

end Respaces

section Comments

variable {depth : Nat}

theorem afterComment_closing :
    afterComment "\x7b-".toList "-\x7d".toList true (depth + 1) ("-\x7d".toList ++ text) =
      afterComment "\x7b-".toList "-\x7d".toList true depth text := by
  simp [afterComment]

theorem afterComment_opening :
    afterComment "\x7b-".toList "-\x7d".toList true (depth + 1) ("\x7b-".toList ++ text) =
      afterComment "\x7b-".toList "-\x7d".toList true (depth + 2) text := by
  simp [afterComment]

theorem afterComment_other (hclose : ¬ "-\x7d".toList <+: c :: text)
    (hopen : ¬ "\x7b-".toList <+: c :: text) :
    afterComment "\x7b-".toList "-\x7d".toList true (depth + 1) (c :: text) =
      afterComment "\x7b-".toList "-\x7d".toList true (depth + 1) text := by
  rw [afterComment, if_neg (by rwa [List.isPrefixOf_iff_prefix]), if_neg (by simpa using hopen)]

theorem afterComment_blanks (hb : ∀ c ∈ b, Text.isBlank c = true) :
    afterComment "\x7b-".toList "-\x7d".toList true (depth + 1) (b ++ text) =
      afterComment "\x7b-".toList "-\x7d".toList true (depth + 1) text := by
  induction b with
  | nil => rfl
  | cons c b ih =>
    rw [List.forall_mem_cons] at hb
    rw [List.cons_append, afterComment_other (not_prefix_of_ne (isBlank_ne hb.1 (by decide)))
      (not_prefix_of_ne (isBlank_ne hb.1 (by decide))), ih hb.2]

end Comments

theorem Respaces.afterComment_respace (h : Respaces layout) {depth : Nat} (p : Position)
    (hc : afterComment "\x7b-".toList "-\x7d".toList true depth text = some rest) :
    ∃ x, text = x ++ rest ∧ afterComment "\x7b-".toList "-\x7d".toList true depth
      (respace layout p text) = some (respace layout (p.advanceAll x) rest) := by
  have closing : ∀ c ∈ "-\x7d".toList, Text.isBlank c = false := solid_of_all (by decide)
  have opening : ∀ c ∈ "\x7b-".toList, Text.isBlank c = false := solid_of_all (by decide)
  induction depth, text using afterComment.induct "\x7b-".toList "-\x7d".toList true
    generalizing p with
  | case1 text =>
    rw [afterComment] at hc
    cases hc
    exact ⟨[], rfl, by rw [afterComment]; rfl⟩
  | case2 depth => simp [afterComment] at hc
  | case3 depth c text hclose ih =>
    rw [afterComment, if_pos hclose] at hc
    have hprefix := List.isPrefixOf_iff_prefix.mp hclose
    obtain ⟨x, hx, hafter⟩ := ih (p.advanceAll "-\x7d".toList) hc
    refine ⟨"-\x7d".toList ++ x, ?_, ?_⟩
    · rw [List.append_assoc, ← hx, List.prefix_iff_eq_append.mp hprefix]
    · rw [h.respace_of_prefix closing hprefix, afterComment_closing, hafter,
        Position.advanceAll_append]
  | case4 depth c text hclose hopen ih =>
    rw [afterComment, if_neg hclose, if_pos hopen] at hc
    have hprefix : "\x7b-".toList <+: c :: text := List.isPrefixOf_iff_prefix.mp (by simpa using hopen)
    obtain ⟨x, hx, hafter⟩ := ih (p.advanceAll "\x7b-".toList) hc
    refine ⟨"\x7b-".toList ++ x, ?_, ?_⟩
    · rw [List.append_assoc, ← hx, List.prefix_iff_eq_append.mp hprefix]
    · rw [h.respace_of_prefix opening hprefix, afterComment_opening, hafter,
        Position.advanceAll_append]
  | case5 depth c text hclose hopen ih =>
    rw [afterComment, if_neg hclose, if_neg hopen] at hc
    obtain ⟨x, rfl, hafter⟩ := ih (p.advance c) hc
    refine ⟨c :: x, rfl, ?_⟩
    rw [Position.advanceAll_cons, ← hafter, respace]
    have hclose' := (mt (h.prefix_respace (p := p) closing).mp
      (mt List.isPrefixOf_iff_prefix.mpr hclose))
    have hopen' := (mt (h.prefix_respace (p := p) opening).mp
      (show ¬ "\x7b-".toList <+: c :: (x ++ rest) by simpa using hopen))
    rw [respace] at hclose' hopen'
    rcases h.renders p c with hl | ⟨-, -, hblank⟩
    · rw [hl] at hclose' hopen' ⊢
      exact afterComment_other hclose' hopen'
    · exact afterComment_blanks hblank

theorem Gap.blanks_append (hb : ∀ c ∈ b, Text.isBlank c = true) (h : Gap g rest) :
    Gap (b ++ g) rest := by
  induction b with
  | nil => exact h
  | cons c b ih =>
    rw [List.forall_mem_cons] at hb
    exact .blank hb.1 (ih hb.2)

theorem Gap.blank_tail (hc : Text.isBlank c = true) (h : Gap (c :: g) rest) : Gap g rest := by
  generalize hw : c :: g = w at h
  induction h using Gap.induction with
  | nil => cases hw
  | blank _ h _ =>
    cases hw
    exact h
  | line => 
    obtain ⟨rfl, -⟩ := List.cons_eq_cons.mp hw
    exact absurd hc (by decide)
  | last =>
    obtain ⟨rfl, -⟩ := List.cons_eq_cons.mp hw
    exact absurd hc (by decide)
  | comment =>
    obtain ⟨rfl, -⟩ := List.cons_eq_cons.mp hw
    exact absurd hc (by decide)

theorem Gap.blanks_tail (hb : ∀ c ∈ b, Text.isBlank c = true) (h : Gap (b ++ g) rest) :
    Gap g rest := by
  induction b with
  | nil => exact h
  | cons c b ih =>
    rw [List.forall_mem_cons] at hb
    exact ih hb.2 (h.blank_tail hb.1)

theorem Respaces.notMem (h : Respaces layout) (hx : '\n' ∉ x) (p : Position) :
    '\n' ∉ respace layout p x := by
  induction x generalizing p with
  | nil => simp [respace]
  | cons c x ih =>
    rw [List.mem_cons, not_or] at hx
    rw [respace, List.mem_append, not_or]
    exact ⟨h.stays p c (Ne.symm hx.1), ih hx.2 _⟩

theorem Respaces.gap (h : Respaces layout) (hg : Gap g rest) (p : Position) :
    Gap (respace layout p g) (respace layout (p.advanceAll g) rest) := by
  have mark : ∀ c ∈ "--".toList, Text.isBlank c = false := solid_of_all (by decide)
  have opening : ∀ c ∈ "\x7b-".toList, Text.isBlank c = false := solid_of_all (by decide)
  induction hg using Gap.induction generalizing p with
  | nil hs => exact .nil (h.solid hs)
  | @blank c g rest hc _ ih =>
    exact .blanks_append ((h.renders p c).blank hc).2 (ih (p.advance c))
  | @line x g rest hx _ ih =>
    obtain ⟨b, hb, hnot⟩ := h.ends ((p.advanceAll "--".toList).advanceAll x)
    have hgap := ih ((p.advanceAll "--".toList).advanceAll x)
    have hblank := ((h.renders ((p.advanceAll "--".toList).advanceAll x) '\n').blank rfl).2
    rw [hb] at hblank
    rw [respace, hb, List.append_assoc, List.singleton_append] at hgap
    have hline := hgap.blanks_tail fun c hc => hblank c (List.mem_append_left _ hc)
    have hnot' : '\n' ∉ respace layout (p.advanceAll "--".toList) x ++ b := by
      rw [List.mem_append, not_or]
      exact ⟨h.notMem hx _, hnot⟩
    rw [respace_append, respace_append, h.respace_solid mark, respace, Position.advanceAll_append,
      hb, Position.advanceAll_append]
    simpa only [List.append_assoc, List.singleton_append, List.cons_append, List.nil_append,
      Position.advanceAll_append] using Gap.line hnot' hline
  | @last x hx =>
    rw [respace_append, h.respace_solid mark]
    exact .last (h.notMem hx _)
  | @comment x g rest hx _ ih =>
    obtain ⟨x', hx', hafter⟩ := h.afterComment_respace (p.advanceAll "\x7b-".toList) hx
    obtain rfl := List.append_cancel_right hx'
    have hgap := ih ((p.advanceAll "\x7b-".toList).advanceAll x)
    rw [respace_append, respace_append, h.respace_solid opening, Position.advanceAll_append,
      Position.advanceAll_append]
    refine .comment ?_ hgap
    rwa [respace_append, respace_append] at hafter

end Texts

section States

/-- The second run reads the text of the first one in another layout, and stands at the same place. -/
structure Respaced (layout : Position → Char → List Char) (s t : State) : Prop where
  sound : s.Sound
  sound' : t.Sound
  rest : t.rest = respace layout s.position s.rest
  position : t.position = s.position
  reference : t.reference = s.reference
  consumed : t.consumed = s.consumed
  drawn : t.drawn = s.drawn

theorem Respaced.pass (h : Respaced layout s t) (hl : Respaces layout) (hw : s.rest = w ++ rest) :
    t.rest = respace layout s.position w ++ respace layout (s.position.advanceAll w) rest ∧
      Respaced layout (s.pass w) (t.pass (respace layout s.position w)) := by
  have hrest : t.rest = respace layout s.position w ++
      respace layout (s.position.advanceAll w) rest := by rw [h.rest, hw, respace_append]
  refine ⟨hrest, h.sound.pass hw, h.sound'.pass hrest, ?_, ?_, h.reference, ?_, h.drawn⟩
  · rw [State.rest_pass hrest, State.rest_pass hw, State.position_pass]
  · rw [State.position_pass, State.position_pass, h.position, hl.advanceAll_respace]
  · simp only [State.pass, h.consumed, hl.isEmpty_respace]

theorem Respaces.follows (hl : Respaces layout) : Follows (Respaced layout) where
  sound _ _ h := ⟨h.sound, h.sound'⟩
  consumed _ _ h := h.consumed
  drawn _ _ h := h.drawn
  withConsumed _ _ _ h := ⟨h.sound, h.sound', h.rest, h.position, h.reference, rfl, h.drawn⟩
  rewindFrom _ _ _ _ h hd := ⟨h.sound, h.sound', h.rest, h.position, h.reference, h.consumed, hd⟩
  step s t c r h hr _ := by
    obtain ⟨hrest, hpass⟩ := h.pass hl (w := [c]) hr
    rw [respace, respace, List.append_nil] at hrest hpass
    exact ⟨_, _, hrest, hl.renders _ c, hpass⟩
  stops s t h hs := by
    rw [h.rest]
    cases hr : s.rest with
    | nil => nofun
    | cons c r =>
      have hc := isBlank_of_isLayout (hs c (by simp [hr]))
      obtain ⟨hne, hblank⟩ := (hl.renders s.position c).blank hc
      obtain ⟨d, b, hb⟩ := List.exists_cons_of_ne_nil hne
      rw [respace, hb]
      rintro _ ⟨⟩
      exact hblank d (by simp [hb])

/-- White space is skipped on both sides, for it does not end inside of a comment. -/
theorem Respaces.whiteSpace (hl : Respaces layout) :
    Alike AnyErrors (Along (Respaced layout) Sealed)
      (Along (Respaced layout) fun w => Sealed w ∧ Solid w) language.whiteSpace := by
  rintro s t ⟨hst, hsealed⟩
  obtain ⟨g, rest, hg, hgap, hrest⟩ := hsealed.exists_gap
  obtain ⟨ht, hpass⟩ := hst.pass hl hg
  rw [hgap.reads s hst.sound hg trivial, (hl.gap hgap s.position).reads t hst.sound' ht trivial]
  refine .success ⟨rfl, hpass, ?_⟩
  rw [State.rest_pass hg]
  exact ⟨hrest, hgap.solid⟩

theorem Respaces.weaving (hl : Respaces layout) :
    Weaving [] AnyErrors (Along (Respaced layout) fun w => Sealed w ∧ Solid w)
      (Along (Respaced layout) Sealed) (Along (Respaced layout) Sealed) fun _ _ => False where
  ahead := aligns_along hl.follows.toFree
  inside := aligns_along hl.follows.toFree
  behind := ⟨⟨⟨nofun, nofun, nofun, nofun⟩, nofun⟩, nofun⟩
  enters _ _ hst := ⟨hst.1, hst.2.1⟩
  satisfy _ ha := hl.follows.bare ha
  peek _ ha := hl.follows.peek ha
  string _ hne ha := hl.follows.literal hne ha
  minus := hl.follows.minus
  quoted := hl.follows.quoting.string.start fun _ _ hst => ⟨hst.1, hst.2.1⟩
  spend _ _ _ _ _ huv _ := huv
  whiteSpace := hl.whiteSpace.mono (fun _ _ => id) fun _ _ _ _ ha => ⟨ha.1, .inl ha.2⟩
  column _ _ hst := by rw [hst.1.position]
  referenceColumn _ _ hst := by rw [hst.1.reference]
  line _ _ hst := by rw [hst.1.position, hst.1.reference]
  atEnd s t hst := by rw [hst.1.sound.atEnd, hst.1.sound'.atEnd, hst.1.rest, hl.isEmpty_respace]
  enter _ _ hst := ⟨{ hst.1 with reference := hst.1.position }, hst.2⟩
  opened _ _ hst :=
    ⟨{ hst.1 with reference := by rw [hst.1.position, hst.1.reference]; rfl }, hst.2⟩
  restore _ _ _ _ hst huv := ⟨{ huv.1 with reference := hst.1.reference }, huv.2⟩
  restoreBehind := nofun
  margin := nofun
  lenient := nofun
  ended := nofun
  goesOn := nofun
  move := nofun
  moveBoth := nofun

end States

section Sources

variable {ids : Nat → String} {drawn : Nat} {source : String} {collection : Collection}

theorem Respaces.read_eq (hl : Respaces layout)
    (h : (read ids drawn source).result = .ok collection) :
    read ids drawn (String.ofList (respace layout {} source.toList)) = read ids drawn source := by
  have started : Respaced layout { State.start source with drawn }
      { State.start (String.ofList (respace layout {} source.toList)) with drawn } :=
    ⟨State.sound_start source, State.sound_start _, String.toList_ofList .., rfl, rfl, rfl, rfl⟩
  refine hl.weaving.read_eq h fun hsealed => ?_
  exact ⟨started, hsealed⟩

/-- The first column right of another one that is one more than a multiple of the width of a tab. -/
def tabStop (column : Nat) : Nat := (column + (tabWidth - 1)) / tabWidth * tabWidth + 1

/-- The spaces that reach the next tab stop in the place of a tab. -/
def spaced (p : Position) (c : Char) : List Char :=
  if c = '\t' then List.replicate (tabStop p.column - p.column) ' ' else [c]

/-- The text with spaces in the place of its tabs. -/
def expandTabs (source : String) : String := String.ofList (respace spaced {} source.toList)

theorem tabStop_least (column : Nat) : column < tabStop column ∧ tabStop column % tabWidth = 1 ∧
    ∀ k, column < k → k % tabWidth = 1 → tabStop column ≤ k := by
  simp only [tabStop, tabWidth]
  refine ⟨by omega, by omega, fun k hlt hk => by omega⟩

theorem advance_tab (p : Position) : p.advance '\t' = ⟨p.line, tabStop p.column⟩ := by
  have hcolumn : p.column + tabWidth - (p.column + (tabWidth - 1)) % tabWidth =
      tabStop p.column := by
    simp only [tabStop, tabWidth]
    omega
  rw [← hcolumn]
  rfl

theorem advanceAll_spaces (p : Position) (n : Nat) :
    p.advanceAll (List.replicate n ' ') = ⟨p.line, p.column + n⟩ := by
  induction n generalizing p with
  | zero => rfl
  | succ n ih =>
    rw [List.replicate_succ, Position.advanceAll_cons, ih]
    simp [Position.advance, Nat.add_comm, Nat.add_left_comm]

theorem respaces_spaced : Respaces spaced where
  renders p c := by
    by_cases hc : c = '\t'
    · have hlt := (tabStop_least p.column).1
      refine .inr ⟨by simp [isLayout, hc], ?_, ?_⟩
      · simp only [spaced, if_pos hc, ne_eq, List.replicate_eq_nil_iff]
        omega
      · intro d hd
        rw [spaced, if_pos hc] at hd
        rw [List.eq_of_mem_replicate hd]
        decide
    · exact .inl (if_neg hc)
  advances p c := by
    by_cases hc : c = '\t'
    · have hlt := (tabStop_least p.column).1
      rw [spaced, if_pos hc, advanceAll_spaces, hc, advance_tab]
      congr 1
      omega
    · rw [spaced, if_neg hc]
      rfl
  ends p := ⟨[], rfl, by simp⟩
  stays p c hc := by
    unfold spaced
    split
    · simp
    · simpa using Ne.symm hc

def returned (c : Char) : List Char := if c = '\n' then ['\r', '\n'] else [c]

/-- The text with a carriage return in front of each line feed. -/
def withReturns (source : String) : String := String.ofList (source.toList.flatMap returned)

theorem respaces_returned : Respaces fun _ => returned where
  renders p c := by
    by_cases hc : c = '\n'
    · subst hc
      exact .inr ⟨by decide, by decide, List.all_eq_true.mp (by decide)⟩
    · exact .inl (if_neg hc)
  advances p c := by
    by_cases hc : c = '\n'
    · subst hc
      rfl
    · rw [returned, if_neg hc]
      rfl
  ends p := ⟨['\r'], rfl, by simp⟩
  stays p c hc := by
    simpa [returned, hc] using Ne.symm hc

theorem respace_returned (p : Position) (text : List Char) :
    respace (fun _ => returned) p text = text.flatMap returned := by
  induction text generalizing p with
  | nil => rfl
  | cons c text ih => rw [respace, ih, List.flatMap_cons]

/-- A source that is read to a collection is read to the same one when its lines end with a carriage
return and a line feed, and when its tabs are replaced by the spaces that reach the next tab stops. -/
theorem read_respaced (h : (read ids drawn source).result = .ok collection) :
    read ids drawn (withReturns source) = read ids drawn source ∧
      read ids drawn (expandTabs source) = read ids drawn source := by
  refine ⟨?_, respaces_spaced.read_eq h⟩
  have hl := respaces_returned.read_eq h
  rwa [respace_returned] at hl

def tabbed : String :=
  "-- a\tline\n:doos :A\n\tpublic :b\t= \"x\\\t\n\t\\y\"\n\t:r => :kist\t\x7b-\t-\x7d\n"

def tabbedContext : Collection where
  name := "doos"
  entities := .ofList [
    ("-", .role ⟨"-", ":r", some "kist", "doos", .empty, .empty, none⟩),
    ("doos_buitenRol", .role ⟨"doos_buitenRol", "model:Perspectives#BuitenRol", none, "doos",
      .ofList [(":b", ["xy"])], .empty, none⟩),
    ("doos", .context
      { id := "doos", typeName := ":A", outerRole := "doos_buitenRol", roles := ["-"],
        innerRole := ⟨"doos_binnenRol", some "doos_buitenRol", .empty⟩ })]

theorem read_tabbed : (read tally 0 tabbed).result.toOption = some tabbedContext := by
  decide +kernel

theorem read_respaced_tabbed :
    (read tally 0 tabbed).result = .ok tabbedContext ∧
      withReturns tabbed = "-- a\tline\r\n:doos :A\r\n\tpublic :b\t= \"x\\\t\r\n\t\\y\"\r\n" ++
        "\t:r => :kist\t\x7b-\t-\x7d\r\n" ∧
      expandTabs tabbed = "-- a    line\n:doos :A\n        public :b       = \"x\\   \n" ++
        "        \\y\"\n        :r => :kist     \x7b-      -\x7d\n" ∧
      read tally 0 (withReturns tabbed) = read tally 0 tabbed ∧
      read tally 0 (expandTabs tabbed) = read tally 0 tabbed := by
  have hr := result_eq_ok read_tabbed
  exact ⟨hr, by decide +kernel, by decide +kernel, read_respaced hr⟩

end Sources

end ContextRoles.Source
