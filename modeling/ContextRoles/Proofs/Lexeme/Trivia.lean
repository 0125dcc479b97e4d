import ContextRoles.Proofs.Lexeme.Totality
import ContextRoles.Proofs.Parsing.Accumulation
import ContextRoles.Proofs.Parsing.Reading

/-! # What white space takes

Between two lexemes stand blanks, comments to the end of a line and comments between delimiters, in
any order. White space takes all of them, whatever the delimiters of the language are, and fails only in
a comment that is never closed.
-/

namespace ContextRoles.Lexeme.Language

open Parsing
open ContextRoles.Parsing.Parser hiding some

variable {lang : Language} {depth : Nat} {c : Char} {b v w x rest text : List Char} {s : State}

section Relations

variable (lang)

/-- The first text is what is left of a comment with so many levels open, up to the delimiter that closes
the last of them. In front of each character the closing delimiter is looked for before the opening one,
which counts only where comments nest. Where the text ends nothing is closed any more. -/
inductive Encloses : Nat → List Char → List Char → Prop where
  | closed {rest : List Char} : Encloses 0 [] rest
  | closing {depth : Nat} {x rest : List Char} : lang.commentEnd.toList ++ (x ++ rest) ≠ [] →
      Encloses depth x rest → Encloses (depth + 1) (lang.commentEnd.toList ++ x) rest
  | opening {depth : Nat} {x rest : List Char} : lang.nestedComments = true →
      ¬ lang.commentEnd.toList <+: lang.commentStart.toList ++ (x ++ rest) →
      Encloses (depth + 2) x rest → Encloses (depth + 1) (lang.commentStart.toList ++ x) rest
  | inner {depth : Nat} {c : Char} {x rest : List Char} :
      ¬ lang.commentEnd.toList <+: c :: (x ++ rest) →
      ¬ (lang.nestedComments = true ∧ lang.commentStart.toList <+: c :: (x ++ rest)) →
      Encloses (depth + 1) x rest → Encloses (depth + 1) (c :: x) rest

/-- The text begins with a comment to the end of the line. -/
structure OpensLine (text : List Char) : Prop where
  enabled : lang.commentLine ≠ ""
  blank : ∀ c ∈ text.head?, Text.isBlank c = false
  mark : lang.commentLine.toList <+: text

/-- The text begins with a comment between delimiters. -/
structure OpensBlock (text : List Char) : Prop where
  enabled : lang.commentStart ≠ ""
  blank : ∀ c ∈ text.head?, Text.isBlank c = false
  line : ¬ lang.OpensLine text
  mark : lang.commentStart.toList <+: text

/-- The text begins with neither a blank nor a comment. -/
structure Solid (text : List Char) : Prop where
  blank : ∀ c ∈ text.head?, Text.isBlank c = false
  line : ¬ lang.OpensLine text
  block : ¬ lang.OpensBlock text

/-- The first text is a run of blanks or one comment in front of the second text. -/
inductive Stretch : List Char → List Char → Prop where
  | blanks {b rest : List Char} : b ≠ [] → (∀ c ∈ b, Text.isBlank c = true) →
      (∀ c ∈ rest.head?, Text.isBlank c = false) → Stretch b rest
  | line {x rest : List Char} : lang.OpensLine (lang.commentLine.toList ++ (x ++ rest)) →
      '\n' ∉ x → (∀ c ∈ rest.head?, c = '\n') → Stretch (lang.commentLine.toList ++ x) rest
  | block {x rest : List Char} : lang.OpensBlock (lang.commentStart.toList ++ (x ++ rest)) →
      lang.Encloses 1 x rest → Stretch (lang.commentStart.toList ++ x) rest

/-- Stretches one after the other. -/
inductive Stretches : List Char → List Char → Prop where
  | nil {rest : List Char} : Stretches [] rest
  | cons {v w rest : List Char} : lang.Stretch v (w ++ rest) → Stretches w rest →
      Stretches (v ++ w) rest

/-- The first text is all that is blank or comment in front of the second one. -/
structure Trivia (w rest : List Char) : Prop where
  stretches : lang.Stretches w rest
  solid : lang.Solid rest

/-- The text is a comment between delimiters that is never closed. -/
structure Open (text : List Char) : Prop where
  opens : lang.OpensBlock text
  endless : ∀ x rest, text = lang.commentStart.toList ++ (x ++ rest) → ¬ lang.Encloses 1 x rest

/-- Behind some stretches the text goes on with a comment that is never closed. -/
def Unclosed (text : List Char) : Prop :=
  ∃ w rest, text = w ++ rest ∧ lang.Stretches w rest ∧ lang.Open rest

end Relations

section Comments

theorem opening_ne_nil (h : lang.commentStart ≠ "") : lang.commentStart.toList ≠ [] := by
  simpa using h

theorem solid_nil (lang : Language) : lang.Solid [] where
  blank := nofun
  line h := h.enabled (by simpa using h.mark)
  block h := h.enabled (by simpa using h.mark)

theorem Encloses.afterComment_eq (h : lang.commentStart ≠ "") (hx : lang.Encloses depth x rest) :
    afterComment lang.commentStart.toList lang.commentEnd.toList lang.nestedComments depth
      (x ++ rest) = some rest := by
  induction hx with
  | closed => rw [List.nil_append, afterComment]
  | @closing depth x rest hne _ ih =>
    rw [List.append_assoc]
    obtain ⟨c, text, hc⟩ := List.exists_cons_of_ne_nil hne
    have hmark : lang.commentEnd.toList.isPrefixOf (c :: text) = true := by
      rw [← hc, List.isPrefixOf_iff_prefix]
      exact List.prefix_append _ _
    rw [hc, afterComment, if_pos hmark, ← hc, List.drop_left]
    exact ih
  | @opening depth x rest hn hnot _ ih =>
    rw [List.append_assoc]
    obtain ⟨c, text, hc⟩ := List.exists_cons_of_ne_nil
      (List.append_ne_nil_of_left_ne_nil (opening_ne_nil h) (x ++ rest))
    rw [hc] at hnot
    have hclose : ¬ lang.commentEnd.toList.isPrefixOf (c :: text) = true := by
      rwa [List.isPrefixOf_iff_prefix]
    have hopen : (lang.nestedComments && !lang.commentStart.toList.isEmpty &&
        lang.commentStart.toList.isPrefixOf (c :: text)) = true := by
      rw [← hc]
      simp [hn, h]
    rw [hc, afterComment, if_neg hclose, if_pos hopen, ← hc, List.drop_left]
    exact ih
  | @inner depth c x rest hclose hopen _ ih =>
    rw [List.cons_append, afterComment, if_neg (by rwa [List.isPrefixOf_iff_prefix]), if_neg]
    · exact ih
    · simp only [Bool.and_eq_true, List.isPrefixOf_iff_prefix, not_and] at hopen ⊢
      exact fun hn => hopen hn.1

theorem encloses_of_afterComment (h : lang.commentStart ≠ "")
    (hr : afterComment lang.commentStart.toList lang.commentEnd.toList lang.nestedComments depth
      text = some rest) : ∃ x, text = x ++ rest ∧ lang.Encloses depth x rest := by
  induction depth, text using afterComment.induct lang.commentStart.toList lang.commentEnd.toList
    lang.nestedComments with
  | case1 text =>
    rw [afterComment, Option.some.injEq] at hr
    exact ⟨[], hr, .closed⟩
  | case2 depth => simp [afterComment] at hr
  | case3 depth c text hclose ih =>
    rw [afterComment, if_pos hclose] at hr
    obtain ⟨x, hx, hencloses⟩ := ih hr
    obtain ⟨r, hmark⟩ := List.isPrefixOf_iff_prefix.mp hclose
    rw [← hmark, List.drop_left] at hx
    subst hx
    refine ⟨_, by rw [← hmark, List.append_assoc], .closing ?_ hencloses⟩
    rw [hmark]
    exact List.cons_ne_nil c text
  | case4 depth c text hclose hopen ih =>
    rw [afterComment, if_neg hclose, if_pos hopen] at hr
    obtain ⟨x, hx, hencloses⟩ := ih hr
    simp only [Bool.and_eq_true] at hopen
    obtain ⟨r, hmark⟩ := List.isPrefixOf_iff_prefix.mp hopen.2
    rw [← hmark, List.drop_left] at hx
    subst hx
    refine ⟨_, by rw [← hmark, List.append_assoc], .opening hopen.1.1 ?_ hencloses⟩
    rwa [hmark, ← List.isPrefixOf_iff_prefix]
  | case5 depth c text hclose hopen ih =>
    rw [afterComment, if_neg hclose, if_neg hopen] at hr
    obtain ⟨x, rfl, hencloses⟩ := ih hr
    refine ⟨c :: x, rfl, .inner (by rwa [← List.isPrefixOf_iff_prefix]) ?_ hencloses⟩
    rintro ⟨hnested, hmark⟩
    rw [← List.isPrefixOf_iff_prefix] at hmark
    simp [hnested, hmark, h] at hopen

theorem afterComment_eq_none (h : lang.commentStart ≠ "")
    (hx : ∀ x rest, text = x ++ rest → ¬ lang.Encloses depth x rest) :
    afterComment lang.commentStart.toList lang.commentEnd.toList lang.nestedComments depth text =
      none := by
  rw [Option.eq_none_iff_forall_ne_some]
  intro rest hr
  obtain ⟨x, htext, hencloses⟩ := encloses_of_afterComment h hr
  exact hx x rest htext hencloses

end Comments

section Rounds

def separation (lang : Language) : Parser Unit :=
  label (choice (skipSome space ::
    ((if lang.commentLine.isEmpty then [] else [lang.lineComment]) ++
      (if lang.commentStart.isEmpty then [] else [lang.blockComment])))) "whitespace"

theorem reads_blanks (hb : b ≠ []) (hall : ∀ c ∈ b, Text.isBlank c = true)
    (h : ∀ c ∈ rest.head?, Text.isBlank c = false) : Reads (skipSome space) b rest () := by
  obtain ⟨c, b, rfl⟩ := List.exists_cons_of_ne_nil hb
  rw [List.forall_mem_cons] at hall
  have stop : Refuses space rest := (Refuses.satisfy h).label _
  exact (Reads.some_chars hall.1 hall.2 (fun c rest hc => (Reads.satisfy hc).label "space")
    stop).map _

theorem reads_lineComment (hn : lang.commentLine ≠ "") (hx : '\n' ∉ x)
    (h : ∀ c ∈ rest.head?, c = '\n') :
    Reads lang.lineComment (lang.commentLine.toList ++ x) rest () := by
  have mark : Reads (attempt (string lang.commentLine)) lang.commentLine.toList (x ++ rest)
      lang.commentLine := (Reads.string hn).attempt
  have ending : Refuses (satisfy (· != '\n')) rest := by
    refine .satisfy fun c hc => ?_
    rw [h c hc]
    rfl
  refine mark.then_ ((Reads.many_chars (f := id) (fun c hc => ?_)
    (fun c rest hc => Reads.satisfy hc) ending).map _)
  rw [bne_iff_ne]
  rintro rfl
  exact hx hc

theorem blockComment_opened (hn : lang.commentStart ≠ "") (hs : s.Sound)
    (hr : s.rest = lang.commentStart.toList ++ text) :
    lang.blockComment s =
      match afterComment lang.commentStart.toList lang.commentEnd.toList lang.nestedComments 1
          text with
      | some rest => .success () ((s.pass lang.commentStart.toList).advance
          (text.length - rest.length))
      | none =>
        let finished := (s.pass lang.commentStart.toList).advance text.length
        .failure ⟨.expected "end of comment", finished.position⟩ finished := by
  have hstart : s.startsWith lang.commentStart.toList = true := by
    rw [State.startsWith_iff, hr]
    exact ⟨Nat.le.intro hs, List.prefix_append _ _⟩
  have hopen : s.advance lang.commentStart.length = s.pass lang.commentStart.toList := by
    rw [← String.length_toList]
    exact State.advance_eq_pass (opening_ne_nil hn) hr
  rw [Language.blockComment, if_pos hstart]
  cases h : afterComment lang.commentStart.toList lang.commentEnd.toList lang.nestedComments 1 text <;>
    simp only [hopen, State.rest_pass hr, h]

theorem reads_blockComment (hn : lang.commentStart ≠ "") (h : lang.Encloses 1 x rest) :
    Reads lang.blockComment (lang.commentStart.toList ++ x) rest () := by
  intro s hs hr _
  rw [List.append_assoc] at hr
  rw [blockComment_opened hn hs hr, h.afterComment_eq hn]
  simp only [List.length_append, Nat.add_sub_cancel, State.advance_pass (opening_ne_nil hn) hr]

theorem Open.ne_nil (h : lang.Open text) : text ≠ [] := by
  obtain ⟨r, hmark⟩ := h.opens.mark
  rw [← hmark]
  exact List.append_ne_nil_of_left_ne_nil (opening_ne_nil h.opens.enabled) r

theorem Open.consumed_pass (h : lang.Open text) (s : State) : (s.pass text).consumed = true :=
  s.consumed_pass h.ne_nil

theorem blockComment_open (h : lang.Open s.rest) (hs : s.Sound) :
    lang.blockComment s =
      .failure ⟨.expected "end of comment", s.position.advanceAll s.rest⟩ (s.pass s.rest) := by
  have hn := h.opens.enabled
  obtain ⟨text, hmark⟩ := h.opens.mark
  have hnone : afterComment lang.commentStart.toList lang.commentEnd.toList lang.nestedComments 1
      text = none :=
    afterComment_eq_none hn fun x rest hx => h.endless x rest (by rw [← hmark, hx])
  have hr : s.rest = lang.commentStart.toList ++ (text ++ []) := by rw [List.append_nil, hmark]
  rw [blockComment_opened hn hs hmark.symm, hnone]
  simp only [State.advance_pass (opening_ne_nil hn) hr, hmark, State.position_pass]

theorem refusesAt_blanks (h : ∀ c ∈ s.rest.head?, Text.isBlank c = false) :
    RefusesAt (skipSome space) s :=
  ((RefusesAt.satisfy (s := s.checkpoint) h).label _).bind.map _

theorem refusesAt_lineComment (h : ¬ lang.commentLine.toList <+: s.rest) :
    RefusesAt lang.lineComment s := (RefusesAt.attempt (RefusesAt.string h).failsAt).bind

theorem refusesAt_blockComment (h : ¬ lang.commentStart.toList <+: s.rest) :
    RefusesAt lang.blockComment s :=
  ⟨_, s, if_neg fun hstart => h (State.startsWith_iff.mp hstart).2, rfl, rfl⟩

theorem refusesAt_before (h : ∀ c ∈ s.rest.head?, Text.isBlank c = false)
    (hl : ¬ lang.OpensLine s.rest) :
    ∀ p ∈ skipSome space :: (if lang.commentLine.isEmpty then [] else [lang.lineComment]),
      RefusesAt p s := by
  rw [List.forall_mem_cons]
  refine ⟨refusesAt_blanks h, fun p hp => ?_⟩
  split at hp
  · cases hp
  next hn =>
    obtain rfl := List.mem_singleton.mp hp
    exact refusesAt_lineComment fun hmark => hl ⟨by simpa using hn, h, hmark⟩

theorem refuses_before (h : ∀ c ∈ text.head?, Text.isBlank c = false) (hl : ¬ lang.OpensLine text) :
    ∀ p ∈ skipSome space :: (if lang.commentLine.isEmpty then [] else [lang.lineComment]),
      Refuses p text := by
  rintro p hp s - rfl
  exact refusesAt_before h hl p hp

theorem Solid.refusesAt (h : lang.Solid s.rest) : RefusesAt lang.separation s := by
  refine RefusesAt.label (.choice fun p hp => ?_) _
  rw [← List.cons_append, List.mem_append] at hp
  rcases hp with hp | hp
  · exact refusesAt_before (s := s.checkpoint) h.blank h.line p hp
  · split at hp
    · cases hp
    next hn =>
      obtain rfl := List.mem_singleton.mp hp
      exact refusesAt_blockComment (s := s.checkpoint) fun hmark =>
        h.block ⟨by simpa using hn, h.blank, h.line, hmark⟩

theorem Stretch.ne_nil (h : lang.Stretch v rest) : v ≠ [] := by
  cases h with
  | blanks hb => exact hb
  | line hopens =>
    have := hopens.enabled
    simp [this]
  | block hopens =>
    have := hopens.enabled
    simp [this]

theorem Stretch.reads (h : lang.Stretch v rest) : Reads lang.separation v rest () := by
  refine Reads.label ?_ _
  cases h with
  | blanks hb hall hstop => exact .choice (l := []) nofun (reads_blanks hb hall hstop)
  | @line x _ hopens hx hstop =>
    have before : Refuses (skipSome space) (lang.commentLine.toList ++ x ++ rest) :=
      fun s _ hr => refusesAt_blanks (by rw [hr, List.append_assoc]; exact hopens.blank)
    have hread := reads_lineComment hopens.enabled hx hstop
    rw [if_neg (by simpa using hopens.enabled)]
    exact .choice (l := [skipSome space]) (by simpa using before) hread
  | @block x _ hopens hx =>
    have before := refuses_before hopens.blank hopens.line
    rw [← List.append_assoc] at before
    have hn : ¬ lang.commentStart.isEmpty = true := by simpa using hopens.enabled
    rw [if_neg hn, ← List.cons_append]
    exact .choice before (reads_blockComment hopens.enabled hx)

theorem Open.rejects (h : lang.Open text) :
    Rejects (.expected "end of comment") lang.separation text [] := by
  have hn : ¬ lang.commentStart.isEmpty = true := by simpa using h.opens.enabled
  have hblock : Rejects (.expected "end of comment") lang.blockComment text [] := by
    intro s hs hr
    obtain rfl : s.rest = text := hr.trans (List.append_nil text)
    exact ⟨blockComment_open h hs, h.consumed_pass s⟩
  rw [separation, if_neg hn, ← List.cons_append]
  refine (Rejects.choice ?_ hblock).label _
  rw [List.append_nil]
  exact refuses_before h.opens.blank h.opens.line

end Rounds

section Cases

theorem solid_or_stretch_or_open (lang : Language) (text : List Char) : lang.Solid text ∨
    (∃ v rest, text = v ++ rest ∧ lang.Stretch v rest) ∨ lang.Open text := by
  by_cases hb : ∀ c ∈ text.head?, Text.isBlank c = false
  · by_cases hl : lang.OpensLine text
    · obtain ⟨r, rfl⟩ := hl.mark
      refine .inr (.inl ⟨lang.commentLine.toList ++ r.takeWhile (· != '\n'),
        r.dropWhile (· != '\n'), ?_, .line ?_ ?_ ?_⟩)
      · rw [List.append_assoc, List.takeWhile_append_dropWhile]
      · rwa [List.takeWhile_append_dropWhile]
      · intro hm
        have := List.all_eq_true.mp (List.all_takeWhile (p := (· != '\n'))) _ hm
        simp at this
      · intro c hc
        simpa using eq_false_of_head?_dropWhile hc
    · by_cases ho : lang.OpensBlock text
      · by_cases hx : ∃ x rest, text = lang.commentStart.toList ++ (x ++ rest) ∧ lang.Encloses 1 x rest
        · obtain ⟨x, rest, rfl, hx⟩ := hx
          exact .inr (.inl ⟨_, rest, (List.append_assoc _ _ _).symm, .block ho hx⟩)
        · exact .inr (.inr ⟨ho, fun x rest htext hencloses => hx ⟨x, rest, htext, hencloses⟩⟩)
      · exact .inl ⟨hb, hl, ho⟩
  · have hne : text.takeWhile Text.isBlank ≠ [] := by
      intro hnil
      refine hb fun c hc => ?_
      cases text with
      | nil => cases hc
      | cons d text =>
        obtain rfl : d = c := by simpa using hc
        simpa [List.takeWhile_cons] using hnil
    refine .inr (.inl ⟨_, _, (List.takeWhile_append_dropWhile (p := Text.isBlank)).symm,
      .blanks hne (List.all_eq_true.mp List.all_takeWhile) fun _ => eq_false_of_head?_dropWhile⟩)

theorem trivia_or_unclosed (lang : Language) (text : List Char) :
    (∃ w rest, text = w ++ rest ∧ lang.Trivia w rest) ∨ lang.Unclosed text := by
  induction hn : text.length using Nat.strongRecOn generalizing text with
  | _ n ih =>
    rcases lang.solid_or_stretch_or_open text with hsolid | ⟨v, rest, rfl, hv⟩ | hopen
    · exact .inl ⟨[], text, rfl, .nil, hsolid⟩
    · have hpos := List.length_pos_iff.mpr hv.ne_nil
      rcases ih rest.length (by rw [← hn, List.length_append]; omega) rest rfl with
        ⟨w, r, rfl, htrivia⟩ | ⟨w, r, rfl, hw, hopen⟩
      · exact .inl ⟨v ++ w, r, (List.append_assoc _ _ _).symm, .cons hv htrivia.stretches, htrivia.solid⟩
      · exact .inr ⟨v ++ w, r, (List.append_assoc _ _ _).symm, .cons hv hw, hopen⟩
    · exact .inr ⟨[], text, rfl, .nil, hopen⟩

end Cases

section WhiteSpace

theorem Stretch.whiteSpace_eq (h : lang.Stretch v rest) (hs : s.Sound) (hr : s.rest = v ++ rest) :
    lang.whiteSpace s = lang.whiteSpace (s.pass v) := by
  change (many lang.separation s).map _ = (many lang.separation (s.pass v)).map _
  rw [Reads.many_round h.ne_nil h.reads hs hr]
  cases many lang.separation (s.pass v) <;> rfl

theorem Stretches.whiteSpace_eq (h : lang.Stretches w rest) (hs : s.Sound)
    (hr : s.rest = w ++ rest) : lang.whiteSpace s = lang.whiteSpace (s.pass w) := by
  induction h generalizing s with
  | nil => rw [State.pass_nil]
  | cons hv _ ih =>
    rw [List.append_assoc] at hr
    rw [hv.whiteSpace_eq hs hr, ih (hs.pass hr) (State.rest_pass hr),
      ← State.pass_append]

theorem whiteSpace_solid (h : lang.Solid s.rest) : lang.whiteSpace s = .success () s := by
  change (many lang.separation s).map _ = _
  rw [(Solid.refusesAt (s := s.checkpoint) h).many]
  rfl

theorem whiteSpace_open (h : lang.Open s.rest) (hs : s.Sound) : lang.whiteSpace s =
    .failure ⟨.expected "end of comment", s.position.advanceAll s.rest⟩ (s.pass s.rest) := by
  exact (h.rejects.many.map _ s hs (List.append_nil s.rest).symm).failed

theorem Trivia.whiteSpace_eq (h : lang.Trivia w rest) (hs : s.Placed) (hr : s.rest = w ++ rest) :
    lang.whiteSpace s = .success () (s.pass w) := by
  rcases hs.sound_or with hs | hnil
  · have hsolid : lang.Solid (s.pass w).rest := by
      rw [State.rest_pass hr]
      exact h.solid
    rw [h.stretches.whiteSpace_eq hs hr, whiteSpace_solid hsolid]
  · obtain ⟨rfl, rfl⟩ := List.append_eq_nil_iff.mp (hr.symm.trans hnil)
    rw [State.pass_nil]
    exact whiteSpace_solid (hnil ▸ h.solid)

theorem Trivia.reads (h : lang.Trivia w rest) : Reads lang.whiteSpace w rest () :=
  fun _ hs hr _ => h.whiteSpace_eq hs.placed hr

theorem Unclosed.whiteSpace_eq (h : lang.Unclosed s.rest) (hs : s.Placed) : lang.whiteSpace s =
    .failure ⟨.expected "end of comment", s.position.advanceAll s.rest⟩ (s.pass s.rest) := by
  obtain ⟨w, rest, hr, hw, hopen⟩ := h
  rcases hs.sound_or with hs | hnil
  · have hrest : (s.pass w).rest = rest := State.rest_pass hr
    rw [hw.whiteSpace_eq hs hr, whiteSpace_open (hrest ▸ hopen) (hs.pass hr), hrest,
      ← State.pass_append, State.position_pass, ← Position.advanceAll_append, hr]
  · exact absurd (List.append_eq_nil_iff.mp (hr.symm.trans hnil)).2 hopen.ne_nil

theorem whiteSpace_eq_success (hs : s.Placed) {t : State} : lang.whiteSpace s = .success () t ↔
    ∃ w rest, s.rest = w ++ rest ∧ lang.Trivia w rest ∧ t = s.pass w := by
  constructor
  · intro h
    rcases lang.trivia_or_unclosed s.rest with ⟨w, rest, hr, hw⟩ | hopen
    · rw [hw.whiteSpace_eq hs hr] at h
      cases h
      exact ⟨w, rest, hr, hw, rfl⟩
    · rw [hopen.whiteSpace_eq hs] at h
      cases h
  · rintro ⟨w, rest, hr, hw, rfl⟩
    exact hw.whiteSpace_eq hs hr

theorem whiteSpace_eq_failure (hs : s.Placed) {e : ParseError} {t : State} :
    lang.whiteSpace s = .failure e t ↔ lang.Unclosed s.rest ∧
      e = ⟨.expected "end of comment", s.position.advanceAll s.rest⟩ ∧ t = s.pass s.rest := by
  constructor
  · intro h
    rcases lang.trivia_or_unclosed s.rest with ⟨w, rest, hr, hw⟩ | hopen
    · rw [hw.whiteSpace_eq hs hr] at h
      cases h
    · rw [hopen.whiteSpace_eq hs] at h
      cases h
      exact ⟨hopen, rfl, rfl⟩
  · rintro ⟨hopen, rfl, rfl⟩
    exact hopen.whiteSpace_eq hs

/-- White space never stalls, whatever the delimiters of a language are. It succeeds right behind the
trivia at the cursor, where it then finds nothing more to skip, and it fails exactly where one of the
comments there is never closed, at the end of the text. -/
theorem whiteSpace_exact (lang : Language) (s : State) (hs : s.Placed) :
    lang.whiteSpace s ≠ .stalled ∧
    (∀ t, lang.whiteSpace s = .success () t ↔
      ∃ w rest, s.rest = w ++ rest ∧ lang.Trivia w rest ∧ t = s.pass w) ∧
    (∀ e t, lang.whiteSpace s = .failure e t ↔ lang.Unclosed s.rest ∧
      e = ⟨.expected "end of comment", s.position.advanceAll s.rest⟩ ∧ t = s.pass s.rest) ∧
    ∀ t, lang.whiteSpace s = .success () t → lang.whiteSpace t = .success () t := by
  refine ⟨?_, fun t => whiteSpace_eq_success hs, fun e t => whiteSpace_eq_failure hs, ?_⟩
  · rcases lang.trivia_or_unclosed s.rest with ⟨w, rest, hr, hw⟩ | hopen
    · rw [hw.whiteSpace_eq hs hr]
      nofun
    · rw [hopen.whiteSpace_eq hs]
      nofun
  · intro t ht
    obtain ⟨w, rest, hr, hw, rfl⟩ := (whiteSpace_eq_success hs).mp ht
    refine whiteSpace_solid ?_
    rw [State.rest_pass hr]
    exact hw.solid

def overlapping : Language where
  commentStart := "(*"
  commentEnd := "*)"
  commentLine := "(("

theorem trivia_overlapping : overlapping.Trivia " ((x\n(*(*)*)*)".toList "y".toList := by
  have comment : overlapping.Encloses 1 "(*)*)*)".toList "y".toList :=
    .opening (x := ")*)*)".toList) rfl (by decide) (.inner (by decide) (by decide)
      (.closing (x := "*)".toList) (by decide) (.closing (x := []) (by decide) .closed)))
  have space : overlapping.Stretch " ".toList "((x\n(*(*)*)*)y".toList :=
    .blanks (by decide) (List.all_eq_true.mp (by decide)) (by rintro _ ⟨⟩; decide)
  have line : overlapping.Stretch "((x".toList "\n(*(*)*)*)y".toList :=
    .line (x := ['x']) ⟨by decide, by rintro _ ⟨⟩; decide, by decide⟩ (by decide)
      (by rintro _ ⟨⟩; rfl)
  have lineFeed : overlapping.Stretch "\n".toList "(*(*)*)*)y".toList :=
    .blanks (by decide) (List.all_eq_true.mp (by decide)) (by rintro _ ⟨⟩; decide)
  have block : overlapping.Stretch "(*(*)*)*)".toList "y".toList :=
    .block (x := "(*)*)*)".toList) ⟨by decide, by rintro _ ⟨⟩; decide,
      fun h => absurd h.mark (by decide), by decide⟩ comment
  refine ⟨.cons (w := "((x\n(*(*)*)*)".toList) space (.cons (w := "\n(*(*)*)*)".toList) line
    (.cons (w := "(*(*)*)*)".toList) lineFeed (.cons (w := []) block .nil))), ?_⟩
  exact ⟨by rintro _ ⟨⟩; decide, fun h => absurd h.mark (by decide),
    fun h => absurd h.mark (by decide)⟩

theorem whiteSpace_exact_overlapping :
    (State.start " ((x\n(*(*)*)*)y").Placed ∧
    overlapping.whiteSpace (State.start " ((x\n(*(*)*)*)y") = .success ()
      ((State.start " ((x\n(*(*)*)*)y").pass " ((x\n(*(*)*)*)".toList) ∧
    (State.start "\t(*)").Placed ∧ overlapping.Unclosed "\t(*)".toList := by
  have hs := (State.sound_start " ((x\n(*(*)*)*)y").placed
  have hs' := (State.sound_start "\t(*)").placed
  have fails : overlapping.whiteSpace (State.start "\t(*)") =
      .failure ⟨.expected "end of comment", ⟨1, 12⟩⟩
        ((State.start "\t(*)").pass "\t(*)".toList) := by decide +kernel
  have closed := ((whiteSpace_exact overlapping _ hs).2.1 _).mpr
    ⟨_, "y".toList, by decide, trivia_overlapping, rfl⟩
  exact ⟨hs, closed, hs', (((whiteSpace_exact overlapping _ hs').2.2.1 _ _).mp fails).1⟩

end WhiteSpace

end ContextRoles.Lexeme.Language
