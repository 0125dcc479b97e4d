import ContextRoles.Proofs.Parsing.Totality

/-! # Reading a piece of text

A parser reads a text in front of another one when it succeeds right behind it, from whatever state it
is started. It refuses a text when it fails there without reading anything, so that the next
alternative gets its turn.
-/

namespace ContextRoles.Parsing

theorem eq_false_of_head?_dropWhile {α : Type} {accepts : α → Bool} {l : List α} {a : α}
    (h : a ∈ (l.dropWhile accepts).head?) : accepts a = false := by
  have hnot := List.head?_dropWhile_not accepts l
  rw [Option.mem_def.mp h] at hnot
  simpa using hnot

theorem Position.line_advanceAll {w : List Char} (h : '\n' ∉ w) (p : Position) :
    (p.advanceAll w).line = p.line := by
  induction w generalizing p with
  | nil => rfl
  | cons c w ih =>
    rw [List.mem_cons, not_or] at h
    rw [advanceAll_cons, ih h.2, advance, if_neg (Ne.symm h.1)]
    split <;> rfl

theorem Position.line_le_advance (p : Position) (c : Char) : p.line ≤ (p.advance c).line := by
  unfold advance
  split
  · exact Nat.le_succ _
  · split <;> exact Nat.le_refl _

theorem Position.line_le_advanceAll (p : Position) (w : List Char) :
    p.line ≤ (p.advanceAll w).line := by
  induction w generalizing p with
  | nil => exact Nat.le_refl _
  | cons c w ih => exact Nat.le_trans (p.line_le_advance c) (ih _)

theorem Position.line_lt_advanceAll {w : List Char} (h : '\n' ∈ w) (p : Position) :
    p.line < (p.advanceAll w).line := by
  induction w generalizing p with
  | nil => cases h
  | cons c w ih =>
    rw [advanceAll_cons]
    rcases List.mem_cons.mp h with rfl | h
    · exact Nat.lt_of_lt_of_le (Nat.lt_succ_self _) (line_le_advanceAll (p.advance '\n') w)
    · exact Nat.lt_of_le_of_lt (p.line_le_advance c) (ih h _)

namespace State

variable {s t : State} {v w rest : List Char}

/-- The state behind a text that lies ahead. Reading nothing changes nothing. -/
def pass (s : State) (w : List Char) : State :=
  { s with
    rest := s.rest.drop w.length
    offset := s.offset + w.length
    position := s.position.advanceAll w
    consumed := s.consumed || !w.isEmpty }

@[simp] theorem pass_nil (s : State) : s.pass [] = s := by simp [pass]

theorem pass_append (s : State) (v w : List Char) : s.pass (v ++ w) = (s.pass v).pass w := by
  cases v <;> simp [pass, Position.advanceAll_append, Nat.add_assoc, Nat.add_comm, Nat.add_left_comm]

@[simp] theorem position_pass (s : State) (w : List Char) :
    (s.pass w).position = s.position.advanceAll w := rfl

@[simp] theorem reference_pass (s : State) (w : List Char) :
    (s.pass w).reference = s.reference := rfl

@[simp] theorem drawn_pass (s : State) (w : List Char) : (s.pass w).drawn = s.drawn := rfl

theorem consumed_pass (s : State) (h : w ≠ []) : (s.pass w).consumed = true := by
  simp [pass, List.isEmpty_eq_false_iff.mpr h]

theorem rest_pass (h : s.rest = w ++ rest) : (s.pass w).rest = rest := by simp [pass, h]

theorem Sound.pass (hs : s.Sound) (h : s.rest = w ++ rest) : (s.pass w).Sound := by
  have hrest : (s.pass w).rest.length = rest.length := by rw [rest_pass h]
  simp only [Sound, h, List.length_append] at hs
  have hoffset : (s.pass w).offset = s.offset + w.length := rfl
  have hsize : (s.pass w).size = s.size := rfl
  rw [Sound, hrest, hoffset, hsize]
  omega

theorem Sound.remaining_pass (hs : s.Sound) (h : s.rest = w ++ rest) (hw : w ≠ []) :
    (s.pass w).remaining < s.remaining := by
  have hpos := List.length_pos_iff.mpr hw
  rw [(hs.pass h).remaining, hs.remaining, rest_pass h, h, List.length_append]
  omega

theorem Sound.atEnd (hs : s.Sound) : s.atEnd = s.rest.isEmpty := by
  unfold Sound at hs
  cases h : s.rest with
  | nil => simp_all [State.atEnd]
  | cons c rest => simp_all [State.atEnd]; omega

theorem advance_eq_pass (hw : w ≠ []) (h : s.rest = w ++ rest) : s.advance w.length = s.pass w := by
  simp [State.advance, State.pass, h, List.isEmpty_eq_false_iff.mpr hw]

theorem advance_pass (hv : v ≠ []) (h : s.rest = v ++ (w ++ rest)) :
    (s.pass v).advance w.length = s.pass (v ++ w) := by
  rw [pass_append]
  cases w with
  | nil => simp [State.advance, State.pass, List.isEmpty_eq_false_iff.mpr hv]
  | cons c w => exact advance_eq_pass (List.cons_ne_nil c w) (rest_pass h)

theorem pass_checkpoint (s : State) (w : List Char) :
    (s.checkpoint.pass w).withConsumed (s.consumed || (s.checkpoint.pass w).consumed) =
      s.pass w := by
  simp [checkpoint, withConsumed, pass]

theorem pass_checkpoint_of_ne (s : State) (h : w ≠ []) :
    (s.checkpoint.pass w).withConsumed true = s.pass w := by
  simp [checkpoint, withConsumed, pass, List.isEmpty_eq_false_iff.mpr h]

theorem checkpoint_pass (s : State) (h : w ≠ []) : s.checkpoint.pass w = s.pass w := by
  simp [checkpoint, withConsumed, pass, List.isEmpty_eq_false_iff.mpr h]

theorem rewindFrom_eq_self (h : t.drawn = s.drawn) : s.rewindFrom t = s := by
  simp [rewindFrom, h]

/-- A cursor into some text, or one that was moved beyond its end. -/
def Placed (s : State) : Prop :=
  ∃ source : List Char, s.size = source.length ∧ s.rest = source.drop s.offset

theorem Sound.placed (hs : s.Sound) : s.Placed := by
  refine ⟨List.replicate s.offset 'x' ++ s.rest, ?_, ?_⟩
  · rw [List.length_append, List.length_replicate]
    exact hs.symm
  · exact (List.drop_left' List.length_replicate).symm

theorem Placed.sound_or (h : s.Placed) : s.Sound ∨ s.rest = [] := by
  obtain ⟨source, hsize, hrest⟩ := h
  rcases Nat.le_total s.offset source.length with hle | hle
  · refine .inl ?_
    rw [Sound, hrest, hsize, List.length_drop, Nat.add_sub_cancel' hle]
  · exact .inr (hrest.trans (List.drop_eq_nil_of_le hle))

/-- Whether the cursor is on the reference line. -/
def OnLine (s : State) : Prop := s.position.line = s.reference.line

theorem OnLine.pass (h : s.OnLine) (hw : '\n' ∉ w) : (s.pass w).OnLine := by
  rw [OnLine, position_pass, Position.line_advanceAll hw]
  exact h

end State

namespace Parser

open State

variable {α β γ : Type} {P Q : State → Prop} {p q : Parser α} {a : α} {b : β}
  {v w rest text : List Char}

/-- Started in front of `w` and `rest`, in a state with a property, `p` reads `w` as `a`. -/
def ReadsIf (P : State → Prop) (p : Parser α) (w rest : List Char) (a : α) : Prop :=
  ∀ s : State, s.Sound → s.rest = w ++ rest → P s → p s = .success a (s.pass w)

/-- In front of `w` and `rest`, wherever that is, `p` reads `w` as `a`. -/
abbrev Reads (p : Parser α) (w rest : List Char) (a : α) : Prop :=
  ReadsIf (fun _ => True) p w rest a

def Fails (p : Parser α) (text : List Char) : Prop :=
  ∀ s : State, s.Sound → s.rest = text → ∃ e t, p s = .failure e t ∧ t.drawn = s.drawn

/-- In front of a text `p` fails and has read something. -/
def Breaks (p : Parser α) (text : List Char) : Prop :=
  ∀ s : State, s.Sound → s.rest = text →
    ∃ e t, p s = .failure e t ∧ t.consumed = true ∧ t.drawn = s.drawn

/-- In front of a text `p` fails and has read nothing. -/
def Refuses (p : Parser α) (text : List Char) : Prop :=
  ∀ s : State, s.Sound → s.rest = text →
    ∃ e t, p s = .failure e t ∧ t.consumed = s.consumed ∧ t.drawn = s.drawn

/-- From `s` on, `p` fails with `e` in `t`, where something was read. -/
structure BreaksAt (p : Parser α) (s : State) (e : ParseError) (t : State) : Prop where
  failed : p s = .failure e t
  consumed : t.consumed = true

/-- In front of `w` and `rest`, wherever that is, `p` reads `w` and fails behind it. -/
def Rejects (cause : Cause) (p : Parser α) (w rest : List Char) : Prop :=
  ∀ s : State, s.Sound → s.rest = w ++ rest →
    BreaksAt p s ⟨cause, (s.pass w).position⟩ (s.pass w)

/-- From `s` on, `p` fails without drawing any identifiers. -/
def FailsAt (p : Parser α) (s : State) : Prop := ∃ e t, p s = .failure e t ∧ t.drawn = s.drawn

/-- From `s` on, `p` fails and has read nothing. -/
def RefusesAt (p : Parser α) (s : State) : Prop :=
  ∃ e t, p s = .failure e t ∧ t.consumed = s.consumed ∧ t.drawn = s.drawn

namespace RefusesAt

variable {s : State}

theorem bind {f : α → Parser β} (h : RefusesAt p s) : RefusesAt (p.bind f) s := by
  obtain ⟨e, t, hp, hc, hd⟩ := h
  exact ⟨e, t, by simp [Parser.bind, hp], hc, hd⟩

theorem map (h : RefusesAt p s) (f : α → β) : RefusesAt (Parser.map f p) s := by
  rw [map_eq_bind]
  exact h.bind

theorem attempt (h : FailsAt p s) : RefusesAt (Parser.attempt p) s := by
  obtain ⟨e, t, hp, hd⟩ := h
  exact ⟨e, t.withConsumed s.consumed, by simp [Parser.attempt, hp], rfl, hd⟩

theorem failsAt (h : RefusesAt p s) : FailsAt p s :=
  have ⟨e, t, hp, _, hd⟩ := h
  ⟨e, t, hp, hd⟩

theorem fail (cause : Cause) : RefusesAt (Parser.fail cause : Parser α) s := ⟨_, s, rfl, rfl, rfl⟩

theorem withPosition (h : RefusesAt p (s.withReference s.position)) :
    RefusesAt (Parser.withPosition p) s := by
  obtain ⟨e, t, hp, hc, hd⟩ := h
  exact ⟨e, t.withReference s.reference, by simp [Parser.withPosition, hp, Outcome.mapState], hc, hd⟩

/-- Where the first alternative refuses, the second one takes its place. -/
theorem alt_eq (h : RefusesAt p s.checkpoint) :
    Parser.alt p q s = (q s.checkpoint).merge s.consumed := by
  obtain ⟨e, t, hp, hc, hd⟩ := h
  have hfalse : t.consumed = false := hc
  simp only [Parser.alt, hp, hfalse, Bool.false_eq_true, if_false, rewindFrom_eq_self hd]

/-- An alternative refuses where both of its parsers do at the checkpoint. -/
theorem alt (h : RefusesAt p s.checkpoint) (h' : RefusesAt q s.checkpoint) :
    RefusesAt (Parser.alt p q) s := by
  obtain ⟨e, t, hq, hc, hd⟩ := h'
  have hfalse : t.consumed = false := hc
  refine ⟨e, t.withConsumed (s.consumed || t.consumed), by rw [h.alt_eq, hq]; rfl, ?_, hd⟩
  simp [withConsumed, hfalse]

theorem label (h : RefusesAt p s.checkpoint) (name : String) : RefusesAt (p.label name) s :=
  h.alt (fail _)

theorem choice {ps : List (Parser α)} (h : ∀ p ∈ ps, RefusesAt p s.checkpoint) :
    RefusesAt (Parser.choice ps) s.checkpoint :=
  choice_induction (C := fun p => RefusesAt p s.checkpoint) (fail _)
    (fun _ _ => alt (s := s.checkpoint)) h

theorem many (h : RefusesAt p s.checkpoint) : Parser.many p s = .success [] s := by
  obtain ⟨e, t, hp, hc, hd⟩ := h
  have hfalse : t.consumed = false := hc
  have hself : s.rewindFrom t = s := rewindFrom_eq_self hd
  rw [Parser.many, manyFrom, hp]
  simp only [hfalse, Bool.false_eq_true, if_false, List.reverse_nil, hself]

theorem satisfy {accepts : Char → Bool} (h : ∀ c ∈ s.rest.head?, accepts c = false) :
    RefusesAt (Parser.satisfy accepts) s := by
  simp only [RefusesAt, Parser.satisfy]
  split
  · exact ⟨_, s, rfl, rfl, rfl⟩
  next c rest hrest =>
    have hc : accepts c = false := h c (by rw [hrest]; rfl)
    rw [if_neg (by simp [hc])]
    exact ⟨_, s, rfl, rfl, rfl⟩

theorem string {expected : String} (h : ¬ expected.toList <+: s.rest) :
    RefusesAt (Parser.string expected) s :=
  ⟨_, s, if_neg fun hstart => h (startsWith_iff.mp hstart).2, rfl, rfl⟩

end RefusesAt

namespace BreaksAt

variable {s t u : State} {e : ParseError}

/-- A failure that has read something is not given up for another alternative. -/
theorem alt_left (h : BreaksAt p s.checkpoint e t) : BreaksAt (Parser.alt p q) s e t := by
  obtain ⟨h, ht⟩ := h
  refine ⟨?_, ht⟩
  rw [Parser.alt, h]
  simp only [ht, if_true, Outcome.merge, Outcome.mapState, Bool.or_true]
  rw [withConsumed, ← ht]

theorem alt_right (hp : RefusesAt p s.checkpoint) (h : BreaksAt q s.checkpoint e t) :
    BreaksAt (Parser.alt p q) s e t := by
  obtain ⟨h, ht⟩ := h
  refine ⟨?_, ht⟩
  rw [hp.alt_eq, h]
  simp only [Outcome.merge, Outcome.mapState, ht, Bool.or_true]
  rw [withConsumed, ← ht]

theorem bind_left {f : α → Parser β} (h : BreaksAt p s e t) : BreaksAt (p.bind f) s e t :=
  ⟨by rw [Parser.bind, h.failed], h.consumed⟩

theorem bind_right {f : α → Parser β} (h : p s = .success a t) (h' : BreaksAt (f a) t e u) :
    BreaksAt (p.bind f) s e u :=
  ⟨by simpa only [Parser.bind, h] using h'.failed, h'.consumed⟩

theorem map (h : BreaksAt p s e t) (f : α → β) : BreaksAt (Parser.map f p) s e t := by
  rw [map_eq_bind]
  exact h.bind_left

/-- A repetition fails with the round that fails after reading something. -/
theorem many (h : BreaksAt p s.checkpoint e t) : BreaksAt (Parser.many p) s e t := by
  refine ⟨?_, h.consumed⟩
  rw [Parser.many, manyFrom, h.failed]
  simp only [h.consumed, if_true]

end BreaksAt

theorem Refuses.refusesAt {s : State} (h : Refuses p text) (hs : s.Sound) (hr : s.rest = text) :
    RefusesAt p s := h s hs hr

theorem Reads.readsIf (h : Reads p w rest a) : ReadsIf P p w rest a :=
  fun s hs hr _ => h s hs hr trivial

namespace ReadsIf

theorem bind {f : α → Parser β} (h : ReadsIf P p v (w ++ rest) a)
    (hP : ∀ s, P s → Q (s.pass v)) (h' : ReadsIf Q (f a) w rest b) :
    ReadsIf P (p.bind f) (v ++ w) rest b := by
  intro s hs hr hp
  rw [List.append_assoc] at hr
  rw [pass_append, bind_eq_success]
  exact ⟨a, s.pass v, h s hs hr hp, h' _ (hs.pass hr) (rest_pass hr) (hP s hp)⟩

theorem pure (a : α) : ReadsIf P (Parser.pure a) [] rest a := fun s _ _ _ => by
  rw [pass_nil]
  rfl

theorem map (h : ReadsIf P p w rest a) (f : α → β) : ReadsIf P (Parser.map f p) w rest (f a) :=
  fun s hs hr hp => map_eq_success.mpr ⟨a, h s hs hr hp, rfl⟩

theorem then_ {q : Parser β} (h : ReadsIf P p v (w ++ rest) a) (hP : ∀ s, P s → Q (s.pass v))
    (h' : ReadsIf Q q w rest b) : ReadsIf P (p.then_ q) (v ++ w) rest b := h.bind hP h'

theorem alt_left (h : ReadsIf P p w rest a) (hP : ∀ s, P s → P s.checkpoint) :
    ReadsIf P (Parser.alt p q) w rest a := by
  intro s hs hr hp
  rw [Parser.alt, h s.checkpoint hs hr (hP s hp)]
  simp only [Outcome.merge, Outcome.mapState, pass_checkpoint]

/-- What is read behind the reference position may depend on being on its line. -/
theorem withPosition (h : ReadsIf OnLine p w rest a) : Reads (Parser.withPosition p) w rest a := by
  intro s hs hr _
  exact mapState_eq_success.mpr ⟨_, h (s.withReference s.position) hs hr rfl, rfl⟩

end ReadsIf

theorem readsIf_sameLine : ReadsIf OnLine sameLine [] rest () := by
  intro s _ _ h
  rw [pass_nil]
  exact if_pos h

theorem readsIf_sameOrIndented : ReadsIf OnLine sameOrIndented [] rest () :=
  readsIf_sameLine.alt_left fun _ => id

namespace Reads

theorem bind {f : α → Parser β} (h : Reads p v (w ++ rest) a) (h' : Reads (f a) w rest b) :
    Reads (p.bind f) (v ++ w) rest b := ReadsIf.bind h (fun _ _ => trivial) h'

theorem then_ {q : Parser β} (h : Reads p v (w ++ rest) a) (h' : Reads q w rest b) :
    Reads (p.then_ q) (v ++ w) rest b := h.bind h'

theorem skip {q : Parser β} (h : Reads p v (w ++ rest) a) (h' : Reads q w rest b) :
    Reads (p.skip q) (v ++ w) rest a := h.bind (h'.map _)

theorem alt_left (h : Reads p w rest a) : Reads (Parser.alt p q) w rest a :=
  ReadsIf.alt_left h fun _ _ => trivial

theorem alt_right (h : Refuses p (w ++ rest)) (h' : Reads q w rest a) :
    Reads (Parser.alt p q) w rest a := by
  intro s hs hr _
  rw [(h.refusesAt hs.checkpoint hr).alt_eq, h' s.checkpoint hs hr trivial]
  simp only [Outcome.merge, Outcome.mapState, pass_checkpoint]

theorem attempt (h : Reads p w rest a) : Reads (Parser.attempt p) w rest a := by
  intro s hs hr _
  rw [Parser.attempt, h s hs hr trivial]

theorem label (h : Reads p w rest a) (name : String) : Reads (p.label name) w rest a := h.alt_left

theorem satisfy {accepts : Char → Bool} {c : Char} (h : accepts c = true) :
    Reads (Parser.satisfy accepts) [c] rest c := by
  intro s _ hr _
  have hr' : s.rest = c :: rest := hr
  simp only [Parser.satisfy, hr', h, if_true]
  rw [← advance_eq_pass (List.cons_ne_nil c []) hr]
  rfl

theorem char (c : Char) : Reads (Parser.char c) [c] rest c := (satisfy (by simp)).label _

theorem string {expected : String} (h : expected ≠ "") :
    Reads (Parser.string expected) expected.toList rest expected := by
  intro s hs hr _
  have hne : expected.toList ≠ [] := by simpa using h
  have hstart : s.startsWith expected.toList = true := by
    rw [startsWith_iff, hr]
    exact ⟨Nat.le.intro hs, List.prefix_append _ _⟩
  rw [Parser.string, if_pos hstart, ← String.length_toList, advance_eq_pass hne hr]

theorem manyFrom_eq (p : Parser α) (values : List α) (s : State) :
    manyFrom p values s = (many p s).map (values.reverse ++ ·) := by
  unfold many
  induction hn : s.remaining using Nat.strongRecOn generalizing s values with
  | _ n ih =>
    rw [manyFrom, manyFrom]
    cases hr : p s.checkpoint with
    | failure e t => cases hc : t.consumed <;> simp [hc, Outcome.map]
    | stalled => rfl
    | success a t =>
      by_cases hlt : t.remaining < s.remaining
      · simp only [hlt, if_true]
        have rounds := fun values => ih _ (hn ▸ hlt) values (t.withConsumed true) rfl
        rw [rounds, rounds [a]]
        cases manyFrom p [] (t.withConsumed true) <;> simp [Outcome.map]
      · simp [hlt, Outcome.map]

theorem many_nil (h : Refuses p rest) : Reads (Parser.many p) [] rest [] := by
  intro s hs hr _
  rw [pass_nil]
  exact (h.refusesAt hs.checkpoint hr).many

theorem many_round {s : State} (hv : v ≠ []) (h : Reads p v rest a) (hs : s.Sound)
    (hr : s.rest = v ++ rest) :
    Parser.many p s = (Parser.many p (s.pass v)).map (a :: ·) := by
  have hlt : (s.checkpoint.pass v).remaining < s.remaining := hs.checkpoint.remaining_pass hr hv
  rw [Parser.many, manyFrom, h s.checkpoint hs hr trivial]
  simp only [hlt, if_true, pass_checkpoint_of_ne s hv]
  rw [manyFrom_eq]
  rfl

theorem many_cons {as : List α} (hv : v ≠ []) (h : Reads p v (w ++ rest) a)
    (h' : Reads (Parser.many p) w rest as) : Reads (Parser.many p) (v ++ w) rest (a :: as) := by
  intro s hs hr _
  rw [List.append_assoc] at hr
  rw [many_round hv h hs hr, h' (s.pass v) (hs.pass hr) (rest_pass hr) trivial, pass_append]
  rfl

/-- A repetition of a parser of single characters reads them up to the first it refuses. -/
theorem many_chars {accepts : Char → Bool} {f : Char → α} (hw : ∀ c ∈ w, accepts c = true)
    (h : ∀ c rest, accepts c = true → Reads p [c] rest (f c)) (h' : Refuses p rest) :
    Reads (Parser.many p) w rest (w.map f) := by
  induction w with
  | nil => exact many_nil h'
  | cons c w ih =>
    rw [List.forall_mem_cons] at hw
    exact many_cons (List.cons_ne_nil c []) (h c _ hw.1) (ih hw.2)

theorem some_chars {accepts : Char → Bool} {f : Char → α} {c : Char} (hc : accepts c = true)
    (hw : ∀ c ∈ w, accepts c = true) (h : ∀ c rest, accepts c = true → Reads p [c] rest (f c))
    (h' : Refuses p rest) : Reads (Parser.some p) (c :: w) rest (f c :: w.map f) :=
  bind (h c _ hc) ((many_chars hw h h').map (f c :: ·))

end Reads

theorem Refuses.fails (h : Refuses p text) : Fails p text := fun s hs hr =>
  have ⟨e, t, hp, _, hd⟩ := h s hs hr
  ⟨e, t, hp, hd⟩

theorem Fails.bind_left {f : α → Parser β} (h : Fails p text) : Fails (p.bind f) text := by
  intro s hs hr
  obtain ⟨e, t, hp, hd⟩ := h s hs hr
  exact ⟨e, t, by simp [Parser.bind, hp], hd⟩

theorem Fails.bind_right {f : α → Parser β} (h : Reads p v rest a) (h' : Fails (f a) rest) :
    Fails (p.bind f) (v ++ rest) := by
  intro s hs hr
  obtain ⟨e, t, hp, hd⟩ := h' (s.pass v) (hs.pass hr) (rest_pass hr)
  exact ⟨e, t, by simp [Parser.bind, h s hs hr trivial, hp], hd⟩

theorem Fails.map (h : Fails p text) (f : α → β) : Fails (Parser.map f p) text := by
  rw [map_eq_bind]
  exact h.bind_left

theorem Fails.alt (h : Fails p text) (h' : Fails q text) : Fails (Parser.alt p q) text := by
  intro s hs hr
  obtain ⟨e, t, hp, hd⟩ := h s.checkpoint hs hr
  obtain ⟨e', t', hq, hd'⟩ := h' s.checkpoint hs hr
  rw [Parser.alt, hp]
  by_cases hc : t.consumed = true
  · exact ⟨e, t.withConsumed (s.consumed || t.consumed), by simp [hc, Outcome.merge,
      Outcome.mapState], hd⟩
  · exact ⟨e', t'.withConsumed (s.consumed || t'.consumed), by simp [hc, rewindFrom_eq_self hd, hq,
      Outcome.merge, Outcome.mapState], hd'⟩

namespace Breaks

theorem alt_left (h : Breaks p text) : Breaks (Parser.alt p q) text := by
  intro s hs hr
  obtain ⟨e, t, hp, hc, hd⟩ := h s.checkpoint hs hr
  exact ⟨e, t, (BreaksAt.alt_left ⟨hp, hc⟩).failed, hc, hd⟩

theorem alt_right (h : Refuses p text) (h' : Breaks q text) : Breaks (Parser.alt p q) text := by
  intro s hs hr
  obtain ⟨e, t, hq, hc, hd⟩ := h' s.checkpoint hs hr
  exact ⟨e, t, (BreaksAt.alt_right (h.refusesAt hs.checkpoint hr) ⟨hq, hc⟩).failed, hc, hd⟩

theorem bind_left {f : α → Parser β} (h : Breaks p text) : Breaks (p.bind f) text := by
  intro s hs hr
  obtain ⟨e, t, hp, hc, hd⟩ := h s hs hr
  exact ⟨e, t, by simp [Parser.bind, hp], hc, hd⟩

theorem bind_right {f : α → Parser β} (hv : v ≠ []) (h : Reads p v rest a)
    (h' : Refuses (f a) rest) : Breaks (p.bind f) (v ++ rest) := by
  intro s hs hr
  obtain ⟨e, t, hp, hc, hd⟩ := h' (s.pass v) (hs.pass hr) (rest_pass hr)
  exact ⟨e, t, by simp [Parser.bind, h s hs hr trivial, hp], hc.trans (consumed_pass s hv), hd⟩

theorem withPosition (h : Breaks p text) : Breaks (Parser.withPosition p) text := by
  intro s hs hr
  obtain ⟨e, t, hp, hc, hd⟩ := h (s.withReference s.position) hs hr
  exact ⟨e, t.withReference s.reference, by simp [Parser.withPosition, hp, Outcome.mapState], hc, hd⟩

end Breaks

namespace Refuses

theorem bind {f : α → Parser β} (h : Refuses p text) : Refuses (p.bind f) text :=
  fun _ hs hr => (h.refusesAt hs hr).bind

theorem map (h : Refuses p text) (f : α → β) : Refuses (Parser.map f p) text := by
  rw [map_eq_bind]
  exact h.bind

/-- Behind a parser that reads nothing a refusal is one of both. -/
theorem bind_nil {f : α → Parser β} (h : Reads p [] text a) (h' : Refuses (f a) text) :
    Refuses (p.bind f) text := by
  intro s hs hr
  obtain ⟨e, t, hp, hc, hd⟩ := h' s hs hr
  exact ⟨e, t, by simp [Parser.bind, h s hs hr trivial, hp], hc, hd⟩

theorem attempt (h : Fails p text) : Refuses (Parser.attempt p) text :=
  fun s hs hr => RefusesAt.attempt (h s hs hr)

theorem withPosition (h : Refuses p text) : Refuses (Parser.withPosition p) text :=
  fun s hs hr => (h.refusesAt (s := s.withReference s.position) hs hr).withPosition

theorem check_then {check : Parser Unit} {q : Parser α} (h : Refuses q text)
    (hc : ∀ s, (∃ r, check s = .success () (s.withReference r)) ∨
      ∃ e t, check s = .failure e t ∧ t.consumed = s.consumed ∧ t.drawn = s.drawn) :
    Refuses (check.then_ q) text := by
  intro s hs hr
  rcases hc s with ⟨r, hcheck⟩ | ⟨e, t, hcheck, hset, hd⟩
  · obtain ⟨e, t, hq, hset, hd⟩ := h (s.withReference r) hs hr
    exact ⟨e, t, by simp [then_, Parser.bind, hcheck, hq], hset, hd⟩
  · exact ⟨e, t, by simp [then_, Parser.bind, hcheck], hset, hd⟩

theorem sameLine_cases (s : State) : (∃ r, Parser.sameLine s = .success () (s.withReference r)) ∨
    ∃ e t, Parser.sameLine s = .failure e t ∧ t.consumed = s.consumed ∧ t.drawn = s.drawn := by
  unfold Parser.sameLine
  split
  · exact .inl ⟨s.reference, rfl⟩
  · exact .inr ⟨_, s, rfl, rfl, rfl⟩

theorem sameOrIndented_cases (s : State) :
    (∃ r, Parser.sameOrIndented s = .success () (s.withReference r)) ∨
    ∃ e t, Parser.sameOrIndented s = .failure e t ∧ t.consumed = s.consumed ∧
      t.drawn = s.drawn := by
  by_cases hl : s.position.line = s.reference.line
  · refine .inl ⟨s.reference, ?_⟩
    simp [Parser.sameOrIndented, Parser.alt, Parser.sameLine, State.checkpoint, State.withConsumed,
      State.withReference, hl, Outcome.merge, Outcome.mapState]
  · by_cases hc : s.position.column ≤ s.reference.column
    · refine .inr ⟨⟨.notIndented, s.position⟩, s, ?_, rfl, rfl⟩
      simp [Parser.sameOrIndented, Parser.alt, Parser.sameLine, Parser.indented, State.checkpoint,
        State.withConsumed, State.rewindFrom, hl, hc, Outcome.merge, Outcome.mapState]
    · refine .inl ⟨⟨s.position.line, s.reference.column⟩, ?_⟩
      simp [Parser.sameOrIndented, Parser.alt, Parser.sameLine, Parser.indented, State.checkpoint,
        State.withConsumed, State.withReference, State.rewindFrom, hl, hc, Outcome.merge,
        Outcome.mapState]

theorem sameLine_then {q : Parser α} (h : Refuses q text) :
    Refuses (Parser.sameLine.then_ q) text := h.check_then sameLine_cases

theorem sameOrIndented_then {q : Parser α} (h : Refuses q text) :
    Refuses (Parser.sameOrIndented.then_ q) text := h.check_then sameOrIndented_cases

theorem fail (cause : Cause) : Refuses (Parser.fail cause : Parser α) text :=
  fun _ _ _ => RefusesAt.fail cause

theorem alt (h : Refuses p text) (h' : Refuses q text) : Refuses (Parser.alt p q) text :=
  fun _ hs hr => RefusesAt.alt (h.refusesAt hs.checkpoint hr) (h'.refusesAt hs.checkpoint hr)

theorem label (h : Refuses p text) (name : String) : Refuses (p.label name) text :=
  h.alt (fail _)

theorem choice {ps : List (Parser α)} (h : ∀ p ∈ ps, Refuses p text) :
    Refuses (Parser.choice ps) text :=
  choice_induction (fail _) (fun _ _ => alt) h

theorem furthest_pair (h : Refuses p text) (h' : Refuses q text) :
    Refuses (Parser.furthest [p, q]) text := by
  intro s hs hr
  obtain ⟨e, t, hp, hc, hd⟩ := h s.checkpoint hs hr
  obtain ⟨e', t', hq, hc', hd'⟩ := h' s.checkpoint hs hr
  have hself : s.checkpoint.rewindFrom t = s.checkpoint := rewindFrom_eq_self hd
  have hself' : s.checkpoint.rewindFrom t' = s.checkpoint := rewindFrom_eq_self hd'
  have chosen : (furthestFailure (Option.some (e, t)) e' t').2.consumed = false := by
    unfold furthestFailure
    dsimp only
    split
    · exact hc
    · exact hc'
  have last : ∃ e'' t'', Parser.furthest.go [p, q] none s.checkpoint = .failure e'' t'' ∧
      t''.consumed = false ∧ t''.drawn = s.drawn := by
    simp only [Parser.furthest.go, hp, hself, hq, hself']
    exact ⟨_, _, rfl, chosen, rfl⟩
  obtain ⟨e'', t'', hgo, hset, hdrawn⟩ := last
  refine ⟨e'', t''.withConsumed (s.consumed || t''.consumed), ?_, by simp [withConsumed, hset], hdrawn⟩
  rw [Parser.furthest, hgo]
  rfl

theorem satisfy {accepts : Char → Bool} (h : ∀ c ∈ text.head?, accepts c = false) :
    Refuses (Parser.satisfy accepts) text := fun _ _ hr => RefusesAt.satisfy (hr ▸ h)

theorem char {c : Char} (h : c ∉ text.head?) : Refuses (Parser.char c) text :=
  (satisfy fun d hd => by
    rw [beq_eq_false_iff_ne]
    rintro rfl
    exact h hd).label _

theorem string {expected : String} (h : ¬ expected.toList <+: text) :
    Refuses (Parser.string expected) text := fun _ _ hr => RefusesAt.string (hr ▸ h)

end Refuses

/-- The first parser of a list that does not refuse a text decides, if it does so in an alternation: as
the first parser of one, and as the second behind one that refuses the text. -/
theorem choice_decided {C : Parser α → Prop} (left : ∀ {p} q, C p → C (Parser.alt p q))
    (right : ∀ {p q}, Refuses p text → C q → C (Parser.alt p q)) {l k : List (Parser α)}
    (h : ∀ p ∈ l, Refuses p text) (h' : C p) : C (Parser.choice (l ++ p :: k)) := by
  have first : ∀ (k : List (Parser α)) (r : Parser α), C r → C (k.foldl Parser.alt r) := by
    intro k
    induction k with
    | nil => exact fun r hr => hr
    | cons q k ih => exact fun r hr => ih _ (left q hr)
  cases l with
  | nil => exact first k p h'
  | cons r l =>
    have before : Refuses (Parser.choice (r :: l)) text := .choice h
    change C ((l ++ p :: k).foldl Parser.alt r)
    rw [List.foldl_append]
    exact first k _ (right before h')

theorem Reads.choice {l k : List (Parser α)} (h : ∀ p ∈ l, Refuses p (w ++ rest))
    (h' : Reads p w rest a) : Reads (Parser.choice (l ++ p :: k)) w rest a :=
  choice_decided (C := fun p => Reads p w rest a) (fun _ => .alt_left) .alt_right h h'

namespace Rejects

variable {cause : Cause}

theorem ne_nil (h : Rejects cause p w rest) : w ≠ [] := by
  rintro rfl
  have hset := (h (State.start (String.ofList rest)) (sound_start _)
    (String.toList_ofList (l := rest))).consumed
  rw [pass_nil] at hset
  cases hset

theorem checkpoint {s : State} (h : Rejects cause p w rest) (hs : s.Sound)
    (hr : s.rest = w ++ rest) :
    BreaksAt p s.checkpoint ⟨cause, (s.pass w).position⟩ (s.pass w) := by
  have broken := h s.checkpoint hs.checkpoint hr
  rwa [s.checkpoint_pass h.ne_nil] at broken

theorem alt_left (h : Rejects cause p w rest) : Rejects cause (Parser.alt p q) w rest :=
  fun _ hs hr => (h.checkpoint hs hr).alt_left

theorem label (h : Rejects cause p w rest) (name : String) : Rejects cause (p.label name) w rest :=
  h.alt_left

theorem alt_right (h : Refuses p (w ++ rest)) (h' : Rejects cause q w rest) :
    Rejects cause (Parser.alt p q) w rest :=
  fun _ hs hr => .alt_right (h.refusesAt hs.checkpoint hr) (h'.checkpoint hs hr)

theorem choice {l k : List (Parser α)} (h : ∀ p ∈ l, Refuses p (w ++ rest))
    (h' : Rejects cause p w rest) : Rejects cause (Parser.choice (l ++ p :: k)) w rest :=
  choice_decided (C := fun p => Rejects cause p w rest) (fun _ => alt_left) alt_right h h'

theorem bind_left {f : α → Parser β} (h : Rejects cause p w rest) :
    Rejects cause (p.bind f) w rest := fun s hs hr => (h s hs hr).bind_left

theorem map (h : Rejects cause p w rest) (f : α → β) : Rejects cause (Parser.map f p) w rest :=
  fun s hs hr => (h s hs hr).map f

theorem bind_right {f : α → Parser β} (h : Reads p v (w ++ rest) a)
    (h' : Rejects cause (f a) w rest) : Rejects cause (p.bind f) (v ++ w) rest := by
  intro s hs hr
  rw [List.append_assoc] at hr
  rw [pass_append]
  exact .bind_right (h s hs hr trivial) (h' _ (hs.pass hr) (rest_pass hr))

theorem then_ {q : Parser β} (h : Reads p v (w ++ rest) a) (h' : Rejects cause q w rest) :
    Rejects cause (p.then_ q) (v ++ w) rest := bind_right h h'

theorem bind_fail {f : α → Parser β} (hw : w ≠ []) (h : Reads p w rest a)
    (hf : f a = fail cause) : Rejects cause (p.bind f) w rest := by
  intro s hs hr
  refine .bind_right (h s hs hr trivial) ?_
  rw [hf]
  exact ⟨rfl, consumed_pass s hw⟩

theorem many (h : Rejects cause p w rest) : Rejects cause (Parser.many p) w rest :=
  fun _ hs hr => (h.checkpoint hs hr).many

end Rejects

theorem reads_endOfInput : Reads endOfInput [] [] () := by
  intro s hs hr _
  have hend : s.atEnd = true := by rw [hs.atEnd, hr]; rfl
  rw [pass_nil]
  exact if_pos hend

theorem Reads.notFollowedBy {p : Parser α} (h : Fails p rest) :
    Reads (Parser.notFollowedBy p) [] rest () := by
  intro s hs hr _
  obtain ⟨e, t, hp, hd⟩ := h s hs hr
  rw [Parser.notFollowedBy, hp, pass_nil]
  simp only [rewindFrom_eq_self hd]

theorem Refuses.notFollowedBy {p : Parser α} (h : Reads p v rest a) :
    Refuses (Parser.notFollowedBy p) (v ++ rest) := by
  intro s hs hr
  refine ⟨⟨.negated, s.position⟩, s.rewindFrom (s.pass v), ?_, rfl, rfl⟩
  rw [Parser.notFollowedBy, h s hs hr trivial]

end Parser

end ContextRoles.Parsing
