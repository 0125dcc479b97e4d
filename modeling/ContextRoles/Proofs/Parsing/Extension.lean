import ContextRoles.Proofs.Parsing.Reading

/-! # Runs on a text that goes on

What a parser does on a text alone it also does where more text follows, as long as the text behind
does not go on with what was read. This is carried along the combinators, for successes and for
refusals, so a rule that accepts a text by itself reads it in front of another one.
-/

namespace ContextRoles.Parsing

def Outcome.complete? {α : Type} : Outcome α → Option α
  | success a t => if t.rest.isEmpty then some a else none
  | failure _ _ => none
  | stalled => none

namespace Parser

open State

variable {α β : Type} {p q : Parser α} {Q M L : List Char → Prop} {g tail z : List Char}

section Flag

/-- The flag stays set, and a success without it has read nothing. -/
def Honest (p : Parser α) : Prop :=
  ∀ s, (p s).EndsIn (fun t => s.consumed = true → t.consumed = true) ∧
    ∀ a t, p s = .success a t → t.consumed = false → t.rest = s.rest

namespace Honest

variable {s t : State}

theorem keeps_success {a : α} (h : Honest p) (hr : p s = .success a t) (hs : s.consumed = true) :
    t.consumed = true := by
  have := (h s).1
  rw [hr] at this
  exact this hs

theorem keeps_failure {e : ParseError} (h : Honest p) (hr : p s = .failure e t)
    (hs : s.consumed = true) : t.consumed = true := by
  have := (h s).1
  rw [hr] at this
  exact this hs

theorem still {a : α} (h : Honest p) (hr : p s = .success a t) (ht : t.consumed = false) :
    t.rest = s.rest := (h s).2 a t hr ht

theorem unset {a : α} (h : Honest p) (hr : p s = .success a t) (ht : t.consumed = false) :
    s.consumed = false := by
  cases hs : s.consumed with
  | false => rfl
  | true => simp [h.keeps_success hr hs] at ht

theorem rest_failure {e : ParseError} : ∀ (a : α) u,
    Outcome.failure e t = .success a u → u.consumed = false → u.rest = s.rest := by
  rintro a u ⟨⟩

theorem rest_stalled : ∀ (a : α) u,
    Outcome.stalled = .success a u → u.consumed = false → u.rest = s.rest := by
  rintro a u ⟨⟩

theorem of_same (h : ∀ s, (p s).EndsIn (· = s)) : Honest p := by
  intro s
  have hs := h s
  constructor
  · exact hs.mono fun t ht => ht ▸ id
  · rintro a t hr -
    rw [hr] at hs
    exact hs ▸ rfl

theorem of_set (h : ∀ s, (p s).EndsIn fun t => t = s ∨ t.consumed = true) : Honest p := by
  intro s
  have hs := h s
  constructor
  · refine hs.mono fun t ht hc => ?_
    rcases ht with rfl | ht
    · exact hc
    · exact ht
  · intro a t hr hc
    rw [hr] at hs
    rcases hs with rfl | ht
    · rfl
    · simp [ht] at hc

theorem bind {f : α → Parser β} (h : Honest p) (h' : ∀ a, Honest (f a)) : Honest (p.bind f) := by
  intro s
  constructor
  · simp only [Parser.bind]
    cases hr : p s with
    | success a t => exact (h' a t).1.mono fun u hu hs => hu (h.keeps_success hr hs)
    | failure e t => exact h.keeps_failure hr
    | stalled => trivial
  · intro b u hr hc
    obtain ⟨a, t, ha, hb⟩ := bind_eq_success.mp hr
    rw [(h' a).still hb hc, h.still ha ((h' a).unset hb hc)]

theorem merged {r : Outcome α} (s : State)
    (h : ∀ a t, r = .success a t → t.consumed = false → t.rest = s.rest) :
    (r.merge s.consumed).EndsIn (fun t => s.consumed = true → t.consumed = true) ∧
      ∀ a t, r.merge s.consumed = .success a t → t.consumed = false → t.rest = s.rest := by
  cases r with
  | success a t =>
    refine ⟨fun hs => by simp [State.withConsumed, hs], ?_⟩
    rintro b u ⟨⟩ hc
    exact h a t rfl (by simpa [State.withConsumed] using (Bool.or_eq_false_iff.mp hc).2)
  | failure e t => exact ⟨fun hs => by simp [State.withConsumed, hs], rest_failure⟩
  | stalled => exact ⟨trivial, rest_stalled⟩

theorem alt (h : Honest p) (h' : Honest q) : Honest (Parser.alt p q) := by
  refine fun s => merged s fun a t hr hc => ?_
  cases hp : p s.checkpoint with
  | success b u =>
    rw [hp] at hr
    cases hr
    exact (h.still hp hc :)
  | failure e u =>
    simp only [hp] at hr
    split at hr
    · cases hr
    · exact (h'.still hr hc :)
  | stalled => simp [hp] at hr

theorem attempt (h : Honest p) : Honest (Parser.attempt p) := by
  intro s
  simp only [Parser.attempt]
  cases hr : p s with
  | success a t =>
    refine ⟨h.keeps_success hr, ?_⟩
    rintro b u ⟨⟩
    exact h.still hr
  | failure e t => exact ⟨id, rest_failure⟩
  | stalled => exact ⟨trivial, rest_stalled⟩

theorem furthest {ps : List (Parser α)} (h : ∀ p ∈ ps, Honest p) :
    Honest (Parser.furthest ps) := by
  intro s
  refine merged s fun a t hr hc => ?_
  have hstill : t.rest = s.checkpoint.rest :=
    furthest_go_induction (motive := fun s => t.rest = s.rest) (fun hp hr => (h _ hp).still hr hc)
      (fun _ _ ih => ih) hr
  exact hstill

theorem manyFrom (p : Parser α) (values : List α) (s : State) :
    (Parser.manyFrom p values s).EndsIn (fun t => s.consumed = true → t.consumed = true) ∧
      ∀ as t, Parser.manyFrom p values s = .success as t → t.consumed = false →
        t.rest = s.rest := by
  induction values, s using Parser.manyFrom.induct p with
  | case1 values s e t hr hc =>
    rw [Parser.manyFrom]
    simp only [hr, hc, if_true]
    exact ⟨fun _ => hc, rest_failure⟩
  | case2 values s e t hr hc =>
    rw [Parser.manyFrom]
    simp only [hr, hc]
    refine ⟨id, ?_⟩
    rintro as u ⟨⟩ -
    rfl
  | case3 values s a t hr hlt ih =>
    rw [Parser.manyFrom]
    simp only [hr, hlt, if_true]
    refine ⟨ih.1.mono fun u hu _ => hu rfl, fun as u hu hc => ?_⟩
    have hset := ih.1
    rw [hu] at hset
    simp [hset rfl] at hc
  | case4 values s a t hr hlt =>
    rw [Parser.manyFrom]
    simp only [hr, hlt, if_false]
    exact ⟨trivial, rest_stalled⟩
  | case5 values s hr =>
    rw [Parser.manyFrom]
    simp only [hr]
    exact ⟨trivial, rest_stalled⟩

theorem lookahead (h : Honest p) : Honest (Parser.lookahead p) := by
  intro s
  simp only [Parser.lookahead]
  cases hr : p s with
  | success a t => exact ⟨id, by rintro b u ⟨⟩ -; rfl⟩
  | failure e t => exact ⟨h.keeps_failure hr, rest_failure⟩
  | stalled => exact ⟨trivial, rest_stalled⟩

theorem notFollowedBy (p : Parser α) : Honest (Parser.notFollowedBy p) := by
  intro s
  simp only [Parser.notFollowedBy]
  cases hr : p s with
  | success a t => exact ⟨id, rest_failure⟩
  | failure e t => exact ⟨id, by rintro b u ⟨⟩ -; rfl⟩
  | stalled => exact ⟨trivial, rest_stalled⟩

theorem withPosition (h : Honest p) : Honest (Parser.withPosition p) := by
  intro s
  have hs := h (s.withReference s.position)
  constructor
  · exact .mapState (hs.1.mono fun t ht hc => ht hc)
  · intro a t hr hc
    obtain ⟨u, hu, rfl⟩ := mapState_eq_success.mp hr
    exact (hs.2 a u hu hc :)

theorem indentedBlock (h : Honest (block p)) : Honest (Parser.indentedBlock p) := by
  intro s
  simp only [Parser.indentedBlock]
  split
  next opened ho =>
    have hflag : opened.consumed = s.consumed ∧ opened.rest = s.rest := by
      simp only [indented] at ho
      split at ho
      · cases ho
      · cases ho
        exact ⟨rfl, rfl⟩
    cases hr : block p opened with
    | success values t =>
      have hkeep := h.keeps_success hr
      rw [hflag.1] at hkeep
      dsimp only
      split
      · exact ⟨hkeep, rest_failure⟩
      · refine ⟨hkeep, ?_⟩
        rintro as u ⟨⟩ hc
        rw [h.still hr hc, hflag.2]
    | failure e t =>
      have hkeep := h.keeps_failure hr
      rw [hflag.1] at hkeep
      exact ⟨hkeep, rest_failure⟩
    | stalled => exact ⟨trivial, rest_stalled⟩
  · exact ⟨id, by rintro as u ⟨⟩ -; rfl⟩

theorem primitive (h : Primitive p) : Honest p := by
  cases h with
  | satisfy accepts =>
    refine of_set fun s => ?_
    simp only [Parser.satisfy]
    split
    · exact .inl rfl
    · split
      · exact .inr rfl
      · exact .inl rfl
  | string expected =>
    refine of_set fun s => ?_
    simp only [Parser.string]
    split
    · exact .inr rfl
    · exact .inl rfl
  | blockComment lang =>
    refine of_set fun s => ?_
    simp only [Lexeme.Language.blockComment]
    split
    · split <;> exact .inr rfl
    · exact .inl rfl
  | indented =>
    intro s
    simp only [Parser.indented]
    split
    · exact ⟨id, rest_failure⟩
    · exact ⟨id, by rintro a t ⟨⟩ -; rfl⟩
  | stalled => exact fun _ => ⟨trivial, rest_stalled⟩
  | pure a => exact of_same fun _ => rfl
  | fail cause => exact of_same fun _ => rfl
  | getPosition => exact of_same fun _ => rfl
  | getReference => exact of_same fun _ => rfl
  | endOfInput =>
    refine of_same fun s => ?_
    simp only [Parser.endOfInput]
    split <;> rfl
  | sameLine =>
    refine of_same fun s => ?_
    simp only [Parser.sameLine]
    split <;> rfl
  | checkIndent =>
    refine of_same fun s => ?_
    simp only [Parser.checkIndent]
    split <;> rfl

end Honest

theorem Built.honest (h : Plain p) : Honest p := by
  induction h with
  | extra h => exact h.elim
  | primitive h => exact .primitive h
  | bind _ _ ih ih' => exact ih.bind ih'
  | alt _ _ ih ih' => exact ih.alt ih'
  | attempt _ ih => exact ih.attempt
  | furthest _ ih => exact .furthest ih
  | many _ _ => exact Honest.manyFrom _ []
  | lookahead _ ih => exact ih.lookahead
  | notFollowedBy _ _ => exact .notFollowedBy _
  | withPosition _ ih => exact ih.withPosition
  | indentedBlock _ ih => exact ih.indentedBlock
  | atRemaining _ ih => exact fun s => ih s.remaining s

end Flag

section Definitions

/-- A success that leaves a rest with the property `L` is one where more text follows. There the
parser reads `g` along and leaves `tail`. -/
def Extends (Q L : List Char → Prop) (g tail : List Char) (p : Parser α) : Prop :=
  ∀ ⦃s a t⦄, s.Sound → Q s.rest → p s = .success a t → L t.rest →
    ∃ w, s.rest = w ++ t.rest ∧ Reads p (w ++ g) (t.rest ++ tail) a

/-- A failure that has read nothing is one where more text follows. -/
def StillRefuses (Q : List Char → Prop) (z : List Char) (p : Parser α) : Prop :=
  ∀ ⦃s e t⦄, s.Sound → Q s.rest → s.consumed = false → p s = .failure e t →
    t.consumed = false → Refuses p (s.rest ++ z)

/-- Both, for runs on texts with a property that are left with the same property. -/
structure Carries (Q : List Char → Prop) (z : List Char) (p : Parser α) : Prop where
  plain : Plain p
  extends_ : Extends Q Q [] z p
  refuses : StillRefuses Q z p

end Definitions

/-- A literal that ends inside a text, or where the text goes on with none of its characters. -/
theorem prefix_of_prefix_append {e w t : List Char} (h : e <+: w ++ t)
    (ht : ∀ c ∈ t.head?, c ∉ e) : e <+: w := by
  rcases List.prefix_or_prefix_of_prefix h (List.prefix_append w t) with h' | ⟨u, rfl⟩
  · exact h'
  · rw [List.prefix_append_right_inj] at h
    cases u with
    | nil => simp
    | cons c u =>
      obtain ⟨r, rfl⟩ := h
      exact absurd (by simp) (ht c rfl)

theorem Framed.upward {s t : State} {a : α} (h : Framed p) (hr : p s = .success a t)
    (hL : ∀ w l, L l → L (w ++ l)) (ht : L t.rest) : L s.rest := by
  obtain ⟨w, hw, -, -⟩ := (h.success hr).reads
  exact hw ▸ hL w _ ht

namespace StillRefuses

theorem pure (a : α) : StillRefuses Q z (Parser.pure a) := by
  rintro s e t hs hQ hc ⟨⟩

theorem fail (cause : Cause) : StillRefuses Q z (Parser.fail cause : Parser α) :=
  fun _ _ _ _ _ _ _ _ => .fail cause

theorem bind {f : α → Parser β} (hp : Plain p) (hf : ∀ a, Plain (f a))
    (h : StillRefuses Q z p) (h' : Extends Q Q [] z p) (h'' : ∀ a, StillRefuses Q z (f a)) :
    StillRefuses Q z (p.bind f) := by
  intro s e t hs hQ hc hr ht
  simp only [Parser.bind] at hr
  cases hp' : p s with
  | failure e' u =>
    simp only [hp', Outcome.failure.injEq] at hr
    obtain ⟨rfl, rfl⟩ := hr
    exact (h hs hQ hc hp' ht).bind
  | stalled => simp [hp'] at hr
  | success a u =>
    simp only [hp'] at hr
    have hcu : u.consumed = false := by
      cases hset : u.consumed with
      | false => rfl
      | true => simp [(hf a).honest.keeps_failure hr hset] at ht
    have hrest := hp.honest.still hp' hcu
    have hQu : Q u.rest := hrest ▸ hQ
    obtain ⟨w, hw, hreads⟩ := h' hs hQ hp' hQu
    obtain rfl : w = [] := by simpa [hrest] using hw
    have refused := h'' a ((hp.framed_plain.success hp').sound hs) hQu hcu hr ht
    rw [List.append_nil, hrest] at hreads
    rw [hrest] at refused
    exact .bind_nil hreads refused

theorem bind_left {f : α → Parser β} (hc : Consuming p) (hp : Plain p) (hf : ∀ a, Plain (f a))
    (h : StillRefuses Q z p) : StillRefuses Q z (p.bind f) := by
  intro s e t hs hQ hcs hr ht
  simp only [Parser.bind] at hr
  cases hp' : p s with
  | failure e' u =>
    simp only [hp', Outcome.failure.injEq] at hr
    obtain ⟨rfl, rfl⟩ := hr
    exact (h hs hQ hcs hp' ht).bind
  | stalled => simp [hp'] at hr
  | success a u =>
    simp only [hp'] at hr
    cases hset : u.consumed with
    | false =>
      have hlt := hc hs hp'
      simp [hp.honest.still hp' hset] at hlt
    | true => simp [(hf a).honest.keeps_failure hr hset] at ht

theorem map (h : StillRefuses Q z p) (f : α → β) : StillRefuses Q z (Parser.map f p) := by
  intro s e t hs hQ hc hr ht
  have hp : p s = .failure e t := by
    simp only [Parser.map] at hr
    cases hp : p s <;> simp_all [Outcome.map]
  exact (h hs hQ hc hp ht).map f

theorem alt (h : StillRefuses Q z p) (h' : StillRefuses Q z q) :
    StillRefuses Q z (Parser.alt p q) := by
  intro s e t hs hQ hc hr ht
  simp only [Parser.alt] at hr
  cases hp : p s.checkpoint with
  | success a u => simp [hp, Outcome.merge, Outcome.mapState] at hr
  | stalled => simp [hp, Outcome.merge, Outcome.mapState] at hr
  | failure e' u =>
    simp only [hp] at hr
    split at hr
    next hset =>
      cases hr
      simp [State.withConsumed, hset] at ht
    next hset =>
      cases hq : q (s.checkpoint.rewindFrom u) with
      | success a v => simp [hq, Outcome.merge, Outcome.mapState] at hr
      | stalled => simp [hq, Outcome.merge, Outcome.mapState] at hr
      | failure e'' v =>
        simp only [hq, Outcome.merge, Outcome.mapState, Outcome.failure.injEq] at hr
        obtain ⟨-, rfl⟩ := hr
        have hv : v.consumed = false := (Bool.or_eq_false_iff.mp ht).2
        have refused : Refuses p (s.checkpoint.rest ++ z) :=
          h hs.checkpoint hQ rfl hp (by simpa using hset)
        have refused' : Refuses q ((s.checkpoint.rewindFrom u).rest ++ z) :=
          h' (hs.checkpoint.rewindFrom u) hQ rfl hq hv
        exact refused.alt refused'

theorem label (h : StillRefuses Q z p) (name : String) : StillRefuses Q z (p.label name) :=
  h.alt (fail _)

theorem choice {ps : List (Parser α)} (h : ∀ p ∈ ps, StillRefuses Q z p) :
    StillRefuses Q z (Parser.choice ps) :=
  choice_induction (fail _) (fun _ _ => alt) h

theorem manyFrom (p : Parser α) (values : List α) : StillRefuses Q z (Parser.manyFrom p values) := by
  intro s e t hs hQ hc hr ht
  rw [manyFrom_failure hr] at ht
  cases ht

theorem satisfy {accepts : Char → Bool} (h : Q [] → ∀ c ∈ z.head?, accepts c = false) :
    StillRefuses Q z (Parser.satisfy accepts) := by
  intro s e t hs hQ hc hr ht
  refine .satisfy fun c hm => ?_
  simp only [Parser.satisfy] at hr
  split at hr
  next hrest =>
    rw [hrest] at hm hQ
    exact h hQ c hm
  next d rest hrest =>
    rw [hrest] at hm
    split at hr
    · cases hr
    next hd =>
      cases hm
      simpa using hd

theorem string {expected : String} (h : ∀ c ∈ z.head?, c ∉ expected.toList) :
    StillRefuses Q z (Parser.string expected) := by
  intro s e t hs hQ hc hr ht
  refine .string fun hprefix => ?_
  have hinside : expected.toList <+: s.rest := prefix_of_prefix_append hprefix h
  simp only [Parser.string] at hr
  split at hr
  · cases hr
  next hstart => exact hstart (startsWith_iff.mpr ⟨Nat.le.intro hs, hinside⟩)

theorem attempt_string {expected : String} (h : ∀ c ∈ z.head?, c ∉ expected.toList) :
    StillRefuses Q z (Parser.attempt (Parser.string expected)) := by
  intro s e t hs hQ hc hr ht
  simp only [Parser.attempt] at hr
  cases hp : Parser.string expected s with
  | success x u => simp [hp] at hr
  | stalled => simp [hp] at hr
  | failure e' u =>
    have hcu : u.consumed = false := by
      simp only [Parser.string] at hp
      split at hp
      · cases hp
      · cases hp
        exact hc
    exact .attempt (string h hs hQ hc hp hcu).fails

end StillRefuses

namespace Extends

theorem mono {R N : List Char → Prop} (h : Extends Q L g tail p) (hRQ : ∀ l, R l → Q l)
    (hNL : ∀ l, N l → L l) : Extends R N g tail p :=
  fun _ _ _ hs hR hr ht => h hs (hRQ _ hR) hr (hNL _ ht)

theorem pure (a : α) : Extends Q L [] z (Parser.pure a) := by
  rintro s b t hs hQ ⟨⟩ -
  exact ⟨[], rfl, ReadsIf.pure a⟩

theorem fail (cause : Cause) : Extends Q L g tail (Parser.fail cause : Parser α) := by
  rintro s b t hs hQ ⟨⟩

theorem bind {f : α → Parser β} (hp : Framed p) (h : Extends Q M [] (g ++ tail) p)
    (h' : ∀ a, Extends M L g tail (f a))
    (hM : ∀ ⦃a s b t⦄, s.Sound → f a s = .success b t → L t.rest → M s.rest)
    (hL : ∀ l, L l → l ++ g = g ++ l) : Extends Q L g tail (p.bind f) := by
  intro s b t hs hQ hr ht
  obtain ⟨a, u, hu, hb⟩ := bind_eq_success.mp hr
  have hus := (hp.success hu).sound hs
  have hmid := hM hus hb ht
  obtain ⟨v, hv, hreads⟩ := h hs hQ hu hmid
  obtain ⟨w, hw, hreads'⟩ := h' a hus hmid hb ht
  refine ⟨v ++ w, by rw [hv, hw, List.append_assoc], ?_⟩
  have hrest : u.rest ++ (g ++ tail) = w ++ g ++ (t.rest ++ tail) := by
    rw [hw, List.append_assoc, ← List.append_assoc t.rest, hL _ ht]
    simp
  rw [List.append_nil, hrest] at hreads
  rw [List.append_assoc]
  exact hreads.bind hreads'

theorem map (h : Extends Q L g tail p) (f : α → β) : Extends Q L g tail (Parser.map f p) := by
  intro s b t hs hQ hr ht
  obtain ⟨a, ha, rfl⟩ := map_eq_success.mp hr
  obtain ⟨w, hw, hreads⟩ := h hs hQ ha ht
  exact ⟨w, hw, hreads.map f⟩

theorem alt (h : Extends Q L g tail p) (hp : StillRefuses Q (g ++ tail) p)
    (h' : Extends Q L g tail q) (hL : ∀ l, L l → l ++ g = g ++ l) :
    Extends Q L g tail (Parser.alt p q) := by
  intro s a t hs hQ hr ht
  rcases alt_success hr with ⟨u, hu, rfl⟩ | ⟨e, v, u, hv, hc, hu, rfl⟩
  · obtain ⟨w, hw, hreads⟩ := h hs.checkpoint hQ hu ht
    exact ⟨w, hw, hreads.alt_left⟩
  · have refused := hp hs.checkpoint hQ rfl hv hc
    obtain ⟨w, hw, hreads⟩ := h' (hs.checkpoint.rewindFrom v) hQ hu ht
    refine ⟨w, hw, .alt_right ?_ hreads⟩
    have hrest : s.checkpoint.rest ++ (g ++ tail) = w ++ g ++ (u.rest ++ tail) := by
      have hw' : s.checkpoint.rest = w ++ u.rest := hw
      have hswap : u.rest ++ g = g ++ u.rest := hL _ ht
      rw [hw', List.append_assoc, ← List.append_assoc u.rest, hswap]
      simp
    exact hrest ▸ refused

theorem label (h : Extends Q L g tail p) (name : String) : Extends Q L g tail (p.label name) := by
  intro s a t hs hQ hr ht
  rcases alt_success hr with ⟨u, hu, rfl⟩ | ⟨e, v, u, -, -, ⟨⟩, -⟩
  obtain ⟨w, hw, hreads⟩ := h hs.checkpoint hQ hu ht
  exact ⟨w, hw, hreads.label name⟩

theorem attempt (h : Extends Q L g tail p) : Extends Q L g tail (Parser.attempt p) := by
  intro s a t hs hQ hr ht
  simp only [Parser.attempt] at hr
  cases hp : p s with
  | success b u =>
    simp only [hp, Outcome.success.injEq] at hr
    obtain ⟨rfl, rfl⟩ := hr
    obtain ⟨w, hw, hreads⟩ := h hs hQ hp ht
    exact ⟨w, hw, hreads.attempt⟩
  | failure e u => simp [hp] at hr
  | stalled => simp [hp] at hr

theorem satisfy (accepts : Char → Bool) : Extends Q L [] z (Parser.satisfy accepts) := by
  intro s c t hs hQ hr ht
  simp only [Parser.satisfy] at hr
  split at hr
  · cases hr
  next d rest hrest =>
    split at hr
    next hd =>
      cases hr
      exact ⟨[c], by simp [State.advance, hrest], .satisfy hd⟩
    · cases hr

theorem string {expected : String} (h : expected ≠ "") :
    Extends Q L [] z (Parser.string expected) := by
  intro s x t hs hQ hr ht
  simp only [Parser.string] at hr
  split at hr
  next hw =>
    cases hr
    obtain ⟨rest, hrest⟩ := (startsWith_iff.mp hw).2
    refine ⟨expected.toList, by simp [State.advance, ← hrest, ← String.length_toList], ?_⟩
    rw [List.append_nil]
    exact .string h
  · cases hr

theorem many (hp : Framed p) (h : Extends Q Q [] z p) (hr : StillRefuses Q z p)
    (hQ : ∀ w l, Q l → Q (w ++ l)) : Extends Q Q [] z (Parser.many p) := by
  intro s as t hs _ hm ht
  unfold Parser.many at hm
  induction hn : s.remaining using Nat.strongRecOn generalizing s as with
  | _ n ih =>
    rw [manyFrom] at hm
    cases hu : p s.checkpoint with
    | failure e u =>
      simp only [hu] at hm
      split at hm
      · cases hm
      next hc =>
        cases hm
        have refused : Refuses p (s.checkpoint.rest ++ z) :=
          hr hs.checkpoint ht rfl hu (by simpa using hc)
        exact ⟨[], rfl, .many_nil refused⟩
    | stalled => simp [hu] at hm
    | success a u =>
      simp only [hu] at hm
      split at hm
      next hlt =>
        have hus : (u.withConsumed true).Sound := (hp.success hu).sound hs.checkpoint
        rw [Reads.manyFrom_eq] at hm
        obtain ⟨bs, hb, rfl⟩ := map_eq_success.mp (show Parser.map _ (Parser.many p) _ = _ from hm)
        have hQu : Q (u.withConsumed true).rest :=
          Framed.upward (p := Parser.many p) (hp.manyFrom []) hb hQ ht
        obtain ⟨v, hv, hreads⟩ := h hs.checkpoint (hp.upward hu hQ hQu) hu hQu
        obtain ⟨w, hw, hrounds⟩ := ih _ (hn ▸ hlt) hus hQu hb rfl
        have hw' : u.rest = w ++ t.rest := hw
        have hne : v ≠ [] := by
          rintro rfl
          have hsame : s.rest.length = u.rest.length := congrArg List.length hv
          have hsound : u.remaining = u.rest.length := State.Sound.remaining hus
          rw [hs.remaining, hsound] at hlt
          omega
        refine ⟨v ++ w, by rw [List.append_assoc, ← hw']; exact hv, ?_⟩
        rw [List.append_nil] at hreads hrounds ⊢
        rw [hw', List.append_assoc] at hreads
        exact .many_cons hne hreads hrounds
      · cases hm

theorem choice {ps : List (Parser α)} (h : ∀ p ∈ ps, Extends Q L g tail p)
    (hr : ∀ p ∈ ps, StillRefuses Q (g ++ tail) p) (hL : ∀ l, L l → l ++ g = g ++ l) :
    Extends Q L g tail (Parser.choice ps) := by
  -- An alternation extends where its first parser goes on refusing, so the two are kept together.
  have both : Extends Q L g tail (Parser.choice ps) ∧ StillRefuses Q (g ++ tail) (Parser.choice ps) :=
    choice_induction (C := fun p => Extends Q L g tail p ∧ StillRefuses Q (g ++ tail) p)
      ⟨fail _, .fail _⟩ (fun _ _ hp hq => ⟨hp.1.alt hp.2 hq.1 hL, hp.2.alt hq.2⟩)
      fun p hp => ⟨h p hp, hr p hp⟩
  exact both.1

end Extends

namespace Carries

variable {R : List Char → Prop}

theorem mono (h : Carries Q z p) (hRQ : ∀ l, R l → Q l) : Carries R z p :=
  ⟨h.plain, h.extends_.mono hRQ hRQ, fun _ _ _ hs hR => h.refuses hs (hRQ _ hR)⟩

theorem pure (a : α) : Carries Q z (Parser.pure a) := ⟨.pure a, .pure a, .pure a⟩

theorem fail (cause : Cause) : Carries Q z (Parser.fail cause : Parser α) :=
  ⟨.fail cause, .fail cause, .fail cause⟩

theorem require (a : Option α) : Carries Q z (Parser.require a) := by
  cases a with
  | some a => exact pure a
  | none => exact ⟨.require _, nofun, nofun⟩

theorem satisfy {accepts : Char → Bool} (h : Q [] → ∀ c ∈ z.head?, accepts c = false) :
    Carries Q z (Parser.satisfy accepts) := ⟨.satisfy _, .satisfy _, .satisfy h⟩

theorem attempt_string {expected : String} (hn : expected ≠ "")
    (h : ∀ c ∈ z.head?, c ∉ expected.toList) :
    Carries Q z (Parser.attempt (Parser.string expected)) :=
  ⟨.attempt (.string _), (Extends.string hn).attempt, .attempt_string h⟩

theorem map (h : Carries Q z p) (f : α → β) : Carries Q z (Parser.map f p) :=
  ⟨h.plain.map f, h.extends_.map f, h.refuses.map f⟩

theorem alt (h : Carries Q z p) (h' : Carries Q z q) : Carries Q z (Parser.alt p q) :=
  ⟨.alt h.plain h'.plain, h.extends_.alt h.refuses h'.extends_ (by simp), h.refuses.alt h'.refuses⟩

theorem label (h : Carries Q z p) (name : String) : Carries Q z (p.label name) := h.alt (fail _)

theorem char {c : Char} (h : Q [] → c ∉ z.head?) : Carries Q z (Parser.char c) :=
  (satisfy fun hQ d hd => by
    rw [beq_eq_false_iff_ne]
    rintro rfl
    exact h hQ hd).label _

theorem choice {ps : List (Parser α)} (h : ∀ p ∈ ps, Carries Q z p) :
    Carries Q z (Parser.choice ps) :=
  ⟨.choice fun p hp => (h p hp).plain,
    .choice (fun p hp => (h p hp).extends_) (fun p hp => (h p hp).refuses) (by simp),
    .choice fun p hp => (h p hp).refuses⟩

variable (hQ : ∀ w l, Q l → Q (w ++ l))
include hQ

theorem bind {f : α → Parser β} (h : Carries Q z p) (h' : ∀ a, Carries Q z (f a)) :
    Carries Q z (p.bind f) :=
  ⟨.bind h.plain fun a => (h' a).plain,
    .bind h.plain.framed_plain h.extends_ (fun a => (h' a).extends_)
      (fun a _ _ _ _ hr ht => (h' a).plain.framed_plain.upward hr hQ ht) (by simp),
    .bind h.plain (fun a => (h' a).plain) h.refuses h.extends_ fun a => (h' a).refuses⟩

theorem then_ {q : Parser β} (h : Carries Q z p) (h' : Carries Q z q) :
    Carries Q z (p.then_ q) := bind hQ h fun _ => h'

theorem many (h : Carries Q z p) : Carries Q z (Parser.many p) :=
  ⟨.many h.plain, h.extends_.many h.plain.framed_plain h.refuses hQ, .manyFrom p []⟩

theorem some (h : Carries Q z p) : Carries Q z (Parser.some p) :=
  bind hQ h fun _ => (many hQ h).map _

end Carries

section Acceptance

/-- A rule accepts a text as a value when it reads all of it. -/
def Accepts (p : Parser α) (x : String) (a : α) : Prop :=
  (p (State.start x)).complete? = Option.some a

instance [DecidableEq α] (p : Parser α) (x : String) (a : α) : Decidable (Accepts p x a) :=
  inferInstanceAs (Decidable (_ = _))

variable {x : String} {a : α}

theorem accepts_iff : Accepts p x a ↔ ∃ t, p (State.start x) = .success a t ∧ t.rest = [] := by
  unfold Accepts Outcome.complete?
  cases p (State.start x) with
  | success b t =>
    dsimp only
    constructor
    · intro h
      split at h
      next hrest =>
        cases h
        exact ⟨t, rfl, by simpa using hrest⟩
      · cases h
    · rintro ⟨u, ⟨⟩, hu⟩
      rw [hu]
      rfl
  | failure e t => simp
  | stalled => simp

theorem Accepts.yields {V : α → Prop} (h : Accepts p x a) (hV : Yields p V) : V a := by
  obtain ⟨t, ht, -⟩ := accepts_iff.mp h
  exact hV ht

theorem Accepts.ne_empty (h : Accepts p x a) (hp : Consuming p) : x.toList ≠ [] := by
  obtain ⟨t, ht, -⟩ := accepts_iff.mp h
  have hlt : t.rest.length < x.toList.length := hp (sound_start x) ht
  intro hx
  simp [hx] at hlt

theorem Accepts.reads (h : Accepts p x a) (hQ : Q x.toList) (hL : L [])
    (he : Extends Q L g tail p) : Reads p (x.toList ++ g) tail a := by
  obtain ⟨t, ht, hrest⟩ := accepts_iff.mp h
  have hLt : L t.rest := hrest ▸ hL
  obtain ⟨w, hw, hreads⟩ := he (sound_start x) hQ ht hLt
  rw [hrest, List.append_nil] at hw
  have hw' : x.toList = w := hw
  rwa [hrest, List.nil_append, ← hw'] at hreads

end Acceptance

end Parser

end ContextRoles.Parsing
