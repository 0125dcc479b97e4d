import ContextRoles.Proofs.Parsing.Reach

/-! # Runs that come to a result

A parser is total when none of its runs stalls. A repetition is total when its body is total and reads
something whenever it succeeds, so totality and consumption are derived together, along the
combinators.
-/

namespace ContextRoles.Parsing.Parser

open State

variable {α β γ ι : Type} {p q : Parser α} {s t : State}

/-- No run on a text stalls. -/
def Total (p : Parser α) : Prop := ∀ s : State, s.Sound → p s ≠ .stalled

def Consuming (p : Parser α) : Prop :=
  ∀ ⦃s a t⦄, s.Sound → p s = .success a t → t.rest.length < s.rest.length

/-- Every success has a value with a property. -/
def Yields (p : Parser α) (V : α → Prop) : Prop := ∀ ⦃s a t⦄, p s = .success a t → V a

theorem bind_eq_success {f : α → Parser β} {b : β} {u : State} :
    p.bind f s = .success b u ↔ ∃ a t, p s = .success a t ∧ f a t = .success b u := by
  simp only [Parser.bind]
  constructor
  · intro h
    cases hr : p s with
    | success a t => exact ⟨a, t, rfl, by simpa [hr] using h⟩
    | failure e t => simp [hr] at h
    | stalled => simp [hr] at h
  · rintro ⟨a, t, hr, h⟩
    simpa [hr] using h

theorem bind_ne_stalled {f : α → Parser β} :
    p.bind f s ≠ .stalled ↔
      p s ≠ .stalled ∧ ∀ a t, p s = .success a t → f a t ≠ .stalled := by
  simp only [Parser.bind]
  cases p s <;> simp

theorem map_eq_success {f : α → β} {b : β} :
    Parser.map f p s = .success b t ↔ ∃ a, p s = .success a t ∧ f a = b := by
  rw [map_eq_bind, bind_eq_success]
  constructor
  · rintro ⟨a, u, hr, ⟨⟩⟩
    exact ⟨a, hr, rfl⟩
  · rintro ⟨a, hr, rfl⟩
    exact ⟨a, t, hr, rfl⟩

theorem checkIndent_then_eq (p : Parser α) (s : State) : (checkIndent.then_ p) s =
    if s.position.column = s.reference.column then p s
    else .failure ⟨.indentationMismatch, s.position⟩ s := by
  by_cases h : s.position.column = s.reference.column <;> simp [then_, Parser.bind, checkIndent, h]

theorem mapState_eq_success {r : Outcome α} {f : State → State} {a : α} :
    r.mapState f = .success a t ↔ ∃ u, r = .success a u ∧ f u = t := by
  constructor
  · intro h
    cases r with
    | success b u =>
      cases h
      exact ⟨u, rfl, rfl⟩
    | failure e u => cases h
    | stalled => cases h
  · rintro ⟨u, rfl, rfl⟩
    rfl

theorem require_eq_success {found : Option α} {a : α} :
    require found s = .success a t ↔ found = Option.some a ∧ s = t := by
  cases found <;> simp [require, Parser.pure]

/-- A success of an alternative is one of its first parser, or one of its second at the same place. -/
theorem alt_success {a : α} (h : alt p q s = .success a t) :
    (∃ u, p s.checkpoint = .success a u ∧ u.withConsumed (s.consumed || u.consumed) = t) ∨
      ∃ e v u, p s.checkpoint = .failure e v ∧ v.consumed = false ∧
        q (s.checkpoint.rewindFrom v) = .success a u ∧
          u.withConsumed (s.consumed || u.consumed) = t := by
  obtain ⟨u, hu, rfl⟩ := mapState_eq_success.mp h
  cases hr : p s.checkpoint with
  | success b v =>
    simp only [hr, Outcome.success.injEq] at hu
    obtain ⟨rfl, rfl⟩ := hu
    exact .inl ⟨v, rfl, rfl⟩
  | failure e v =>
    simp only [hr] at hu
    split at hu
    · cases hu
    next hc => exact .inr ⟨e, v, u, rfl, by simpa using hc, hu, rfl⟩
  | stalled => simp [hr] at hu

/-- What leads to a success of the furthest choice: one of its parsers succeeds, where those before it
have failed. -/
theorem furthest_go_induction {motive : State → Prop} {ps : List (Parser α)}
    {best : Option (ParseError × State)} {a : α}
    (taken : ∀ {p s}, p ∈ ps → p s = .success a t → motive s)
    (next : ∀ {p s e u}, p ∈ ps → p s = .failure e u → motive (s.rewindFrom u) → motive s)
    (hr : furthest.go ps best s = .success a t) : motive s := by
  induction ps generalizing best s with
  | nil => cases best <;> cases hr
  | cons p ps ih =>
    rw [furthest.go] at hr
    cases hp : p s with
    | success b u =>
      simp only [hp, Outcome.success.injEq] at hr
      obtain ⟨rfl, rfl⟩ := hr
      exact taken List.mem_cons_self hp
    | failure e u =>
      simp only [hp] at hr
      exact next List.mem_cons_self hp (ih (fun hq => taken (List.mem_cons_of_mem _ hq))
        (fun hq => next (List.mem_cons_of_mem _ hq)) hr)
    | stalled => simp [hp] at hr

/-- What leads to a success of a repetition: its rounds succeed, each with the values of those before it
in reverse, up to one that fails without reading anything. -/
theorem manyFrom_induction {motive : List α → State → Prop} {values as : List α}
    (ended : ∀ {values s e u}, p s.checkpoint = .failure e u → u.consumed = false →
      as = values.reverse → t = s.rewindFrom u → motive values s)
    (round : ∀ {values s a u}, p s.checkpoint = .success a u →
      motive (a :: values) (u.withConsumed true) → motive values s)
    (hr : manyFrom p values s = .success as t) : motive values s := by
  induction values, s using manyFrom.induct p with
  | case1 values s e u hu hc =>
    rw [manyFrom] at hr
    simp [hu, hc] at hr
  | case2 values s e u hu hc =>
    rw [manyFrom] at hr
    simp only [hu, hc] at hr
    cases hr
    exact ended hu (by simpa using hc) rfl rfl
  | case3 values s a u hu hlt ih =>
    rw [manyFrom] at hr
    simp only [hu, hlt, if_true] at hr
    exact round hu (ih hr)
  | case4 values s a u hu hlt =>
    rw [manyFrom] at hr
    simp [hu, hlt] at hr
  | case5 values s hu =>
    rw [manyFrom] at hr
    simp [hu] at hr

theorem manyFrom_failure {values : List α} {e : ParseError}
    (hr : manyFrom p values s = .failure e t) : t.consumed = true := by
  induction values, s using manyFrom.induct p with
  | case1 values s e' u hu hset =>
    rw [manyFrom] at hr
    simp only [hu, hset, if_true] at hr
    cases hr
    exact hset
  | case2 values s e' u hu hset =>
    rw [manyFrom] at hr
    simp [hu, hset] at hr
  | case3 values s a u hu hlt ih =>
    rw [manyFrom] at hr
    simp only [hu, hlt, if_true] at hr
    exact ih hr
  | case4 values s a u hu hlt =>
    rw [manyFrom] at hr
    simp [hu, hlt] at hr
  | case5 values s hu =>
    rw [manyFrom] at hr
    simp [hu] at hr

/-- Built from the primitives, total, and never successful in place: what a repetition may repeat. -/
structure Advancing (p : Parser α) : Prop where
  plain : Plain p
  total : Total p
  consuming : Consuming p

theorem Built.framed_plain (h : Plain p) : Framed p := h.framed False.elim

namespace Yields

variable {V : α → Prop} {W : β → Prop}

theorem bind {f : α → Parser β} (h : ∀ a, Yields (f a) W) : Yields (p.bind f) W := by
  intro s b u hr
  obtain ⟨a, t, -, hr'⟩ := bind_eq_success.mp hr
  exact h a hr'

theorem pure {a : α} (h : V a) : Yields (Parser.pure a) V := by
  rintro s b t ⟨⟩
  exact h

theorem alt (h : Yields p V) (h' : Yields q V) : Yields (Parser.alt p q) V := by
  intro s a t hr
  rcases alt_success hr with ⟨u, hu, -⟩ | ⟨e, v, u, -, -, hu, -⟩
  · exact h hu
  · exact h' hu

theorem attempt (h : Yields p V) : Yields (Parser.attempt p) V := by
  intro s a t hr
  simp only [Parser.attempt] at hr
  cases hp : p s with
  | success b u =>
    simp only [hp, Outcome.success.injEq] at hr
    exact hr.1 ▸ h hp
  | failure e u => simp [hp] at hr
  | stalled => simp [hp] at hr

theorem withPosition (h : Yields p V) : Yields (Parser.withPosition p) V := by
  intro s a t hr
  obtain ⟨u, hu, -⟩ := mapState_eq_success.mp hr
  exact h hu

theorem fail (cause : Cause) : Yields (Parser.fail cause) V := by
  rintro s a t ⟨⟩

theorem label (h : Yields p V) (name : String) : Yields (p.label name) V := h.alt (fail _)

theorem mono {W : α → Prop} (h : Yields p V) (hVW : ∀ a, V a → W a) : Yields p W :=
  fun _ _ _ hr => hVW _ (h hr)

theorem map {f : α → β} (h : Yields p V) (hf : ∀ a, V a → W (f a)) :
    Yields (Parser.map f p) W := by
  intro s b t hr
  obtain ⟨a, ha, rfl⟩ := map_eq_success.mp hr
  exact hf a (h ha)

theorem bind_left {f : α → Parser β} (h : Yields p V) (h' : ∀ a, V a → Yields (f a) W) :
    Yields (p.bind f) W := by
  intro s b u hr
  obtain ⟨a, t, ha, hr'⟩ := bind_eq_success.mp hr
  exact h' a (h ha) hr'

theorem skip {q : Parser β} (h : Yields p V) : Yields (p.skip q) V :=
  h.bind_left fun a ha => by
    intro s b t hr
    obtain ⟨-, -, rfl⟩ := map_eq_success.mp hr
    exact ha

theorem string (expected : String) : Yields (Parser.string expected) (· = expected) := by
  intro s a t hr
  simp only [Parser.string] at hr
  split at hr <;> cases hr
  rfl

theorem satisfy (accepts : Char → Bool) :
    Yields (Parser.satisfy accepts) fun c => accepts c = true := by
  intro s c t hr
  simp only [Parser.satisfy] at hr
  split at hr
  · cases hr
  · split at hr
    next h =>
      cases hr
      exact h
    · cases hr

theorem manyFrom (h : Yields p V) {values as : List α} (hv : ∀ a ∈ values, V a)
    (hr : Parser.manyFrom p values s = .success as t) : ∀ a ∈ as, V a := by
  refine manyFrom_induction (motive := fun values _ => (∀ a ∈ values, V a) → ∀ a ∈ as, V a)
    ?_ ?_ hr hv
  · rintro values s e u - - rfl - hv
    simpa using hv
  · intro values s a u hu ih hv
    exact ih (List.forall_mem_cons.mpr ⟨h hu, hv⟩)

theorem many (h : Yields p V) : Yields (Parser.many p) fun as => ∀ a ∈ as, V a :=
  fun _ _ _ hr => h.manyFrom (by simp) hr

theorem some (h : Yields p V) : Yields (Parser.some p) fun as => as ≠ [] ∧ ∀ a ∈ as, V a := by
  intro s as t hr
  obtain ⟨a, u, ha, hr⟩ := bind_eq_success.mp hr
  obtain ⟨bs, hbs, rfl⟩ := map_eq_success.mp hr
  exact ⟨by simp, by simpa using ⟨h ha, h.manyFrom (by simp) hbs⟩⟩

end Yields

namespace Consuming

theorem bind_left {f : α → Parser β} (h : Consuming p) (h' : ∀ a, Framed (f a)) :
    Consuming (p.bind f) := by
  intro s b u hs hr
  obtain ⟨a, t, ht, hu⟩ := bind_eq_success.mp hr
  exact Nat.lt_of_le_of_lt ((h' a).success hu).length_le (h hs ht)

theorem bind_right {f : α → Parser β} (h : Framed p) (h' : ∀ a, Consuming (f a)) :
    Consuming (p.bind f) := by
  intro s b u hs hr
  obtain ⟨a, t, ht, hu⟩ := bind_eq_success.mp hr
  have hst := h.success ht
  exact Nat.lt_of_lt_of_le (h' a (hst.sound hs) hu) hst.length_le

theorem map (h : Consuming p) (f : α → β) : Consuming (Parser.map f p) := by
  intro s b t hs hr
  obtain ⟨a, ha, -⟩ := map_eq_success.mp hr
  exact h hs ha

theorem alt (h : Consuming p) (h' : Consuming q) : Consuming (Parser.alt p q) := by
  intro s a t hs hr
  rcases alt_success hr with ⟨u, hu, rfl⟩ | ⟨e, v, u, -, -, hu, rfl⟩
  · exact (h hs.checkpoint hu :)
  · exact (h' (hs.checkpoint.rewindFrom v) hu :)

theorem fail (cause : Cause) : Consuming (Parser.fail cause : Parser α) := by
  rintro s a t - ⟨⟩

theorem label (h : Consuming p) (name : String) : Consuming (p.label name) := h.alt (fail _)

theorem attempt (h : Consuming p) : Consuming (Parser.attempt p) := by
  intro s a t hs hr
  simp only [Parser.attempt] at hr
  cases hp : p s with
  | success b u =>
    simp only [hp, Outcome.success.injEq] at hr
    obtain ⟨rfl, rfl⟩ := hr
    exact h hs hp
  | failure e u => simp [hp] at hr
  | stalled => simp [hp] at hr

theorem withPosition (h : Consuming p) : Consuming (Parser.withPosition p) := by
  intro s a t hs hr
  obtain ⟨u, hu, rfl⟩ := mapState_eq_success.mp hr
  have hw : (s.withReference s.position).Sound := hs
  exact (h hw hu :)

theorem satisfy (accepts : Char → Bool) : Consuming (Parser.satisfy accepts) := by
  intro s c t hs hr
  simp only [Parser.satisfy] at hr
  split at hr
  · cases hr
  next d rest hrest =>
    split at hr
    · cases hr
      simp [State.advance, hrest]
    · cases hr

theorem string {expected : String} (h : expected ≠ "") : Consuming (Parser.string expected) := by
  intro s c t hs hr
  simp only [Parser.string] at hr
  split at hr
  next hw =>
    cases hr
    have hle := (startsWith_iff.mp hw).2.length_le
    have hpos : 0 < expected.toList.length := by simpa [List.length_pos_iff] using h
    simp only [State.advance, List.length_drop, ← String.length_toList]
    omega
  · cases hr

theorem furthest_go {ps : List (Parser α)} (h : ∀ p ∈ ps, Consuming p)
    {best : Option (ParseError × State)} {a : α} (hs : s.Sound)
    (hr : Parser.furthest.go ps best s = .success a t) : t.rest.length < s.rest.length := by
  refine furthest_go_induction (motive := fun s => s.Sound → t.rest.length < s.rest.length) ?_ ?_ hr hs
  · intro p s hp hr hs
    exact h p hp hs hr
  · intro p s e u _ _ ih hs
    exact ih (hs.rewindFrom u)

theorem furthest {ps : List (Parser α)} (h : ∀ p ∈ ps, Consuming p) :
    Consuming (Parser.furthest ps) := by
  intro s a t hs hr
  obtain ⟨u, hu, rfl⟩ := mapState_eq_success.mp hr
  exact (furthest_go h hs.checkpoint hu :)

theorem choice {ps : List (Parser α)} (h : ∀ p ∈ ps, Consuming p) :
    Consuming (Parser.choice ps) :=
  choice_induction (fail _) (fun _ _ => alt) h

end Consuming

namespace Total

theorem pure (a : α) : Total (Parser.pure a) := by
  intro s _
  simp [Parser.pure]

theorem fail (cause : Cause) : Total (Parser.fail cause : Parser α) := by
  intro s _
  simp [Parser.fail]

theorem satisfy (accepts : Char → Bool) : Total (Parser.satisfy accepts) := by
  intro s _
  simp only [Parser.satisfy]
  split
  · simp
  · split <;> simp

theorem string (expected : String) : Total (Parser.string expected) := by
  intro s _
  simp only [Parser.string]
  split <;> simp

theorem bind {f : α → Parser β} (h : Total p) (hp : Framed p) (h' : ∀ a, Total (f a)) :
    Total (p.bind f) := fun s hs =>
  bind_ne_stalled.mpr ⟨h s hs, fun a t hr => h' a t ((hp.success hr).sound hs)⟩

theorem bind_of_yields {V : α → Prop} {f : α → Parser β} (h : Total p) (hp : Framed p)
    (hv : Yields p V) (h' : ∀ a, V a → Total (f a)) : Total (p.bind f) := fun s hs =>
  bind_ne_stalled.mpr ⟨h s hs, fun a t hr => h' a (hv hr) t ((hp.success hr).sound hs)⟩

theorem map (h : Total p) (f : α → β) : Total (Parser.map f p) := by
  intro s hs
  simp only [Parser.map, Outcome.map]
  have := h s hs
  cases hr : p s <;> simp_all

theorem then_ {q : Parser β} (h : Total p) (hp : Framed p) (h' : Total q) : Total (p.then_ q) :=
  h.bind hp fun _ => h'

theorem skip {q : Parser β} (h : Total p) (hp : Framed p) (h' : Total q) : Total (p.skip q) :=
  h.bind hp fun _ => h'.map _

theorem require {a : Option α} (h : a.isSome) : Total (Parser.require a) := by
  obtain ⟨b, rfl⟩ := Option.isSome_iff_exists.mp h
  exact pure b

theorem mapState {r : Outcome α} {f : State → State} (h : r ≠ .stalled) :
    r.mapState f ≠ .stalled := by
  cases r <;> simp_all [Outcome.mapState]

theorem alt (h : Total p) (h' : Total q) : Total (Parser.alt p q) := by
  intro s hs
  apply mapState
  cases hr : p s.checkpoint with
  | success a t => simp
  | failure e t =>
    dsimp only
    split
    · simp
    · exact h' _ (hs.checkpoint.rewindFrom t)
  | stalled => exact absurd hr (h _ hs.checkpoint)

theorem attempt (h : Total p) : Total (Parser.attempt p) := by
  intro s hs
  simp only [Parser.attempt]
  cases hr : p s with
  | success a t => simp
  | failure e t => simp
  | stalled => exact absurd hr (h s hs)

theorem label (h : Total p) (name : String) : Total (p.label name) := h.alt (fail _)

theorem option (h : Total p) (default : α) : Total (Parser.option default p) := h.alt (pure _)

theorem choice {ps : List (Parser α)} (h : ∀ p ∈ ps, Total p) : Total (Parser.choice ps) :=
  choice_induction (fail _) (fun _ _ => alt) h

theorem furthest_go {ps : List (Parser α)} (h : ∀ p ∈ ps, Total p)
    (best : Option (ParseError × State)) (hs : s.Sound) :
    Parser.furthest.go ps best s ≠ .stalled := by
  induction ps generalizing best s with
  | nil => cases best <;> simp [Parser.furthest.go]
  | cons p ps ih =>
    rw [List.forall_mem_cons] at h
    rw [Parser.furthest.go]
    cases hr : p s with
    | success a t => simp
    | failure e t => exact ih h.2 _ (hs.rewindFrom t)
    | stalled => exact absurd hr (h.1 s hs)

theorem furthest {ps : List (Parser α)} (h : ∀ p ∈ ps, Total p) : Total (Parser.furthest ps) :=
  fun _ hs => mapState (furthest_go h none hs.checkpoint)

/-- The rounds of a repetition end, each with less text left than the one before. -/
theorem manyFrom (h : Total p) (hp : Framed p) (hc : Consuming p) (values : List α) :
    Total (Parser.manyFrom p values) := by
  intro s hs
  induction values, s using Parser.manyFrom.induct p with
  | case1 values s e t hr hcons =>
    rw [Parser.manyFrom]
    simp [hr, hcons]
  | case2 values s e t hr hcons =>
    rw [Parser.manyFrom]
    simp [hr, hcons]
  | case3 values s a t hr hlt ih =>
    rw [Parser.manyFrom]
    simp only [hr, hlt, if_true]
    exact ih ((hp.success hr).sound hs)
  | case4 values s a t hr hlt =>
    have ht := (hp.success hr).sound hs
    refine absurd ?_ hlt
    rw [Sound.remaining ht, Sound.remaining hs]
    exact (hc hs.checkpoint hr :)
  | case5 values s hr => exact absurd hr (h _ hs.checkpoint)

theorem many (h : Total p) (hp : Framed p) (hc : Consuming p) : Total (Parser.many p) :=
  h.manyFrom hp hc []

theorem notFollowedBy (h : Total p) : Total (Parser.notFollowedBy p) := by
  intro s hs
  simp only [Parser.notFollowedBy]
  cases hr : p s with
  | success a t => simp
  | failure e t => simp
  | stalled => exact absurd hr (h s hs)

theorem withPosition (h : Total p) : Total (Parser.withPosition p) := fun s hs =>
  mapState (h (s.withReference s.position) hs)

theorem endOfInput : Total Parser.endOfInput := by
  intro s _
  simp only [Parser.endOfInput]
  split <;> simp

theorem indented : Total Parser.indented := by
  intro s _
  simp only [Parser.indented]
  split <;> simp

theorem sameLine : Total Parser.sameLine := by
  intro s _
  simp only [Parser.sameLine]
  split <;> simp

theorem checkIndent : Total Parser.checkIndent := by
  intro s _
  simp only [Parser.checkIndent]
  split <;> simp

theorem sameOrIndented : Total Parser.sameOrIndented := sameLine.alt indented

theorem block (h : Total p) (hp : Framed p) (hc : Consuming p) : Total (Parser.block p) :=
  have hi : Framed Parser.checkIndent := .primitive .checkIndent
  ((checkIndent.then_ hi h).many (hi.bind fun _ => hp) (.bind_right hi fun _ => hc)).withPosition

theorem indentedBlock (h : Total p) (hp : Framed p) (hc : Consuming p) :
    Total (Parser.indentedBlock p) := by
  intro s hs
  simp only [Parser.indentedBlock]
  split
  next opened ho =>
    have hb := h.block hp hc opened ((Framed.indented.success ho).sound hs)
    cases hr : Parser.block p opened with
    | success values t =>
      dsimp only
      split <;> simp
    | failure e t => simp
    | stalled => exact absurd hr hb
  · simp

theorem blockComment (lang : Lexeme.Language) : Total lang.blockComment := by
  intro s _
  simp only [Lexeme.Language.blockComment]
  split
  · split <;> simp
  · simp

theorem sequence {ps : List (Parser α)} (h : ∀ p ∈ ps, Total p) (hp : ∀ p ∈ ps, Framed p) :
    Total (Parser.sequence ps) := by
  induction ps with
  | nil => exact pure _
  | cons p ps ih =>
    rw [List.forall_mem_cons] at h hp
    exact h.1.bind hp.1 fun _ => (ih h.2 hp.2).map _

end Total

namespace Advancing

theorem framed (h : Advancing p) : Framed p := h.plain.framed_plain

theorem satisfy (accepts : Char → Bool) : Advancing (Parser.satisfy accepts) :=
  ⟨.satisfy _, .satisfy _, .satisfy _⟩

theorem label (h : Advancing p) (name : String) : Advancing (p.label name) :=
  ⟨h.plain.label _, h.total.label _, h.consuming.label _⟩

theorem char (c : Char) : Advancing (Parser.char c) := (satisfy _).label _

theorem map (h : Advancing p) (f : α → β) : Advancing (Parser.map f p) :=
  ⟨h.plain.map f, h.total.map f, h.consuming.map f⟩

theorem alt (h : Advancing p) (h' : Advancing q) : Advancing (Parser.alt p q) :=
  ⟨.alt h.plain h'.plain, h.total.alt h'.total, h.consuming.alt h'.consuming⟩

theorem attempt (h : Advancing p) : Advancing (Parser.attempt p) :=
  ⟨.attempt h.plain, h.total.attempt, h.consuming.attempt⟩

theorem choice {ps : List (Parser α)} (h : ∀ p ∈ ps, Advancing p) :
    Advancing (Parser.choice ps) :=
  ⟨.choice fun p hp => (h p hp).plain, .choice fun p hp => (h p hp).total,
    .choice fun p hp => (h p hp).consuming⟩

theorem bind {f : α → Parser β} (h : Advancing p) (hp : ∀ a, Plain (f a))
    (ht : ∀ a, Total (f a)) : Advancing (p.bind f) :=
  ⟨.bind h.plain hp, h.total.bind h.framed ht, h.consuming.bind_left fun a => (hp a).framed_plain⟩

theorem bind_of_yields {V : α → Prop} {f : α → Parser β} (h : Advancing p) (hv : Yields p V)
    (hp : ∀ a, Plain (f a)) (ht : ∀ a, V a → Total (f a)) : Advancing (p.bind f) :=
  ⟨.bind h.plain hp, h.total.bind_of_yields h.framed hv ht,
    h.consuming.bind_left fun a => (hp a).framed_plain⟩

theorem then_ {q : Parser β} (h : Advancing p) (h' : Plain q) (ht : Total q) :
    Advancing (p.then_ q) := h.bind (fun _ => h') fun _ => ht

theorem skip {q : Parser β} (h : Advancing p) (h' : Plain q) (ht : Total q) :
    Advancing (p.skip q) := h.bind (fun _ => h'.map _) fun _ => ht.map _

theorem plain_many (h : Advancing p) : Plain (Parser.many p) := .many h.plain

theorem total_many (h : Advancing p) : Total (Parser.many p) := h.total.many h.framed h.consuming

theorem withPosition (h : Advancing p) : Advancing (Parser.withPosition p) :=
  ⟨.withPosition h.plain, h.total.withPosition, h.consuming.withPosition⟩

theorem plain_indentedBlock (h : Advancing p) : Plain (Parser.indentedBlock p) :=
  .indentedBlock h.plain.block

theorem total_indentedBlock (h : Advancing p) : Total (Parser.indentedBlock p) :=
  h.total.indentedBlock h.framed h.consuming

theorem some (h : Advancing p) : Advancing (Parser.some p) :=
  h.bind (fun _ => h.plain_many.map _) fun _ => h.total_many.map _

end Advancing

end ContextRoles.Parsing.Parser
