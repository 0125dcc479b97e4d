import ContextRoles.Proofs.Parsing.Recursion

/-! # What a run draws

The value of a run may depend on the identifiers that were drawn on the way. Identifiers drawn in an
abandoned branch stay drawn, so what is said of some draws has to hold when others are added.
-/

namespace ContextRoles.Parsing.Parser

open State

variable {α β ι : Type} {V : Nat → Nat → α → Prop} {p q : Parser α} {s t : State}

/-- Every success has a value that fits the identifiers between the first and the last number. -/
def Draws (p : Parser α) (V : Nat → Nat → α → Prop) : Prop :=
  ∀ ⦃s a t⦄, p s = .success a t → V s.drawn t.drawn a

/-- Whether a relation that holds of some draws holds when draws before and after are added. -/
def Widening (V : Nat → Nat → α → Prop) : Prop :=
  ∀ ⦃lo lo' hi' hi a⦄, lo ≤ lo' → hi' ≤ hi → V lo' hi' a → V lo hi a

/-- The values of several rounds, each of which made its own draws. -/
inductive Rounds (V : Nat → Nat → α → Prop) : Nat → Nat → List α → Prop where
  | nil {lo hi : Nat} : lo ≤ hi → Rounds V lo hi []
  | cons {lo mid hi : Nat} {a : α} {as : List α} :
      lo ≤ mid → V lo mid a → Rounds V mid hi as → Rounds V lo hi (a :: as)

theorem Rounds.le {lo hi : Nat} {as : List α} (h : Rounds V lo hi as) : lo ≤ hi := by
  induction h with
  | nil h => exact h
  | cons h _ _ ih => exact Nat.le_trans h ih

theorem Rounds.mono {W : Nat → Nat → α → Prop} (hVW : ∀ lo hi a, V lo hi a → W lo hi a)
    {lo hi : Nat} {as : List α} (h : Rounds V lo hi as) : Rounds W lo hi as := by
  induction h with
  | nil h => exact .nil h
  | cons h ha _ ih => exact .cons h (hVW _ _ _ ha) ih

theorem Rounds.widening (hV : Widening V) : Widening (Rounds V) := by
  intro lo lo' hi' hi as hlo hhi h
  induction h generalizing lo with
  | nil h => exact .nil (Nat.le_trans hlo (Nat.le_trans h hhi))
  | cons h ha _ ih =>
    exact .cons (Nat.le_trans hlo h) (hV hlo (Nat.le_refl _) ha) (ih (Nat.le_refl _) hhi)

namespace Draws

theorem alt (hV : Widening V) (hp : Framed p) (h : Draws p V) (h' : Draws q V) :
    Draws (Parser.alt p q) V := by
  intro s a t hr
  rcases alt_success hr with ⟨u, hu, rfl⟩ | ⟨e, v, u, hv, -, hu, rfl⟩
  · exact (h hu :)
  · have ha := h' hu
    exact hV (hp.failure hv).drawn_le (Nat.le_refl _) ha

theorem attempt (h : Draws p V) : Draws (Parser.attempt p) V := by
  intro s a t hr
  simp only [Parser.attempt] at hr
  cases hp : p s with
  | success b u =>
    simp only [hp, Outcome.success.injEq] at hr
    obtain ⟨rfl, rfl⟩ := hr
    exact h hp
  | failure e u => simp [hp] at hr
  | stalled => simp [hp] at hr

theorem withPosition (h : Draws p V) : Draws (Parser.withPosition p) V := by
  intro s a t hr
  obtain ⟨u, hu, rfl⟩ := mapState_eq_success.mp hr
  exact (h hu :)

theorem mono {W : Nat → Nat → α → Prop} (h : Draws p V) (hVW : ∀ lo hi a, V lo hi a → W lo hi a) :
    Draws p W := fun _ _ _ hr => hVW _ _ _ (h hr)

theorem of_yields {W : α → Prop} (h : Yields p W) (hW : ∀ lo hi a, W a → V lo hi a) : Draws p V :=
  fun _ _ _ hr => hW _ _ _ (h hr)

/-- The values of the first parser may be used, its draws may not. -/
theorem bind_right {f : α → Parser β} {W : α → Prop} {V : Nat → Nat → β → Prop} (hV : Widening V)
    (hp : Framed p) (hW : Yields p W) (h : ∀ a, W a → Draws (f a) V) : Draws (p.bind f) V := by
  intro s b u hr
  obtain ⟨a, t, ha, hb⟩ := bind_eq_success.mp hr
  exact hV (hp.success ha).drawn_le (Nat.le_refl _) (h a (hW ha) hb)

theorem then_ (hV : Widening V) {r : Parser β} (hr : Framed r) (h : Draws p V) :
    Draws (r.then_ p) V :=
  bind_right (W := fun _ => True) hV hr (fun _ _ _ _ => trivial) fun _ _ => h

/-- The draws of the first parser count for what the second one makes of its value. -/
theorem bind_left {f : α → Parser β} {W : Nat → Nat → β → Prop} (hW : Widening W) (h : Draws p V)
    (hf : ∀ a, Framed (f a)) (h' : ∀ lo hi a, V lo hi a → Yields (f a) (W lo hi)) :
    Draws (p.bind f) W := by
  intro s b u hr
  obtain ⟨a, t, ha, hb⟩ := bind_eq_success.mp hr
  exact hW (Nat.le_refl _) ((hf a).success hb).drawn_le (h' _ _ a (h ha) hb)

theorem skip {q : Parser β} (hV : Widening V) (h : Draws p V) (hq : Framed q) :
    Draws (p.skip q) V :=
  have hf (a : α) : Framed (q.result a) := (Built.result (.extra hq) a).framed id
  h.bind_left hV hf fun lo hi a ha => by
    intro s b t hr
    obtain ⟨-, -, rfl⟩ := map_eq_success.mp hr
    exact ha

theorem furthest_go {ps : List (Parser α)} {best : Option (ParseError × State)} {a : α}
    (hV : Widening V) (hps : ∀ p ∈ ps, Framed p) (h : ∀ p ∈ ps, Draws p V)
    (hr : Parser.furthest.go ps best s = .success a t) : V s.drawn t.drawn a := by
  refine furthest_go_induction (motive := fun s => V s.drawn t.drawn a) ?_ ?_ hr
  · intro p s hp hr
    exact h p hp hr
  · intro p s e u hp hu ih
    exact hV ((hps p hp).failure hu).drawn_le (Nat.le_refl _) ih

theorem furthest {ps : List (Parser α)} (hV : Widening V) (hps : ∀ p ∈ ps, Framed p)
    (h : ∀ p ∈ ps, Draws p V) : Draws (Parser.furthest ps) V := by
  intro s a t hr
  obtain ⟨u, hu, rfl⟩ := mapState_eq_success.mp hr
  exact (furthest_go hV hps h hu :)

/-- The rounds of a repetition draw one after the other. The last, failing one may draw too. -/
theorem manyFrom (hp : Framed p) (h : Draws p V) {values as : List α}
    (hr : Parser.manyFrom p values s = .success as t) :
    ∃ bs, as = values.reverse ++ bs ∧ Rounds V s.drawn t.drawn bs := by
  refine manyFrom_induction (motive := fun values s =>
    ∃ bs, as = values.reverse ++ bs ∧ Rounds V s.drawn t.drawn bs) ?_ ?_ hr
  · rintro values s e u hu - rfl rfl
    exact ⟨[], by simp, .nil (hp.failure hu).drawn_le⟩
  · rintro values s a u hu ⟨bs, rfl, hbs⟩
    exact ⟨a :: bs, by simp, .cons (hp.success hu).drawn_le (h hu :) hbs⟩

theorem many (hp : Framed p) (h : Draws p V) : Draws (Parser.many p) (Rounds V) := by
  intro s as t hr
  obtain ⟨bs, rfl, hbs⟩ := manyFrom hp h hr
  exact hbs

theorem block (hV : Widening V) (hp : Framed p) (h : Draws p V) :
    Draws (Parser.block p) (Rounds V) :=
  have hi : Framed checkIndent := .primitive .checkIndent
  withPosition (many (hi.bind fun _ => hp) (h.then_ hV hi))

theorem indentedBlock (hV : Widening V) (hp : Framed p) (h : Draws p V) :
    Draws (Parser.indentedBlock p) (Rounds V) := by
  intro s as t hr
  simp only [Parser.indentedBlock] at hr
  split at hr
  next opened ho =>
    have hle := (Framed.indented.success ho).drawn_le
    cases hb : Parser.block p opened with
    | success values u =>
      simp only [hb] at hr
      split at hr
      · cases hr
      · cases hr
        exact Rounds.widening hV hle (Nat.le_refl _) (block hV hp h hb)
    | failure e u => simp [hb] at hr
    | stalled => simp [hb] at hr
  · cases hr
    exact .nil (Nat.le_refl _)

/-- What the body draws may depend on what its references to the family draw. -/
theorem recurse {body : (ι → Parser α) → ι → Parser α} {limit : Nat} {V : ι → Nat → Nat → α → Prop}
    (hf : ∀ self, (∀ i, Framed (self i)) → ∀ i, Framed (body self i))
    (h : ∀ self, (∀ i, Framed (self i)) → (∀ i, Draws (self i) (V i)) →
      ∀ i, Draws (body self i) (V i)) (i : ι) : Draws (Parser.recurse limit body i) (V i) := by
  let R (i : ι) (s : State) (r : Outcome α) : Prop :=
    r.EndsIn s.Reaches ∧ ∀ a t, r = .success a t → V i s.drawn t.drawn a
  have run : ∀ i s, R i s (Parser.recurse limit body i s) := by
    refine recurse_run (fun i s => ⟨trivial, nofun⟩) fun self hself j s => ?_
    have framed : ∀ i, Framed (self i) := fun i s => (hself i s).1
    have draws : ∀ i, Draws (self i) (V i) := fun i s a t hr => (hself i s).2 a t hr
    exact ⟨hf self framed j s, fun a t hr => h self framed draws j hr⟩
  exact fun s a t hr => (run i s).2 a t hr

end Draws

end ContextRoles.Parsing.Parser
