import ContextRoles.Proofs.Parsing.Reading
import Mathlib.Data.List.Forall2

/-! # Two runs side by side

Two parsers are paired when runs from corresponding states come to results of one kind: both succeed,
with values and states that correspond again, both fail, or both stall. Each combinator pairs what it
makes of paired parsers. So a correspondence that the primitives respect is one that whole grammars
respect, whatever alternatives they try and abandon.
-/

namespace ContextRoles.Parsing

variable {α β γ δ : Type}

/-- Two runs come to results of one kind. Behind a failure only its error, the flag and the number of
draws are looked at. -/
inductive Outcome.Matches (E : ParseError → ParseError → Prop) (Q : α → β → State → State → Prop) :
    Outcome α → Outcome β → Prop where
  | success {a : α} {b : β} {s t : State} : Q a b s t → Matches E Q (.success a s) (.success b t)
  | failure {e e' : ParseError} {s t : State} : E e e' → t.consumed = s.consumed →
      t.drawn = s.drawn → Matches E Q (.failure e s) (.failure e' t)
  | stalled : Matches E Q .stalled .stalled

theorem Outcome.Matches.kinds {E : ParseError → ParseError → Prop}
    {Q : α → β → State → State → Prop} {r : Outcome α} {r' : Outcome β} (h : r.Matches E Q r') :
    (∃ a b s t, r = .success a s ∧ r' = .success b t ∧ Q a b s t) ∨
      (∃ e e' s t, r = .failure e s ∧ r' = .failure e' t ∧ E e e' ∧ t.consumed = s.consumed ∧
        t.drawn = s.drawn) ∨
      r = .stalled ∧ r' = .stalled := by
  cases h with
  | success h => exact .inl ⟨_, _, _, _, rfl, rfl, h⟩
  | failure he hc hd => exact .inr (.inl ⟨_, _, _, _, rfl, rfl, he, hc, hd⟩)
  | stalled => exact .inr (.inr ⟨rfl, rfl⟩)

theorem Outcome.Matches.mono {E : ParseError → ParseError → Prop}
    {Q Q' : α → β → State → State → Prop} {r : Outcome α} {r' : Outcome β} (h : r.Matches E Q r')
    (hQ : ∀ a b s t, Q a b s t → Q' a b s t) : r.Matches E Q' r' := by
  cases h with
  | success h => exact .success (hQ _ _ _ _ h)
  | failure he hc hd => exact .failure he hc hd
  | stalled => exact .stalled

/-- The errors of two runs that are not compared. -/
def AnyErrors (_ _ : ParseError) : Prop := True

namespace State

/-- Corresponding states agree in what alternatives and repetitions decide by. -/
structure Tracks (S : State → State → Prop) : Prop where
  sound : ∀ ⦃s t⦄, S s t → s.Sound ∧ t.Sound
  consumed : ∀ ⦃s t⦄, S s t → t.consumed = s.consumed
  drawn : ∀ ⦃s t⦄, S s t → t.drawn = s.drawn
  withConsumed : ∀ ⦃s t⦄ (b : Bool), S s t → S (s.withConsumed b) (t.withConsumed b)

/-- A correspondence that does not depend on how many identifiers were drawn. -/
structure Free (S : State → State → Prop) : Prop extends Tracks S where
  rewindFrom : ∀ ⦃s t⦄ (u v : State), S s t → v.drawn = u.drawn →
    S (s.rewindFrom u) (t.rewindFrom v)

/-- A correspondence under which errors at the cursor correspond. -/
structure Aligns (E : ParseError → ParseError → Prop) (S : State → State → Prop) : Prop
    extends Free S where
  error : ∀ ⦃s t⦄ (cause : Cause), S s t → E ⟨cause, s.position⟩ ⟨cause, t.position⟩

variable {E : ParseError → ParseError → Prop} {R S : State → State → Prop}

theorem Free.aligns (h : Free S) : Aligns AnyErrors S := ⟨h, fun _ _ _ _ => trivial⟩

theorem Free.or (h : Free R) (h' : Free S) : Free fun s t => R s t ∨ S s t where
  sound _ _ hst := hst.elim (fun hst => h.sound hst) fun hst => h'.sound hst
  consumed _ _ hst := hst.elim (fun hst => h.consumed hst) fun hst => h'.consumed hst
  drawn _ _ hst := hst.elim (fun hst => h.drawn hst) fun hst => h'.drawn hst
  withConsumed _ _ b hst :=
    hst.imp (fun hst => h.withConsumed b hst) fun hst => h'.withConsumed b hst
  rewindFrom _ _ u v hst hd :=
    hst.imp (fun hst => h.rewindFrom u v hst hd) fun hst => h'.rewindFrom u v hst hd

theorem Aligns.or (h : Aligns E R) (h' : Aligns E S) : Aligns E fun s t => R s t ∨ S s t where
  toFree := h.toFree.or h'.toFree
  error _ _ cause hst := hst.elim (fun hst => h.error cause hst) fun hst => h'.error cause hst

/-- A correspondence may be restricted by what neither the flag nor the draws touch. -/
theorem Aligns.and {C : State → State → Prop} (h : Aligns E S)
    (hc : ∀ s t b, C s t → C (s.withConsumed b) (t.withConsumed b))
    (hd : ∀ s t u v, C s t → C (s.rewindFrom u) (t.rewindFrom v)) :
    Aligns E fun s t => S s t ∧ C s t where
  sound _ _ hst := h.sound hst.1
  consumed _ _ hst := h.consumed hst.1
  drawn _ _ hst := h.drawn hst.1
  withConsumed _ _ b hst := ⟨h.withConsumed b hst.1, hc _ _ b hst.2⟩
  rewindFrom _ _ u v hst hd' := ⟨h.rewindFrom u v hst.1 hd', hd _ _ u v hst.2⟩
  error _ _ cause hst := h.error cause hst.1

end State

namespace Parser

open State

variable {E : ParseError → ParseError → Prop} {R S S' : State → State → Prop}
  {Q Q' : α → β → State → State → Prop} {p p' : Parser α} {q q' : Parser β}

/-- From corresponding states both come to results of one kind. -/
def Paired (E : ParseError → ParseError → Prop) (S : State → State → Prop)
    (Q : α → β → State → State → Prop) (p : Parser α) (q : Parser β) : Prop :=
  ∀ ⦃s t⦄, S s t → (p s).Matches E Q (q t)

def Same (R : State → State → Prop) (a b : α) (s t : State) : Prop := b = a ∧ R s t

/-- The correspondence holds again where runs started that failed. -/
def Rewinds (S : State → State → Prop) (p : Parser α) (q : Parser β) : Prop :=
  ∀ ⦃s t e e' u v⦄, S s t → p s = .failure e u → q t = .failure e' v → v.drawn = u.drawn →
    S (s.rewindFrom u) (t.rewindFrom v)

/-- Where both fail, the one after the other, they have set the flag alike. -/
def Level (p q : Parser α) : Prop := ∀ ⦃s e u f w⦄, s.Sound → p s = .failure e u →
  q (s.rewindFrom u) = .failure f w → w.consumed = u.consumed

theorem rewinds_of_free (h : Free S) : Rewinds S p q :=
  fun _ _ _ _ u v hst _ _ hd => h.rewindFrom u v hst hd

theorem tracks_same (h : Tracks R) (a b : α) : Tracks (Same R a b) where
  sound _ _ hst := h.sound hst.2
  consumed _ _ hst := h.consumed hst.2
  drawn _ _ hst := h.drawn hst.2
  withConsumed _ _ c hst := ⟨hst.1, h.withConsumed c hst.2⟩

namespace Paired

theorem mono (h : Paired E S Q p q) (hS : ∀ s t, S' s t → S s t)
    (hQ : ∀ a b s t, Q a b s t → Q' a b s t) : Paired E S' Q' p q :=
  fun s t hst => (h (hS s t hst)).mono hQ

theorem start (h : Paired E S Q p q) (hS : ∀ s t, S' s t → S s t) : Paired E S' Q p q :=
  h.mono hS fun _ _ _ _ => id

theorem pure {a : α} {b : β} (h : ∀ s t, S s t → Q a b s t) :
    Paired E S Q (Parser.pure a) (Parser.pure b) := fun s t hst => .success (h s t hst)

theorem fail (hS : Tracks S) {cause cause' : Cause}
    (h : ∀ s t, S s t → E ⟨cause, s.position⟩ ⟨cause', t.position⟩) :
    Paired E S Q (Parser.fail cause) (Parser.fail cause') :=
  fun s t hst => .failure (h s t hst) (hS.consumed hst) (hS.drawn hst)

theorem stall : Paired E S Q (fun _ => .stalled) fun _ => .stalled := fun _ _ _ => .stalled

/-- What a step of the first parser and of the second one have in common may be used of the next
steps. -/
theorem bind {f : α → Parser γ} {g : β → Parser δ} {P : γ → δ → State → State → Prop}
    (h : Paired E S Q p q) (h' : ∀ a b, Paired E (Q a b) P (f a) (g b)) :
    Paired E S P (p.bind f) (q.bind g) := by
  intro s t hst
  simp only [Parser.bind]
  rcases (h hst).kinds with ⟨a, b, u, v, hp, hq, ha⟩ | ⟨e, e', u, v, hp, hq, he, hc, hd⟩ | ⟨hp, hq⟩
  · simpa only [hp, hq] using h' a b ha
  · simpa only [hp, hq] using .failure he hc hd
  · simpa only [hp, hq] using .stalled

theorem map {f : α → γ} {g : β → δ} {P : γ → δ → State → State → Prop} (h : Paired E S Q p q)
    (hP : ∀ a b s t, Q a b s t → P (f a) (g b) s t) :
    Paired E S P (Parser.map f p) (Parser.map g q) := by
  rw [map_eq_bind, map_eq_bind]
  exact h.bind fun a b => .pure (hP a b)

theorem merge {r : Outcome α} {r' : Outcome β} {b b' : Bool} (hb : b' = b)
    (hQ : ∀ a b, Tracks (Q a b)) (h : r.Matches E Q r') :
    (r.merge b).Matches E Q (r'.merge b') := by
  subst hb
  cases h with
  | success ha =>
    simp only [Outcome.merge, Outcome.mapState, (hQ _ _).consumed ha]
    exact .success ((hQ _ _).withConsumed _ ha)
  | failure he hc hd => exact .failure he (by simp [withConsumed, hc]) hd
  | stalled => exact .stalled

/-- Only the draws of failures are kept where alternatives start again. -/
theorem alt (hS : Tracks S) (hr : Rewinds S p q) (hQ : ∀ a b, Tracks (Q a b))
    (h : Paired E S Q p q) (h' : Paired E S Q p' q') :
    Paired E S Q (Parser.alt p p') (Parser.alt q q') := by
  intro s t hst
  have hchecked : S s.checkpoint t.checkpoint := hS.withConsumed false hst
  refine merge (hS.consumed hst) hQ ?_
  rcases (h hchecked).kinds with
    ⟨a, b, u, v, hp, hq, ha⟩ | ⟨e, e', u, v, hp, hq, he, hc, hd⟩ | ⟨hp, hq⟩
  · simpa only [hp, hq] using .success ha
  · simp only [hp, hq, hc]
    split
    · exact .failure he hc hd
    · exact h' (hr hchecked hp hq hd)
  · simpa only [hp, hq] using .stalled

theorem attempt (hS : Tracks S) (h : Paired E S Q p q) :
    Paired E S Q (Parser.attempt p) (Parser.attempt q) := by
  intro s t hst
  simp only [Parser.attempt]
  rcases (h hst).kinds with ⟨a, b, u, v, hp, hq, ha⟩ | ⟨e, e', u, v, hp, hq, he, hc, hd⟩ | ⟨hp, hq⟩
  · simpa only [hp, hq] using .success ha
  · simp only [hp, hq]
    exact .failure he (hS.consumed hst :) hd
  · simpa only [hp, hq] using .stalled

theorem notFollowedBy (hS : Free S) (hE : ∀ s t, S s t → E ⟨.negated, s.position⟩ ⟨.negated, t.position⟩)
    (hQ : ∀ a b s t, Q a b s t → t.drawn = s.drawn) (h : Paired E S Q p q) :
    Paired E S (Same S) (Parser.notFollowedBy p) (Parser.notFollowedBy q) := by
  intro s t hst
  simp only [Parser.notFollowedBy]
  rcases (h hst).kinds with ⟨a, b, u, v, hp, hq, ha⟩ | ⟨e, e', u, v, hp, hq, he, hc, hd⟩ | ⟨hp, hq⟩
  · simp only [hp, hq]
    exact .failure (hE s t hst) (hS.consumed hst :) (hQ a b u v ha)
  · simpa only [hp, hq] using .success ⟨rfl, hS.rewindFrom u v hst hd⟩
  · simpa only [hp, hq] using .stalled

theorem withPosition {P : α → β → State → State → Prop}
    (h : Paired E S' P p q)
    (enter : ∀ s t, S s t → S' (s.withReference s.position) (t.withReference t.position))
    (leave : ∀ a b s t u v, S s t → P a b u v →
      Q a b (u.withReference s.reference) (v.withReference t.reference)) :
    Paired E S Q (Parser.withPosition p) (Parser.withPosition q) := by
  intro s t hst
  simp only [Parser.withPosition]
  rcases (h (enter s t hst)).kinds with
    ⟨a, b, u, v, hp, hq, ha⟩ | ⟨e, e', u, v, hp, hq, he, hc, hd⟩ | ⟨hp, hq⟩
  · simpa only [hp, hq] using .success (leave a b s t u v hst ha)
  · simpa only [hp, hq] using .failure he hc hd
  · simpa only [hp, hq] using .stalled

theorem conserve {C : State → State → Prop} (hp : Framed p) (hq : Framed q)
    (hC : ∀ s t u v, C s t → s.Reaches u → t.Reaches v → C u v) (h : Paired E S Q p q) :
    Paired E (fun s t => S s t ∧ C s t) (fun a b s t => Q a b s t ∧ C s t) p q := by
  rintro s t ⟨hst, hc⟩
  rcases (h hst).kinds with ⟨a, b, u, v, hu, hv, ha⟩ | ⟨e, e', u, v, hu, hv, he, hf, hd⟩ | ⟨hu, hv⟩
  · rw [hu, hv]
    exact .success ⟨ha, hC s t u v hc (hp.success hu) (hq.success hv)⟩
  · rw [hu, hv]
    exact .failure he hf hd
  · rw [hu, hv]
    exact .stalled

/-- Rounds that read something are as many on both sides. What is known of the values of a round is
known of them behind the last one. -/
theorem many (hS : Tracks S) (hr : Rewinds S p q) (hp : Framed p) (hq : Framed q)
    (hcp : Consuming p) (hcq : Consuming q) (hQ : ∀ a b s t, Q a b s t → S s t)
    (hkeep : ∀ a b s t u v, Q a b s t → s.Reaches u → t.Reaches v → S u v → Q a b u v)
    (h : Paired E S Q p q) :
    Paired E S (fun as bs s t => S s t ∧ List.Forall₂ (fun a b => Q a b s t) as bs)
      (Parser.many p) (Parser.many q) := by
  have hmany : Framed (Parser.many p) := hp.manyFrom []
  have hmany' : Framed (Parser.many q) := hq.manyFrom []
  intro s t hst
  induction hn : s.rest.length using Nat.strongRecOn generalizing s t with
  | _ n ih =>
    have hchecked : S s.checkpoint t.checkpoint := hS.withConsumed false hst
    rw [Parser.many, Parser.many, manyFrom, manyFrom]
    rcases (h hchecked).kinds with
      ⟨a, b, u, v, hu, hv, ha⟩ | ⟨e, e', u, v, hu, hv, he, hc, hd⟩ | ⟨hu, hv⟩
    · obtain ⟨hs, ht⟩ := hS.sound hst
      have hlt := hcp hs.checkpoint hu
      have hlt' := hcq ht.checkpoint hv
      have hsu := (hp.success hu).sound hs.checkpoint
      have htv := (hq.success hv).sound ht.checkpoint
      have hrem : u.remaining < s.remaining := by rwa [hsu.remaining, hs.remaining]
      have hrem' : v.remaining < t.remaining := by rwa [htv.remaining, ht.remaining]
      have hnext : S (u.withConsumed true) (v.withConsumed true) :=
        hS.withConsumed true (hQ a b u v ha)
      simp only [hu, hv, hrem, hrem', if_true, Reads.manyFrom_eq]
      rcases (ih u.rest.length (hn ▸ hlt) hnext rfl).kinds with
        ⟨as, bs, w, x, hw, hx, hwx, has⟩ | ⟨e, e', w, x, hw, hx, he, hc, hd⟩ | ⟨hw, hx⟩
      · simp only [hw, hx, Outcome.map]
        have hreach : u.Reaches w := ((Reaches.refl u).withConsumed true).trans (hmany.success hw)
        have hreach' : v.Reaches x :=
          ((Reaches.refl v).withConsumed true).trans (hmany'.success hx)
        exact .success ⟨hwx, .cons (hkeep a b u v w x ha hreach hreach' hwx) has⟩
      · simpa only [hw, hx, Outcome.map] using .failure he hc hd
      · simpa only [hw, hx, Outcome.map] using .stalled
    · simp only [hu, hv, hc]
      split
      · exact .failure he hc hd
      · have hback := hS.withConsumed s.consumed (hr hchecked hu hv hd)
        nth_rewrite 2 [← hS.consumed hst] at hback
        exact .success ⟨hback, .nil⟩
    · simpa only [hu, hv] using .stalled

theorem furthest_of (hS : Tracks S) (hr : Rewinds S p q) (hr' : Rewinds S p' q')
    (hQ : ∀ a b, Tracks (Q a b))
    (hkept : ∀ ⦃s t e u e' v f w f' x⦄, S s t → p s = .failure e u → q t = .failure e' v →
      p' (s.rewindFrom u) = .failure f w → q' (t.rewindFrom v) = .failure f' x →
      E e e' → v.consumed = u.consumed → E f f' → x.consumed = w.consumed →
      E (furthestFailure (Option.some (e, u)) f w).1 (furthestFailure (Option.some (e', v)) f' x).1 ∧
        (furthestFailure (Option.some (e', v)) f' x).2.consumed =
          (furthestFailure (Option.some (e, u)) f w).2.consumed)
    (h : Paired E S Q p q) (h' : Paired E S Q p' q') :
    Paired E S Q (Parser.furthest [p, p']) (Parser.furthest [q, q']) := by
  intro s t hst
  have hchecked : S s.checkpoint t.checkpoint := hS.withConsumed false hst
  refine merge (hS.consumed hst) hQ ?_
  rw [Parser.furthest.go, Parser.furthest.go]
  rcases (h hchecked).kinds with
    ⟨a, b, u, v, hp, hq, ha⟩ | ⟨e, e', u, v, hp, hq, he, hc, hd⟩ | ⟨hp, hq⟩
  · simpa only [hp, hq] using .success ha
  · have hback := hr hchecked hp hq hd
    simp only [hp, hq]
    rw [Parser.furthest.go, Parser.furthest.go]
    rcases (h' hback).kinds with
      ⟨a, b, w, x, hp', hq', ha⟩ | ⟨f, f', w, x, hp', hq', hf, hc', hd'⟩ | ⟨hp', hq'⟩
    · simpa only [hp', hq'] using .success ha
    · have hdrawn := hS.drawn (hr' hback hp' hq' hd')
      obtain ⟨herror, hflag⟩ := hkept hchecked hp hq hp' hq' he hc hf hc'
      simp only [hp', hq']
      rw [Parser.furthest.go, Parser.furthest.go]
      exact .failure herror hflag hdrawn
    · simpa only [hp', hq'] using .stalled
  · simpa only [hp, hq] using .stalled

/-- When both alternatives fail, the same one is kept on both sides. -/
theorem furthest_pair (hS : Tracks S) (hr : Rewinds S p q) (hr' : Rewinds S p' q')
    (hQ : ∀ a b, Tracks (Q a b))
    (hE : ∀ e₁ e₁' e₂ e₂', E e₁ e₁' → E e₂ e₂' →
      e₂'.position.before e₁'.position = e₂.position.before e₁.position)
    (h : Paired E S Q p q) (h' : Paired E S Q p' q') :
    Paired E S Q (Parser.furthest [p, p']) (Parser.furthest [q, q']) := by
  refine furthest_of hS hr hr' hQ ?_ h h'
  intro s t e u e' v f w f' x _ _ _ _ _ he hc hf hc'
  simp only [furthestFailure, hE e e' f f' he hf]
  split
  · exact ⟨he, hc⟩
  · exact ⟨hf, hc'⟩

theorem furthest_level (hS : Tracks S) (hr : Rewinds S p q) (hr' : Rewinds S p' q')
    (hQ : ∀ a b, Tracks (Q a b)) (hE : ∀ e e', E e e') (hl : Level p p') (hl' : Level q q')
    (h : Paired E S Q p q) (h' : Paired E S Q p' q') :
    Paired E S Q (Parser.furthest [p, p']) (Parser.furthest [q, q']) := by
  refine furthest_of hS hr hr' hQ ?_ h h'
  intro s t e u e' v f w f' x hst hp hq hp' hq' _ hc _ hc'
  obtain ⟨hs, ht⟩ := hS.sound hst
  have hlevel := hl hs hp hp'
  have hlevel' := hl' ht hq hq'
  refine ⟨hE _ _, ?_⟩
  have kept {e f : ParseError} {u w : State} (hlevel : w.consumed = u.consumed) :
      (furthestFailure (Option.some (e, u)) f w).2.consumed = u.consumed := by
    simp only [furthestFailure]
    split
    · rfl
    · exact hlevel
  rw [kept hlevel, kept hlevel', hc]

end Paired

section Alike

variable {M : State → State → Prop} {p q : Parser α} {ps : List (Parser α)}

/-- From corresponding states `p` comes to results of one kind with one value. -/
abbrev Alike (E : ParseError → ParseError → Prop) (S R : State → State → Prop)
    (p : Parser α) : Prop := Paired E S (Same R) p p

namespace Alike

theorem pure (h : ∀ s t, S s t → R s t) (a : α) : Alike E S R (Parser.pure a) :=
  Paired.pure fun s t hst => ⟨rfl, h s t hst⟩

theorem fail (hS : Aligns E S) (cause : Cause) : Alike E S R (Parser.fail cause : Parser α) :=
  Paired.fail hS.toTracks fun _ _ hst => hS.error cause hst

theorem bind {f : α → Parser β} (h : Alike E S M p) (h' : ∀ a, Alike E M R (f a)) :
    Alike E S R (p.bind f) :=
  Paired.bind h fun a _ _ _ ⟨hb, hst⟩ => hb ▸ h' a hst

theorem map (h : Alike E S R p) (f : α → β) : Alike E S R (Parser.map f p) :=
  Paired.map h fun _ _ _ _ ha => ⟨congrArg f ha.1, ha.2⟩

theorem result (h : Alike E S R p) (b : β) : Alike E S R (p.result b) := h.map _

theorem then_ {q : Parser β} (h : Alike E S M p) (h' : Alike E M R q) :
    Alike E S R (p.then_ q) := h.bind fun _ => h'

theorem skip {q : Parser β} (h : Alike E S M p) (h' : Alike E M R q) :
    Alike E S R (p.skip q) := h.bind fun a => h'.result a

theorem between {r : Parser β} {o : Parser γ} {N : State → State → Prop} (h : Alike E S M o)
    (h' : Alike E N R r) (h'' : Alike E M N p) : Alike E S R (Parser.between o r p) :=
  (h.then_ h'').skip h'

theorem require (h : ∀ s t, S s t → R s t) (a : Option α) :
    Alike E S R (Parser.require a) := by
  cases a with
  | some a => exact pure h a
  | none => exact .stall

theorem alt (hS : Aligns E S) (hR : Aligns E R) (h : Alike E S R p) (h' : Alike E S R q) :
    Alike E S R (Parser.alt p q) :=
  Paired.alt hS.toTracks (rewinds_of_free hS.toFree) (tracks_same hR.toTracks) h h'

theorem label (hS : Aligns E S) (hR : Aligns E R) (h : Alike E S R p) (name : String) :
    Alike E S R (p.label name) := h.alt hS hR (fail hS _)

theorem option (hS : Aligns E S) (hR : Aligns E R) (hSR : ∀ s t, S s t → R s t)
    (h : Alike E S R p) (default : α) : Alike E S R (Parser.option default p) :=
  h.alt hS hR (pure hSR default)

theorem attempt (hS : Aligns E S) (h : Alike E S R p) : Alike E S R (Parser.attempt p) :=
  Paired.attempt hS.toTracks h

theorem choice (hS : Aligns E S) (hR : Aligns E R) (h : ∀ p ∈ ps, Alike E S R p) :
    Alike E S R (Parser.choice ps) :=
  choice_induction (fail hS _) (fun _ _ hp hq => hp.alt hS hR hq) h

theorem sequence (h : ∀ p ∈ ps, Alike E S S p) : Alike E S S (Parser.sequence ps) := by
  induction ps with
  | nil => exact pure (fun _ _ => id) _
  | cons p ps ih =>
    rw [List.forall_mem_cons] at h
    exact h.1.bind fun _ => (ih h.2).map _

theorem notFollowedBy (hS : Aligns E S) (hR : ∀ s t, R s t → t.drawn = s.drawn)
    (h : Alike E S R p) : Alike E S S (Parser.notFollowedBy p) :=
  Paired.notFollowedBy hS.toFree (fun _ _ hst => hS.error _ hst) (fun _ _ _ _ ha => hR _ _ ha.2) h

theorem many (hS : Aligns E S) (hp : Framed p) (hc : Consuming p) (h : Alike E S S p) :
    Alike E S S (Parser.many p) := by
  refine (Paired.many hS.toTracks (rewinds_of_free hS.toFree) hp hp hc hc (fun _ _ _ _ ha => ha.2)
    (fun _ _ _ _ _ _ ha _ _ hst => ⟨ha.1, hst⟩) h).mono (fun _ _ => id) ?_
  rintro as bs s t ⟨hst, hvalues⟩
  refine ⟨?_, hst⟩
  have := hvalues.imp fun a b hab => hab.1.symm
  exact (List.forall₂_eq_eq_eq ▸ this : as = bs).symm

theorem some (hS : Aligns E S) (hp : Framed p) (hc : Consuming p) (h : Alike E R S p)
    (h' : Alike E S S p) : Alike E R S (Parser.some p) :=
  h.bind fun _ => (h'.many hS hp hc).map _

theorem conserve {C : State → State → Prop} (hp : Framed p)
    (hC : ∀ s t u v, C s t → s.Reaches u → t.Reaches v → C u v) (h : Alike E S R p) :
    Alike E (fun s t => S s t ∧ C s t) (fun s t => R s t ∧ C s t) p :=
  (Paired.conserve hp hp hC h).mono (fun _ _ => id) fun _ _ _ _ ha => ⟨ha.1.1, ha.1.2, ha.2⟩

end Alike

end Alike

section Recursion

/-- Fewer than `n` characters are left to the first run. -/
def Short (n : Nat) (s _t : State) : Prop := s.rest.length < n

theorem Short.reaches {n : Nat} {s t u v : State} (h : Short n s t) (hu : s.Reaches u)
    (_ : t.Reaches v) : Short n u v := Nat.lt_of_le_of_lt hu.length_le h

theorem Alike.shorten {p : Parser α} {n : Nat} (hS : Tracks S) (hc : Consuming p)
    (h : Alike E S R p) : Alike E (fun s t => S s t ∧ Short (n + 1) s t)
      (fun s t => R s t ∧ Short n s t) p := by
  rintro s t ⟨hst, hn⟩
  rcases (h hst).kinds with ⟨a, b, u, v, hu, hv, hb, huv⟩ | ⟨e, e', u, v, hu, hv, hm⟩ | ⟨hu, hv⟩
  · rw [hu, hv]
    exact .success ⟨hb, huv, Nat.lt_of_lt_of_le (hc (hS.sound hst).1 hu) (Nat.le_of_lt_succ hn)⟩
  · rw [hu, hv]
    exact .failure hm.1 hm.2.1 hm.2.2
  · rw [hu, hv]
    exact .stalled

/-- Paired are what are paired on longer texts because they are on shorter ones. -/
theorem Paired.of_short {Q : α → β → State → State → Prop} {p : Parser α} {q : Parser β}
    (h : ∀ n, Paired E (fun s t => S s t ∧ Short n s t) Q p q →
      Paired E (fun s t => S s t ∧ Short (n + 1) s t) Q p q) : Paired E S Q p q := by
  have upto : ∀ n, Paired E (fun s t => S s t ∧ Short n s t) Q p q := by
    intro n
    induction n with
    | zero => exact fun s t hst => absurd hst.2 (Nat.not_lt_zero _)
    | succ n ih => exact h n ih
  exact fun s t hst => upto (s.rest.length + 1) ⟨hst, Nat.lt_succ_self _⟩

end Recursion

end Parser

end ContextRoles.Parsing
