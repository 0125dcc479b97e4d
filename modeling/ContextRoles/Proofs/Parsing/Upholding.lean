import ContextRoles.Proofs.Parsing.Accumulation
import ContextRoles.Proofs.Parsing.Pairing

/-! # Runs that are upheld

A second run upholds a first one when it succeeds where that one succeeds, and reads nothing where that
one fails without reading anything. Nothing is asked of it where the first run fails after reading
something, or comes to an end behind which no text can be accepted: no alternative is left then. So a
text that is accepted may be read alike in front of another one, although parts of it would be read on.
-/

namespace ContextRoles.Parsing

variable {α β : Type}

/-- The cursor of a state. -/
def State.place (s : State) : List Char × Nat × Nat × Position :=
  (s.rest, s.offset, s.size, s.position)

def State.Positional (C : State → Prop) : Prop := ∀ ⦃s t : State⦄, s.place = t.place → C s → C t

/-- Of such a run nothing comes: it fails after reading something, or stalls, or ends outside of `C`. -/
def Outcome.Strays (C : State → Prop) : Outcome α → Prop
  | success _ t => ¬ C t
  | failure _ t => t.consumed = true
  | stalled => True

/-- The second run comes to what the first one comes to, unless that one strays. -/
inductive Outcome.Upholds (C : State → Prop) (R : State → State → Prop) :
    Outcome α → Outcome α → Prop where
  | strays {r r' : Outcome α} : r.Strays C → Upholds C R r r'
  | success {a : α} {s t : State} : R s t → Upholds C R (.success a s) (.success a t)
  | refusal {e e' : ParseError} {s t : State} : t.consumed = false → t.drawn = s.drawn →
      Upholds C R (.failure e s) (.failure e' t)

namespace Outcome

variable {C C' : State → Prop} {E : ParseError → ParseError → Prop} {R R' : State → State → Prop}
  {r r' : Outcome α} {a : α} {s t : State}

theorem Strays.mono (h : r.Strays C') (hC : ∀ s, C s → C' s) : r.Strays C := by
  cases r with
  | success a t => exact mt (hC t) h
  | failure e t => exact h
  | stalled => trivial

theorem Strays.mapState {f : State → State} (hC : State.Positional C)
    (hf : ∀ s, (f s).place = s.place ∧ (s.consumed = true → (f s).consumed = true))
    (h : r.Strays C) : (r.mapState f).Strays C := by
  cases r with
  | success a t => exact mt (hC (hf t).1) h
  | failure e t => exact (hf t).2 h
  | stalled => trivial

theorem Strays.merge (hC : State.Positional C) (b : Bool) (h : r.Strays C) : (r.merge b).Strays C :=
  h.mapState hC fun s => ⟨rfl, fun hs => by simp [State.withConsumed, hs]⟩

theorem Strays.bind_pure {p : Parser α} {s : State} (h : (p s).Strays C) (f : α → β) :
    (p.bind (fun a => Parser.pure (f a)) s).Strays C := by
  simp only [Parser.bind]
  cases hr : p s with
  | success a t => exact (hr ▸ h :)
  | failure e t => exact (hr ▸ h :)
  | stalled => trivial

theorem Matches.upholds (h : r.Matches E (Parser.Same R) r') : r.Upholds C R r' := by
  cases h with
  | success h =>
    obtain ⟨rfl, h⟩ := h
    exact .success h
  | @failure e e' s t _ hc hd =>
    cases hs : s.consumed with
    | true => exact .strays hs
    | false => exact .refusal (hc.trans hs) hd
  | stalled => exact .strays trivial

namespace Upholds

theorem mono (h : r.Upholds C' R' r') (hC : ∀ s, C s → C' s) (hR : ∀ s t, R' s t → R s t) :
    r.Upholds C R r' := by
  cases h with
  | strays h => exact .strays (h.mono hC)
  | success h => exact .success (hR _ _ h)
  | refusal hc hd => exact .refusal hc hd

theorem exists_success (h : (Outcome.success a s).Upholds C R r') (hC : C s) :
    ∃ t, r' = Outcome.success a t ∧ R s t := by
  cases h with
  | strays h => exact absurd hC h
  | success h => exact ⟨_, rfl, h⟩

theorem map {f : α → β} (h : r.Upholds C R r') : (r.map f).Upholds C R (r'.map f) := by
  cases h with
  | strays h =>
    refine .strays ?_
    cases r <;> exact h
  | success h => exact .success h
  | refusal hc hd => exact .refusal hc hd

theorem mapState {f g : State → State} (hC : State.Positional C)
    (hf : ∀ s, (f s).place = s.place ∧ (f s).consumed = s.consumed ∧ (f s).drawn = s.drawn)
    (hg : ∀ s, (g s).consumed = s.consumed ∧ (g s).drawn = s.drawn)
    (hR : ∀ s t, R' s t → R (f s) (g t)) (h : r.Upholds C R' r') :
    (r.mapState f).Upholds C R (r'.mapState g) := by
  cases h with
  | strays h => exact .strays (h.mapState hC fun s => ⟨(hf s).1, fun hs => (hf s).2.1.trans hs⟩)
  | success h => exact .success (hR _ _ h)
  | @refusal e e' s t hc hd =>
    exact .refusal ((hg t).1.trans hc) (((hg t).2.trans hd).trans (hf s).2.2.symm)

theorem merge {b b' : Bool} (hC : State.Positional C) (hR : State.Tracks R) (hb : b' = b)
    (h : r.Upholds C R r') : (r.merge b).Upholds C R (r'.merge b') := by
  subst hb
  cases h with
  | strays h => exact .strays (h.merge hC _)
  | success h =>
    simp only [Outcome.merge, Outcome.mapState, hR.consumed h]
    exact .success (hR.withConsumed _ h)
  | @refusal e e' s t hc hd =>
    cases hb : b' with
    | true => exact .strays rfl
    | false => exact .refusal (by simp [State.withConsumed, hc]) hd

end Upholds

end Outcome

namespace Parser

open State

theorem Accumulates.consumed {p : Parser α} {s t : State} {a : α} (h : Accumulates p) (hf : Framed p)
    (hc : Consuming p) (hs : s.Sound) (hr : p s = .success a t) : t.consumed = true := by
  by_contra hflag
  obtain ⟨text, hrest, hoffset, -⟩ := (hf.success hr).reads
  have hsame := h.still hr (by simpa using hflag)
  have hlt := hc hs hr
  rw [hrest, List.length_append] at hlt
  omega

/-- From corresponding states the second run of `p` upholds the first one. -/
def Upheld (C : State → Prop) (S R : State → State → Prop) (p : Parser α) : Prop :=
  ∀ ⦃s t⦄, S s t → (p s).Upholds C R (p t)

/-- As upheld, where the first run may end anywhere. -/
abbrev Firm (S R : State → State → Prop) (p : Parser α) : Prop := Upheld (fun _ => True) S R p

theorem Alike.upheld {E : ParseError → ParseError → Prop} {C : State → Prop}
    {S R : State → State → Prop} {p : Parser α} (h : Alike E S R p) : Upheld C S R p :=
  fun _ _ hst => (h hst).upholds

namespace Upheld

variable {C C' : State → Prop} {S S' R R' M : State → State → Prop} {p q : Parser α}

theorem mono (h : Upheld C' S' R' p) (hC : ∀ s, C s → C' s) (hS : ∀ s t, S s t → S' s t)
    (hR : ∀ s t, R' s t → R s t) : Upheld C S R p := fun s t hst => (h (hS s t hst)).mono hC hR

theorem pure (h : ∀ s t, S s t → R s t) (a : α) : Upheld C S R (Parser.pure a) :=
  fun s t hst => .success (h s t hst)

theorem fail (hS : Free S) (cause : Cause) : Upheld C S R (Parser.fail cause : Parser α) :=
  (Alike.fail hS.aligns cause).upheld

theorem bind {f : α → Parser β} (h : Upheld C' S M p) (h' : ∀ a, Upheld C M R (f a))
    (hback : ∀ ⦃s a u⦄, p s = .success a u → ¬ C' u → (f a u).Strays C) :
    Upheld C S R (p.bind f) := by
  intro s t hst
  have hp := h hst
  simp only [Parser.bind]
  generalize hr : p s = r at hp
  generalize p t = r' at hp
  cases hp with
  | strays hstrays =>
    refine .strays ?_
    cases r with
    | success a u => exact hback hr hstrays
    | failure e u => exact hstrays
    | stalled => trivial
  | success huv => exact h' _ huv
  | refusal hc hd => exact .refusal hc hd

theorem firm_bind {f : α → Parser β} (h : Firm S M p)
    (h' : ∀ a, Upheld C M R (f a)) : Upheld C S R (p.bind f) :=
  h.bind h' fun _ _ _ _ hfalse => absurd trivial hfalse

theorem map (h : Upheld C S R p) (f : α → β) : Upheld C S R (Parser.map f p) :=
  fun _ _ hst => (h hst).map

theorem firm_skip {r : Parser β} (h : Firm S M p) (h' : Upheld C M R r) :
    Upheld C S R (p.skip r) := h.firm_bind fun _ => h'.map _

theorem alt (hC : Positional C) (hS : Free S) (hR : Tracks R) (h : Upheld C S R p)
    (h' : Upheld C S R q) : Upheld C S R (Parser.alt p q) := by
  intro s t hst
  have hchecked : S s.checkpoint t.checkpoint := hS.withConsumed false hst
  refine Outcome.Upholds.merge hC hR (hS.consumed hst) ?_
  have hp := h hchecked
  generalize p s.checkpoint = r at hp
  generalize p t.checkpoint = r' at hp
  cases hp with
  | strays hstrays =>
    refine .strays ?_
    cases r with
    | success a u => exact hstrays
    | failure e u => simpa only [show u.consumed = true from hstrays, if_true] using hstrays
    | stalled => trivial
  | success huv => exact .success huv
  | @refusal e e' u v hc hd =>
    simp only [hc, Bool.false_eq_true, if_false]
    split
    next hset => exact .strays hset
    · exact h' (hS.rewindFrom u v hchecked hd)

theorem label (hC : Positional C) (hS : Free S) (hR : Tracks R) (h : Upheld C S R p)
    (name : String) : Upheld C S R (p.label name) := h.alt hC hS hR (fail hS _)

theorem option (hC : Positional C) (hS : Free S) (hR : Tracks R) (hSR : ∀ s t, S s t → R s t)
    (h : Upheld C S R p) (default : α) : Upheld C S R (Parser.option default p) :=
  h.alt hC hS hR (pure hSR default)

theorem choice {ps : List (Parser α)} (hC : Positional C) (hS : Free S) (hR : Tracks R)
    (h : ∀ p ∈ ps, Upheld C S R p) : Upheld C S R (Parser.choice ps) :=
  choice_induction (fail hS _) (fun _ _ hp hq => hp.alt hC hS hR hq) h

/-- An attempt may be given up for another parser, unless that one strays: it is then given up in both
runs. -/
theorem attempt_alt (hC : Positional C) (hS : Free S) (hR : Tracks R) (h : Upheld C S R p)
    (h' : Upheld C S R q)
    (hgiven : ∀ ⦃s t e u⦄, S s t → p s = .failure e u → ¬ (q (s.rewindFrom u)).Strays C →
      ∃ e' v, p t = .failure e' v ∧ v.drawn = u.drawn) :
    Upheld C S R (Parser.alt (Parser.attempt p) q) := by
  intro s t hst
  have hchecked : S s.checkpoint t.checkpoint := hS.withConsumed false hst
  refine Outcome.Upholds.merge hC hR (hS.consumed hst) ?_
  simp only [Parser.attempt]
  cases hp : p s.checkpoint with
  | success a u =>
    have both := h hchecked
    rw [hp] at both
    generalize p t.checkpoint = r' at both
    cases both with
    | strays hstrays => exact .strays hstrays
    | success huv => exact .success huv
  | failure e u =>
    by_cases hstrays : (q (s.checkpoint.rewindFrom u)).Strays C
    · exact .strays hstrays
    · obtain ⟨e', v, hv, hd⟩ := hgiven hchecked hp hstrays
      rw [hv]
      exact h' (hS.rewindFrom u v hchecked hd)
  | stalled => exact .strays trivial

theorem withPosition (hC : Positional C) (h : Upheld C S' R' p)
    (enter : ∀ s t, S s t → S' (s.withReference s.position) (t.withReference t.position))
    (leave : ∀ s t u v, S s t → R' u v →
      R (u.withReference s.reference) (v.withReference t.reference)) :
    Upheld C S R (Parser.withPosition p) := fun s t hst =>
  (h (enter s t hst)).mapState hC (fun _ => ⟨rfl, rfl, rfl⟩) (fun _ => ⟨rfl, rfl⟩)
    fun u v huv => leave s t u v hst huv

theorem strengthen (h : Upheld C S R p) (hR : ∀ ⦃s t a u v⦄, S s t → p s = .success a u →
    p t = .success a v → R u v → R' u v) : Upheld C S R' p := by
  intro s t hst
  have both := h hst
  generalize hr : p s = r at both
  generalize hr' : p t = r' at both
  cases both with
  | strays hstrays => exact .strays hstrays
  | success huv => exact .success (hR hst hr hr' huv)
  | refusal hc hd => exact .refusal hc hd

theorem conserve {D : State → State → Prop} (hp : Framed p)
    (hD : ∀ s t u v, D s t → s.Reaches u → t.Reaches v → D u v) (h : Upheld C S R p) :
    Upheld C (fun s t => S s t ∧ D s t) (fun s t => R s t ∧ D s t) p :=
  (h.mono (fun _ => id) (fun _ _ hst => hst.1) fun _ _ => id).strengthen fun s t _ u v hst hr hr' huv =>
    ⟨huv, hD s t u v hst.2 (hp.success hr) (hp.success hr')⟩

theorem strays_many {s : State} (hC : Positional C) (hstart : ∀ ⦃s a u⦄, p s = .success a u → C s)
    (h : (p s.checkpoint).Strays C) : (Parser.many p s).Strays C := by
  rw [Parser.many, manyFrom]
  cases hr : p s.checkpoint with
  | success a u =>
    have hout : ¬ C u := by rwa [hr] at h
    dsimp only
    split
    next hlt =>
      -- another round would start outside of `C`
      have hplace : (u.withConsumed true).checkpoint.place = u.place := rfl
      have hnext : ∀ b v, p (u.withConsumed true).checkpoint ≠ .success b v := fun b v hv =>
        hout (hC hplace (hstart hv))
      rw [manyFrom]
      generalize p (u.withConsumed true).checkpoint = r at hnext
      cases r with
      | success b v => exact absurd rfl (hnext b v)
      | failure e v =>
        dsimp only
        split
        next hset => exact hset
        · exact mt (hC (rfl : _ = u.place)) hout
      | stalled => trivial
    · trivial
  | failure e u =>
    have hset : u.consumed = true := by rwa [hr] at h
    simp only [hset, if_true]
    exact hset
  | stalled => trivial

theorem many (hC : Positional C) (hS : Free S) (hp : Framed p) (hc : Consuming p)
    (hstart : ∀ ⦃s a u⦄, p s = .success a u → C s) (h : Upheld C S S p) :
    Upheld C S S (Parser.many p) := by
  intro s t hst
  induction hn : s.rest.length using Nat.strongRecOn generalizing s t with
  | _ n ih =>
    have hchecked : S s.checkpoint t.checkpoint := hS.withConsumed false hst
    have both := h hchecked
    generalize hr : p s.checkpoint = r at both
    generalize hr' : p t.checkpoint = r' at both
    cases both with
    | strays hstrays => exact .strays (strays_many hC hstart (hr ▸ hstrays))
    | @success a u v huv =>
      obtain ⟨hs, ht⟩ := hS.sound hst
      have hlt := hc hs.checkpoint hr
      have hlt' := hc ht.checkpoint hr'
      have hsu := (hp.success hr).sound hs.checkpoint
      have htv := (hp.success hr').sound ht.checkpoint
      have hrem : u.remaining < s.remaining := by rwa [hsu.remaining, hs.remaining]
      have hrem' : v.remaining < t.remaining := by rwa [htv.remaining, ht.remaining]
      rw [Parser.many, manyFrom, manyFrom, hr, hr']
      simp only [hrem, hrem', if_true, Reads.manyFrom_eq]
      exact (ih u.rest.length (hn ▸ hlt) (hS.withConsumed true huv) rfl).map
    | @refusal e e' u v hflag hd =>
      rw [Parser.many, manyFrom, manyFrom, hr, hr']
      simp only [hflag, Bool.false_eq_true, if_false]
      split
      next hset => exact .strays hset
      · have hback := hS.withConsumed s.consumed (hS.rewindFrom u v hchecked hd)
        nth_rewrite 2 [← hS.consumed hst] at hback
        exact .success hback

/-- Upheld is what is upheld on longer texts because it is on shorter ones. -/
theorem of_short (h : ∀ n, Upheld C (fun s t => S s t ∧ Short n s t) R p →
    Upheld C (fun s t => S s t ∧ Short (n + 1) s t) R p) : Upheld C S R p := by
  have all : ∀ n, Upheld C (fun s t => S s t ∧ Short n s t) R p := by
    intro n
    induction n with
    | zero => exact fun s t hst => absurd hst.2 (Nat.not_lt_zero _)
    | succ n ih => exact h n ih
  exact fun s t hst => all (s.rest.length + 1) ⟨hst, Nat.lt_succ_self _⟩

end Upheld

end Parser

end ContextRoles.Parsing
