import ContextRoles.Proofs.Parsing.Location
import ContextRoles.Proofs.Parsing.Accumulation

/-! # Two ways to choose

Trying two parsers for the one that comes furthest, and attempting the first one before the second, run
the same parsers in the same states. They differ only in the error that is kept when both fail.
-/

namespace ContextRoles.Parsing

/-- Of two errors the one that lies further in the text, and of two in one place the second. -/
def ParseError.later (e e' : ParseError) : ParseError :=
  if e'.position.before e.position then e else e'

namespace Parser

open State

variable {α : Type} {p q : Parser α} {s t : State} {a : α} {e : ParseError}

theorem threads_sameDrawn : Threads fun s t : State => t.drawn = s.drawn where
  refl _ := rfl
  trans h h' := h'.trans h
  of_checkpoint h := h
  withConsumed h _ := h
  rewindFrom _ h := h
  restore h := h
  enterLine _ := rfl
  advance _ _ _ := rfl

theorem Accumulates.failure_of_checkpoint (h : Accumulates p) (hr : p s.checkpoint = .failure e t) :
    p s = .failure e (t.withConsumed (s.consumed || t.consumed)) := by
  rw [h.eq_merge s, hr]
  rfl

theorem Accumulates.checkpoint_of_failure (h : Accumulates p) (hr : p s = .failure e t) :
    ∃ u, p s.checkpoint = .failure e u ∧ u.drawn = t.drawn := by
  rw [h.eq_merge s] at hr
  cases hp : p s.checkpoint with
  | failure e' u =>
    rw [hp] at hr
    cases hr
    exact ⟨u, rfl, rfl⟩
  | _ =>
    rw [hp] at hr
    cases hr

theorem attempt_alt_eq (p q : Parser α) (s : State) : alt (attempt p) q s =
    Outcome.merge s.consumed (match p s.checkpoint with
      | .failure _ t => q (s.checkpoint.rewindFrom t)
      | r => r) := by
  simp only [alt, attempt]
  cases p s.checkpoint <;> rfl

theorem furthest_pair_eq (p q : Parser α) (s : State) : furthest [p, q] s =
    Outcome.merge s.consumed (match p s.checkpoint with
      | .failure e t =>
        match q (s.checkpoint.rewindFrom t) with
        | .failure e' t' =>
          let best := furthestFailure (Option.some (e, t)) e' t'
          .failure best.1 (best.2.rewindFrom (s.checkpoint.rewindFrom t'))
        | r => r
      | r => r) := by
  simp only [furthest, furthest.go]
  cases p s.checkpoint with
  | failure e t =>
    dsimp only
    cases q (s.checkpoint.rewindFrom t) <;> rfl
  | _ => rfl

theorem furthest_pair_cases (p q : Parser α) (s : State) :
    (furthest [p, q] s = alt (attempt p) q s ∧ ∀ e u, alt (attempt p) q s ≠ .failure e u) ∨
      ∃ e t e' t', p s.checkpoint = .failure e t ∧
        q (s.checkpoint.rewindFrom t) = .failure e' t' ∧
        (∃ u, furthest [p, q] s = .failure (e.later e') u) ∧
        ∃ u, alt (attempt p) q s = .failure e' u := by
  rw [furthest_pair_eq, attempt_alt_eq]
  cases hp : p s.checkpoint with
  | success a t => exact .inl ⟨rfl, nofun⟩
  | stalled => exact .inl ⟨rfl, nofun⟩
  | failure e t =>
    dsimp only
    cases hq : q (s.checkpoint.rewindFrom t) with
    | success a u => exact .inl ⟨rfl, nofun⟩
    | stalled => exact .inl ⟨rfl, nofun⟩
    | failure e' t' =>
      refine .inr ⟨e, t, e', t', rfl, hq, ⟨_, congrArg (Outcome.failure · _) ?_⟩, _, rfl⟩
      simp only [furthestFailure, ParseError.later]
      split <;> rfl

theorem furthest_success_iff :
    furthest [p, q] s = .success a t ↔ alt (attempt p) q s = .success a t := by
  rcases furthest_pair_cases p q s with ⟨heq, -⟩ | ⟨e, v, e', v', -, -, ⟨u, hu⟩, u', hu'⟩
  · rw [heq]
  · rw [hu, hu']
    simp

theorem furthest_stalled_iff : furthest [p, q] s = .stalled ↔ alt (attempt p) q s = .stalled := by
  rcases furthest_pair_cases p q s with ⟨heq, -⟩ | ⟨e, v, e', v', -, -, ⟨u, hu⟩, u', hu'⟩
  · rw [heq]
  · rw [hu, hu']
    simp

/-- Both ways to choose fail exactly when both parsers do. One keeps the later error, the other one the
second. -/
theorem furthest_failure_iff (h : Accumulates p) (h' : Accumulates q) {f f' : ParseError} :
    ((∃ u, furthest [p, q] s = .failure f u) ∧ ∃ u, alt (attempt p) q s = .failure f' u) ↔
      ∃ e t t', p s = .failure e t ∧ q (s.rewindFrom t) = .failure f' t' ∧ f = e.later f' := by
  have hrewound (t : State) : (s.rewindFrom t).checkpoint = s.checkpoint.rewindFrom t := rfl
  constructor
  · rintro ⟨⟨u, hf⟩, u', hf'⟩
    rcases furthest_pair_cases p q s with ⟨-, hne⟩ | ⟨e, t, e', t', hp, hq, ⟨v, hv⟩, v', hv'⟩
    · exact absurd hf' (hne f' u')
    · rw [hv] at hf
      rw [hv'] at hf'
      cases hf
      cases hf'
      exact ⟨e, _, _, h.failure_of_checkpoint hp, h'.failure_of_checkpoint (hrewound _ ▸ hq), rfl⟩
  · rintro ⟨e, t, t', hp, hq, rfl⟩
    obtain ⟨u, hu, hdrawn⟩ := h.checkpoint_of_failure hp
    have hsame : s.rewindFrom u = s.rewindFrom t := by rw [rewindFrom, rewindFrom, hdrawn]
    obtain ⟨u', hu', -⟩ := h'.checkpoint_of_failure hq
    rw [← hsame, hrewound] at hu'
    rcases furthest_pair_cases p q s with ⟨-, hne⟩ | ⟨e₀, t₀, e₁, t₁, hp₀, hq₀, hfurthest, halt⟩
    · have halt : alt (attempt p) q s = Outcome.merge s.consumed (.failure f' u') := by
        rw [attempt_alt_eq, hu]
        exact congrArg (Outcome.merge s.consumed) hu'
      exact absurd halt (hne f' _)
    · cases hu.symm.trans hp₀
      cases hu'.symm.trans hq₀
      exact ⟨hfurthest, halt⟩

theorem later_eq {source : List Char} {e' : ParseError} {t' : State} (h : Located p)
    (h' : Located q) (hs : s.Within source) (hp : p s = .failure e t)
    (hq : q (s.rewindFrom t) = .failure e' t') :
    e.later e' = if t'.offset < t.offset then e else e' := by
  have ht := h.within hs
  have ht' := h'.within (s := s.rewindFrom t) ⟨hs.size_eq, hs.offset_le, hs.rest_eq, hs.position_eq⟩
  rw [hp] at ht
  rw [hq] at ht'
  have hbefore : e'.position.before e.position = true ↔ t'.offset < t.offset := by
    rw [h.inPlace hp, h'.inPlace hq, ht.1.position_eq, ht'.1.position_eq]
    exact positionAt_before_iff ht'.1.offset_le ht.1.offset_le
  simp only [ParseError.later, hbefore]

end Parser

end ContextRoles.Parsing
