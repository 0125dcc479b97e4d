import ContextRoles.Proofs.Parsing.Alternatives

/-! # The alternative that a choice falls on

A choice is built of alternations, one in another, and each of them sets a checkpoint. It comes to the
same as a list that is gone through once: the first alternative that does not fail in place has the
outcome, and the last one where there is no such. So brackets around alternatives do not matter.
-/

namespace ContextRoles.Parsing

def Outcome.GivesWay {α : Type} (r : Outcome α) : Prop :=
  ∃ e t, r = .failure e t ∧ t.consumed = false

namespace Parser

open State

variable {α : Type} {p q : Parser α} {ps qs : List (Parser α)} {s t u : State} {e : ParseError}

section Alternation

theorem alt_eq_merge (p q : Parser α) (s : State) :
    alt p q s = (alt p q s.checkpoint).merge s.consumed := by
  change alt p q s = (Outcome.merge false _).merge s.consumed
  rw [Outcome.merge_false]
  rfl

theorem alt_of_givesWay (hs : s.consumed = false) (h : p s = .failure e t)
    (hc : t.consumed = false) : alt p q s = q (s.rewindFrom t) := by
  simp only [alt, checkpoint_eq_self hs, hs, h, hc, Outcome.merge_false, Bool.false_eq_true, if_false]

theorem alt_of_not_givesWay (hs : s.consumed = false) (h : ¬ (p s).GivesWay) : alt p q s = p s := by
  simp only [alt, checkpoint_eq_self hs, hs, Outcome.merge_false]
  cases hp : p s with
  | failure e t =>
    have hc : t.consumed = true := by
      cases ht : t.consumed with
      | true => rfl
      | false => exact absurd ⟨e, t, hp, ht⟩ h
    simp only [hc, if_true]
  | _ => rfl

theorem alt_assoc (p q r : Parser α) : alt (alt p q) r = alt p (alt q r) := by
  funext s
  suffices clear : alt (alt p q) r s.checkpoint = alt p (alt q r) s.checkpoint by
    rw [alt_eq_merge, clear, ← alt_eq_merge]
  have hs : s.checkpoint.consumed = false := rfl
  generalize s.checkpoint = s at hs
  by_cases hp : (p s).GivesWay
  · obtain ⟨e, t, hp, ht⟩ := hp
    have hfirst : alt p q s = q (s.rewindFrom t) := alt_of_givesWay hs hp ht
    have hs' : (s.rewindFrom t).consumed = false := hs
    rw [alt_of_givesWay hs hp ht]
    by_cases hq : (q (s.rewindFrom t)).GivesWay
    · obtain ⟨e', t', hq, ht'⟩ := hq
      rw [alt_of_givesWay hs (hfirst.trans hq) ht', alt_of_givesWay hs' hq ht']
      rfl
    · rw [alt_of_not_givesWay hs (hfirst.symm ▸ hq), hfirst, alt_of_not_givesWay hs' hq]
  · have hfirst : alt p q s = p s := alt_of_not_givesWay hs hp
    rw [alt_of_not_givesWay hs (hfirst.symm ▸ hp), hfirst, alt_of_not_givesWay hs hp]

instance : Std.Associative (alt : Parser α → Parser α → Parser α) := ⟨alt_assoc⟩

end Alternation

section Lists

theorem choice_append (hp : ps ≠ []) (hq : qs ≠ []) :
    choice (ps ++ qs) = alt (choice ps) (choice qs) := by
  obtain ⟨p, ps, rfl⟩ := List.exists_cons_of_ne_nil hp
  obtain ⟨q, qs, rfl⟩ := List.exists_cons_of_ne_nil hq
  calc choice (p :: ps ++ q :: qs) = (q :: qs).foldl alt (choice (p :: ps)) := List.foldl_append
    _ = alt (choice (p :: ps)) (choice (q :: qs)) := List.foldl_assoc

theorem choice_cons (h : ps ≠ []) : choice (p :: ps) = alt p (choice ps) :=
  choice_append (List.cons_ne_nil p []) h

theorem choice_flatten {pss : List (List (Parser α))} (hne : pss ≠ []) (h : ∀ ps ∈ pss, ps ≠ []) :
    choice (pss.map choice) = choice pss.flatten := by
  induction pss with
  | nil => exact absurd rfl hne
  | cons ps pss ih =>
    rw [List.forall_mem_cons] at h
    by_cases hpss : pss = []
    · subst hpss
      rw [List.flatten_singleton]
      rfl
    · have hmap : pss.map choice ≠ [] := by simpa using hpss
      have hrest : pss.flatten ≠ [] := by
        obtain ⟨qs, hqs⟩ := List.exists_mem_of_ne_nil pss hpss
        exact List.flatten_ne_nil_iff.mpr ⟨qs, hqs, h.2 qs hqs⟩
      rw [List.map_cons, choice_cons hmap, ih hpss h.2, List.flatten_cons, choice_append h.1 hrest]

/-- From `s` the choice falls on `p`, which starts from `u`: the alternatives before it give way, and
`p` does not, or is the last one. -/
inductive Chooses : List (Parser α) → State → Parser α → State → Prop where
  | last {p : Parser α} {s : State} : Chooses [p] s p s
  | taken {p : Parser α} {ps : List (Parser α)} {s : State} :
      ¬ (p s).GivesWay → Chooses (p :: ps) s p s
  | passed {p q : Parser α} {ps : List (Parser α)} {s t u : State} {e : ParseError} :
      p s = .failure e t → t.consumed = false → Chooses ps (s.rewindFrom t) q u →
      Chooses (p :: ps) s q u

theorem exists_chooses (h : ps ≠ []) (s : State) : ∃ p u, Chooses ps s p u := by
  induction ps generalizing s with
  | nil => exact absurd rfl h
  | cons p ps ih =>
    by_cases hp : (p s).GivesWay
    · obtain ⟨e, t, hp, ht⟩ := hp
      cases ps with
      | nil => exact ⟨p, s, .last⟩
      | cons q ps =>
        obtain ⟨r, u, hr⟩ := ih (by simp) (s.rewindFrom t)
        exact ⟨r, u, .passed hp ht hr⟩
    · exact ⟨p, s, .taken hp⟩

namespace Chooses

theorem ne_nil (h : Chooses ps s p u) : ps ≠ [] := by
  cases h <;> exact List.cons_ne_nil _ _

/-- Every alternative starts where the first one did, and only has other identifiers to draw. -/
theorem rewound (h : Chooses ps s p u) : u = s.rewindFrom u := by
  induction h with
  | last | taken => rfl
  | passed _ _ _ ih => exact ih

theorem choice_eq (h : Chooses ps s p u) (hs : s.consumed = false) : choice ps s = p u := by
  induction h with
  | last => rfl
  | @taken p ps s hp =>
    cases ps with
    | nil => rfl
    | cons q ps => rw [choice_cons (by simp), alt_of_not_givesWay hs hp]
  | passed hp ht hrest ih =>
    rw [choice_cons hrest.ne_nil, alt_of_givesWay hs hp ht]
    exact ih hs

/-- Whatever was read before, the outcome is that of the alternative on which the choice falls. -/
theorem choice_eq_merge (h : Chooses ps s.checkpoint p u) (flag : Accumulates (choice ps)) :
    choice ps s = (p u).merge s.consumed := by
  rw [flag.eq_merge s, h.choice_eq rfl]

end Chooses

end Lists

section Groups

/-- Alternatives in brackets. -/
inductive Grouping (α : Type) where
  | single (p : Parser α)
  | either (g g' : Grouping α)

namespace Grouping

/-- The alternatives without the brackets. -/
def alternatives : Grouping α → List (Parser α)
  | single p => [p]
  | either g g' => g.alternatives ++ g'.alternatives

def parser : Grouping α → Parser α
  | single p => p
  | either g g' => alt g.parser g'.parser

theorem alternatives_ne_nil (g : Grouping α) : g.alternatives ≠ [] := by
  induction g with
  | single p => exact List.cons_ne_nil p []
  | either g g' ih _ => exact List.append_ne_nil_of_left_ne_nil ih _

theorem parser_eq_choice (g : Grouping α) : g.parser = choice g.alternatives := by
  induction g with
  | single p => rfl
  | either g g' ih ih' =>
    rw [parser, alternatives, choice_append g.alternatives_ne_nil g'.alternatives_ne_nil, ih, ih']

end Grouping

end Groups

end Parser

end ContextRoles.Parsing
