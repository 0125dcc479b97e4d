import ContextRoles.Proofs.Parsing.Accumulation
import ContextRoles.Proofs.Parsing.Course

/-! # Repetitions and recursion

A repetition is a loop. It comes to an end, since no run moves the cursor back and each round moves it on,
and where no round stays in place it is the recursion of one or more rounds or none at all.
-/

namespace ContextRoles.Parsing

theorem Outcome.marked_map {α β : Type} (f : α → β) (r : Outcome α) :
    (r.map f).marked = r.marked.map f := by
  cases r <;> rfl

namespace Parser

open State

variable {α : Type} {p : Parser α} {s t : State} {values : List α} {r : Outcome (List α)}

/-- The rounds of a repetition, each of them from a checkpoint, with the values of the rounds before in
reverse. They end at a failure, and with no result at a success that moved nothing. -/
inductive Iterates (p : Parser α) : List α → State → Outcome (List α) → Prop where
  | broken {values : List α} {s t : State} {e : ParseError} :
    p s.checkpoint = .failure e t → t.consumed = true → Iterates p values s (.failure e t)
  | ended {values : List α} {s t : State} {e : ParseError} :
    p s.checkpoint = .failure e t → t.consumed = false →
      Iterates p values s (.success values.reverse (s.rewindFrom t))
  | round {values : List α} {s t : State} {a : α} {r : Outcome (List α)} :
    p s.checkpoint = .success a t → t.offset ≠ s.offset →
      Iterates p (a :: values) (t.withConsumed true) r → Iterates p values s r
  | empty {values : List α} {s t : State} {a : α} :
    p s.checkpoint = .success a t → t.offset = s.offset → Iterates p values s .stalled
  | stuck {values : List α} {s : State} : p s.checkpoint = .stalled → Iterates p values s .stalled

theorem round_remaining_lt_iff (h : Ends Onward p) (hs : s.Placed) {a : α}
    (hr : p s.checkpoint = .success a t) : t.remaining < s.remaining ↔ t.offset ≠ s.offset :=
  (threads_onward.of_checkpoint (h.success hr)).remaining_lt_iff hs

theorem round_placed (h : Ends Onward p) (hs : s.Placed) {a : α}
    (hr : p s.checkpoint = .success a t) : (t.withConsumed true).Placed :=
  (threads_onward.of_checkpoint (h.success hr)).placed hs

theorem iterates_manyFrom (h : Ends Onward p) (values : List α) (hs : s.Placed) :
    Iterates p values s (manyFrom p values s) := by
  induction values, s using manyFrom.induct p with
  | case1 values s e t hr hc =>
    rw [manyFrom]
    simpa only [hr, hc, if_true] using .broken hr hc
  | case2 values s e t hr hc =>
    rw [manyFrom]
    simpa only [hr, hc, if_false] using .ended hr (by simpa using hc)
  | case3 values s a t hr hlt ih =>
    rw [manyFrom]
    simpa only [hr, hlt, if_true] using
      .round hr ((round_remaining_lt_iff h hs hr).mp hlt) (ih (round_placed h hs hr))
  | case4 values s a t hr hlt =>
    rw [manyFrom]
    simpa only [hr, hlt, if_false] using
      .empty hr (Decidable.not_not.mp (mt (round_remaining_lt_iff h hs hr).mpr hlt))
  | case5 values s hr =>
    rw [manyFrom]
    simpa only [hr] using .stuck hr

theorem Iterates.eq_manyFrom (hi : Iterates p values s r) (h : Ends Onward p) (hs : s.Placed) :
    r = manyFrom p values s := by
  induction hi with
  | broken hr hc =>
    rw [manyFrom]
    simp only [hr, hc, if_true]
  | ended hr hc =>
    rw [manyFrom]
    simp [hr, hc]
  | round hr hmoved _ ih =>
    rw [manyFrom, ih (round_placed h hs hr)]
    simp only [hr, (round_remaining_lt_iff h hs hr).mpr hmoved, if_true]
  | empty hr hstill =>
    rw [manyFrom]
    simp only [hr, mt (round_remaining_lt_iff h hs hr).mp (Decidable.not_not.mpr hstill), if_false]
  | stuck hr =>
    rw [manyFrom]
    simp only [hr]

/-- A first round of a repetition that comes to a result has read something and set the flag, and the
other rounds are a repetition of their own. -/
theorem many_of_success (hacc : Accumulates p) (h : Ends Onward p) {a : α}
    (hne : many p s ≠ .stalled) (hr : p s.checkpoint = .success a t) :
    t.remaining < s.remaining ∧ t.consumed = true ∧ many p s = (many p t).map (a :: ·) := by
  rw [many, manyFrom] at hne ⊢
  simp only [hr] at hne ⊢
  by_cases hlt : t.remaining < s.remaining
  · have hsize : t.size = s.size := (h.success hr).size_eq
    have hset : t.consumed = true := by
      cases hc : t.consumed with
      | true => rfl
      | false =>
        have hoffset : t.offset = s.checkpoint.offset := hacc.still hr hc
        have hoffset : t.offset = s.offset := hoffset
        exact absurd hlt (by simp [remaining, hsize, hoffset])
    have hself : t.withConsumed true = t := marked_of_consumed hset
    simp only [hlt, if_true, hself, hset]
    exact ⟨trivial, trivial, Reads.manyFrom_eq p [a] t⟩
  · simp [hlt] at hne

theorem alt_of_marked {q : Parser α} (h : p s.checkpoint = (p s.checkpoint).marked) :
    alt p q s = p s.checkpoint := by
  rw [alt]
  generalize p s.checkpoint = r at h ⊢
  cases r with
  | success a t =>
    have ht : t = t.withConsumed true := (Outcome.success.inj h).2
    rw [ht]
    simp [Outcome.merge, Outcome.mapState, withConsumed]
  | failure e t =>
    have ht : t = t.withConsumed true := (Outcome.failure.inj h).2
    rw [ht]
    simp [Outcome.merge, Outcome.mapState, withConsumed]
  | stalled => rfl

theorem many_eq_alt (hacc : Accumulates p) (h : Ends Onward p) (hne : many p s ≠ .stalled) :
    many p s = alt (some p) (Parser.pure []) s := by
  cases hr : p s.checkpoint with
  | failure e t =>
    have hsome : some p s.checkpoint = .failure e t := by simp only [some, Parser.bind, hr]
    rw [many, manyFrom]
    simp only [hr]
    cases hc : t.consumed with
    | true =>
      have hself : t.marked = t := marked_of_consumed hc
      rw [alt_of_marked (by rw [hsome, Outcome.marked, Outcome.mapState, hself]), hsome]
      rfl
    | false =>
      rw [alt, hsome]
      simp [hc, Parser.pure, Outcome.merge, Outcome.mapState, rewindFrom, checkpoint, withConsumed]
  | stalled =>
    rw [many, manyFrom, alt, some, Parser.bind]
    simp only [hr]
    rfl
  | success a t =>
    obtain ⟨-, hset, hrest⟩ := many_of_success hacc h hne hr
    have hmarked : many p t = (many p t).marked := by
      have hm := (Accumulates.many p).marked t
      rwa [marked_of_consumed hset] at hm
    have hsome : some p s.checkpoint = (many p t).map (a :: ·) := by
      simp only [some, Parser.bind, hr, Parser.map]
    rw [alt_of_marked (by rw [hsome, Outcome.marked_map, ← hmarked]), hsome, hrest]

theorem alt_congr_left {p' q : Parser α} (h : p s.checkpoint = p' s.checkpoint) :
    alt p q s = alt p' q s := by
  rw [alt, alt, h]

/-- A repetition as a parser that refers to itself. -/
def manyRecursive (p : Parser α) (self : Unit → Parser (List α)) (_ : Unit) : Parser (List α) :=
  alt (p.bind fun a => (self ()).map (a :: ·)) (Parser.pure [])

/-- Each entry of the recursion has less to read than the one before, so it need not be guarded. -/
theorem recurse_eq_many (hacc : Accumulates p) (h : Ends Onward p) (limit : Nat)
    (hne : many p s ≠ .stalled) : recurse limit (manyRecursive p) () s = many p s := by
  suffices entries : ∀ room budget, s.remaining ≤ room →
      recurseFrom limit (manyRecursive p) room budget () s = many p s from
    entries _ _ (Nat.le_refl _)
  induction hn : s.remaining using Nat.strongRecOn generalizing s with
  | _ n ih =>
    intro room budget hroom
    rw [recurseFrom_eq, manyRecursive, many_eq_alt hacc h hne]
    refine alt_congr_left ?_
    simp only [some, Parser.bind]
    cases hr : p s.checkpoint with
    | failure e t => rfl
    | stalled => rfl
    | success a t =>
      obtain ⟨hlt, -, hrest⟩ := many_of_success hacc h hne hr
      have hne' : many p t ≠ .stalled := fun hstalled => hne (by rw [hrest, hstalled]; rfl)
      have hentry : reenter limit (manyRecursive p) room budget () t = many p t := by
        rw [reenter, if_pos (Nat.lt_of_lt_of_le (hn ▸ hlt) hroom)]
        exact ih _ (hn ▸ hlt) hne' rfl _ _ (Nat.le_refl _)
      simp only [Parser.map, hentry]

end Parser

end ContextRoles.Parsing
