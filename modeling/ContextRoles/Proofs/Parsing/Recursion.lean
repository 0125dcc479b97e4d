import ContextRoles.Proofs.Parsing.Totality

/-! # Recursive grammars that read before they recur

A member of a family that reads something before it refers to the family runs on less text there. So
the guard against endless recursion never acts: the family solves its own equation, and it is total
when its body is.
-/

namespace ContextRoles.Parsing.Parser

open State

variable {α β ι : Type} {p p' q q' : Parser α} {n : Nat}

/-- `p` and `q` run alike wherever fewer than `n` characters are left. -/
def AgreeBelow (n : Nat) (p q : Parser α) : Prop :=
  ∀ s : State, s.Sound → s.rest.length < n → p s = q s

namespace AgreeBelow

theorem refl (p : Parser α) : AgreeBelow n p p := fun _ _ _ => rfl

theorem bind {f g : α → Parser β} (h : AgreeBelow n p q) (hp : Framed p)
    (h' : ∀ a, AgreeBelow n (f a) (g a)) : AgreeBelow n (p.bind f) (q.bind g) := by
  intro s hs hn
  simp only [Parser.bind, ← h s hs hn]
  cases hr : p s with
  | success a t =>
    have ht := hp.success hr
    exact h' a t (ht.sound hs) (Nat.lt_of_le_of_lt ht.length_le hn)
  | failure e t => rfl
  | stalled => rfl

theorem bind_consuming {f g : α → Parser β} (hp : Framed p) (hc : Consuming p)
    (h : ∀ a, AgreeBelow n (f a) (g a)) : AgreeBelow (n + 1) (p.bind f) (p.bind g) := by
  intro s hs hn
  simp only [Parser.bind]
  cases hr : p s with
  | success a t =>
    exact h a t ((hp.success hr).sound hs) (Nat.lt_of_lt_of_le (hc hs hr) (Nat.le_of_lt_succ hn))
  | failure e t => rfl
  | stalled => rfl

theorem alt (h : AgreeBelow n p q) (h' : AgreeBelow n p' q') :
    AgreeBelow n (Parser.alt p p') (Parser.alt q q') := by
  intro s hs hn
  simp only [Parser.alt, ← h s.checkpoint hs hn]
  cases hr : p s.checkpoint with
  | success a t => rfl
  | failure e t =>
    dsimp only
    split
    · rfl
    · rw [h' (s.checkpoint.rewindFrom t) hs hn]
  | stalled => rfl

theorem attempt (h : AgreeBelow n p q) : AgreeBelow n (Parser.attempt p) (Parser.attempt q) := by
  intro s hs hn
  simp only [Parser.attempt, h s hs hn]

theorem withPosition (h : AgreeBelow n p q) :
    AgreeBelow n (Parser.withPosition p) (Parser.withPosition q) := by
  intro s hs hn
  simp only [Parser.withPosition, h (s.withReference s.position) hs hn]

theorem many (h : AgreeBelow n p q) (hp : Framed p) :
    AgreeBelow n (Parser.many p) (Parser.many q) := by
  have rounds : ∀ values, AgreeBelow n (manyFrom p values) (manyFrom q values) := by
    intro values s hs hn
    induction values, s using manyFrom.induct p with
    | case1 values s e t hr hc =>
      rw [manyFrom, manyFrom, ← h s.checkpoint hs hn, hr]
    | case2 values s e t hr hc =>
      rw [manyFrom, manyFrom, ← h s.checkpoint hs hn, hr]
    | case3 values s a t hr hlt ih =>
      have ht := hp.success hr
      rw [manyFrom, manyFrom, ← h s.checkpoint hs hn, hr]
      simp only [hlt, if_true]
      exact ih (ht.sound hs) (Nat.lt_of_le_of_lt ht.length_le hn)
    | case4 values s a t hr hlt =>
      rw [manyFrom, manyFrom, ← h s.checkpoint hs hn, hr]
      simp only [hlt, if_false]
    | case5 values s hr =>
      rw [manyFrom, manyFrom, ← h s.checkpoint hs hn, hr]
  exact rounds []

theorem indentedBlock (h : AgreeBelow n p q) (hp : Framed p) :
    AgreeBelow n (Parser.indentedBlock p) (Parser.indentedBlock q) := by
  have hi : Framed checkIndent := .primitive .checkIndent
  have hb : AgreeBelow n (block p) (block q) :=
    (((refl checkIndent).bind hi fun _ => h).many (hi.bind fun _ => hp)).withPosition
  intro s hs hn
  simp only [Parser.indentedBlock]
  split
  next opened ho =>
    have ht := Framed.indented.success ho
    rw [hb opened (ht.sound hs) (Nat.lt_of_le_of_lt ht.length_le hn)]
  · rfl

end AgreeBelow

variable {body : (ι → Parser α) → ι → Parser α}

/-- Whether every member reads something before it refers to the family. -/
def ReadsFirst (body : (ι → Parser α) → ι → Parser α) : Prop :=
  ∀ n self self', (∀ j, Framed (self j)) → (∀ j, AgreeBelow n (self j) (self' j)) →
    ∀ j, AgreeBelow (n + 1) (body self j) (body self' j)

theorem recurse_eq (h : ReadsFirst body) (hf : ∀ i, Framed (recurse 0 body i)) (i : ι) {s : State}
    (hs : s.Sound) : recurse 0 body i s = body (recurse 0 body) i s := by
  rw [recurse, recurseFrom_eq]
  refine (h s.rest.length _ _ hf (fun j t ht hn => ?_) i s hs (Nat.lt_succ_self _)).symm
  have hlt : t.remaining < s.remaining := by rwa [ht.remaining, hs.remaining]
  simp only [reenter, hlt, if_true, recurse]

theorem Yields.recurse {V : α → Prop} {limit : Nat} {i : ι} (h : ∀ self, Yields (body self i) V) :
    Yields (Parser.recurse limit body i) V := by
  intro s a t hr
  rw [Parser.recurse, recurseFrom_eq] at hr
  exact h _ hr

/-- The values that a family yields may be used to show that its body is total. -/
theorem Total.recurse {V : ι → α → Prop} (h : ReadsFirst body)
    (hf : ∀ i, Framed (Parser.recurse 0 body i))
    (hv : ∀ i, Yields (Parser.recurse 0 body i) (V i))
    (ht : ∀ self, (∀ j, Framed (self j)) → (∀ j, Total (self j)) → (∀ j, Yields (self j) (V j)) →
      ∀ j, Total (body self j)) (i : ι) : Total (Parser.recurse 0 body i) := by
  intro s hs
  induction hn : s.rest.length using Nat.strongRecOn generalizing i s with
  | _ n ih =>
    -- where the text is not shorter the family is not reached, so it may be cut off there
    let shorter (j : ι) : Parser α := fun t =>
      if t.rest.length < n then Parser.recurse 0 body j t else Parser.fail .noAlternatives t
    have agree : ∀ j, AgreeBelow n (Parser.recurse 0 body j) (shorter j) := fun j t _ hlt => by
      simp only [shorter, hlt, if_true]
    rw [recurse_eq h hf i hs, h n _ shorter hf agree i s hs (hn ▸ Nat.lt_succ_self _)]
    refine ht shorter (fun j t => ?_) (fun j t htt => ?_) (fun j t a u hr => ?_) i s hs
    · by_cases hlt : t.rest.length < n
      · simpa only [shorter, hlt, if_true] using hf j t
      · simpa only [shorter, hlt, if_false] using Framed.primitive (.fail _) t
    · by_cases hlt : t.rest.length < n
      · simpa only [shorter, hlt, if_true] using ih _ hlt j t htt rfl
      · simp [shorter, hlt, Parser.fail]
    · by_cases hlt : t.rest.length < n
      · simp only [shorter, hlt, if_true] at hr
        exact hv j hr
      · simp only [shorter, hlt, if_false] at hr
        cases hr

/-- What the body carries from the references to a run of its own holds of every run of a family. -/
theorem recurse_run {R : ι → State → Outcome α → Prop} {limit : Nat} (hs : ∀ i s, R i s .stalled)
    (h : ∀ self, (∀ i s, R i s (self i s)) → ∀ i s, R i s (body self i s)) (i : ι) (s : State) :
    R i s (Parser.recurse limit body i s) := by
  have entries : ∀ room budget i s, R i s (recurseFrom limit body room budget i s) := by
    intro room
    induction room using Nat.strongRecOn with
    | _ room ih =>
      intro budget
      induction budget with
      | zero =>
        intro i s
        rw [recurseFrom_eq]
        refine h _ (fun j t => ?_) i s
        unfold reenter
        split
        next hlt => exact ih t.remaining hlt limit j t
        · exact hs j t
      | succ budget ih' =>
        intro i s
        rw [recurseFrom_eq]
        refine h _ (fun j t => ?_) i s
        unfold reenter
        split
        next hlt => exact ih t.remaining hlt limit j t
        · exact ih' j t
  exact entries s.remaining limit i s

end ContextRoles.Parsing.Parser
