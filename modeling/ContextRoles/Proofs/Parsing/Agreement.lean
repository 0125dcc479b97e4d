import ContextRoles.Proofs.Parsing.Pairing

/-! # Runs that differ in values only

Two runs go through the same states while their values differ. What is known of the values may depend on
the number of identifiers that were drawn by then: it need not be known of values that come later.
-/

namespace ContextRoles.Parsing.Parser

open State

variable {α β γ δ : Type} {V : α → β → Prop} {W : γ → δ → Prop} {p p' : Parser α} {q q' : Parser β}
  {lo hi n m : Nat}

/-- Both runs are in one state, behind draws from `lo` on, with less than `n` characters left. -/
structure Together (lo n : Nat) (s t : State) : Prop where
  same : t = s
  sound : s.Sound
  drawn_le : lo ≤ s.drawn
  short : s.rest.length < n

/-- Both runs are in one state, with values that are related unless more than `hi` was drawn. -/
def Jointly (lo n hi : Nat) (V : α → β → Prop) (a : α) (b : β) (s t : State) : Prop :=
  Together lo n s t ∧ (s.drawn ≤ hi → V a b)

/-- Runs that come to the same result but for their values. -/
abbrev Agree (lo n hi : Nat) (V : α → β → Prop) (p : Parser α) (q : Parser β) : Prop :=
  Paired Eq (Together lo n) (Jointly lo n hi V) p q

theorem tracks_together : Tracks (Together lo n) where
  sound _ _ h := by
    obtain ⟨rfl, hs, -, -⟩ := h
    exact ⟨hs, hs⟩
  consumed _ _ h := congrArg consumed h.same
  drawn _ _ h := congrArg drawn h.same
  withConsumed _ _ b h := ⟨congrArg (State.withConsumed · b) h.same, h.sound, h.drawn_le, h.short⟩

theorem tracks_jointly (a : α) (b : β) : Tracks (Jointly lo n hi V a b) where
  sound _ _ h := tracks_together.sound h.1
  consumed _ _ h := tracks_together.consumed h.1
  drawn _ _ h := tracks_together.drawn h.1
  withConsumed _ _ c h := ⟨tracks_together.withConsumed c h.1, h.2⟩

namespace Together

variable {s t u : State}

theorem reaches (h : Together lo n s t) (hu : s.Reaches u) : Together lo n u u :=
  ⟨rfl, hu.sound h.sound, Nat.le_trans h.drawn_le hu.drawn_le, Nat.lt_of_le_of_lt hu.length_le h.short⟩

theorem withReference (h : Together lo n s t) (r : Position) :
    Together lo n (s.withReference r) (t.withReference r) :=
  ⟨congrArg (State.withReference · r) h.same, h.sound, h.drawn_le, h.short⟩

end Together

theorem rewinds_together (hp : Framed p) : Rewinds (Together lo n) p q := by
  rintro s t e e' u v h hu - hd
  obtain rfl := h.same
  have hst : t.rewindFrom v = t.rewindFrom u := congrArg (fun d => { t with drawn := d }) hd
  rw [hst]
  exact h.reaches (hp.failure hu).rewind

namespace Agree

theorem bind_left_of_yields {f : α → Parser γ} {g : α → Parser δ} {P : α → Prop} (hp : Framed p)
    (hP : Yields p P) (h : ∀ a, P a → Agree lo n hi W (f a) (g a)) :
    Agree lo n hi W (p.bind f) (p.bind g) := by
  rintro s t hst
  obtain rfl := hst.same
  simp only [Parser.bind]
  cases hr : p t with
  | success a u => exact h a (hP hr) (hst.reaches (hp.success hr))
  | failure e u => exact .failure rfl rfl rfl
  | stalled => exact .stalled

theorem bind_left {f : α → Parser γ} {g : α → Parser δ} (hp : Framed p)
    (h : ∀ a, Agree lo n hi W (f a) (g a)) : Agree lo n hi W (p.bind f) (p.bind g) :=
  bind_left_of_yields (P := fun _ => True) hp (fun _ _ _ _ => trivial) fun a _ => h a

theorem then_ {r : Parser γ} (hr : Framed r) (h : Agree lo n hi V p q) :
    Agree lo n hi V (r.then_ p) (r.then_ q) := bind_left hr fun _ => h

theorem widen (h : Agree lo n hi V p q) (hn : n ≤ m) {s t : State} (hs : s.rest.length < n)
    (hst : Together lo m s t) : (p s).Matches Eq (Jointly lo m hi V) (q t) :=
  (h ⟨hst.same, hst.sound, hst.drawn_le, hs⟩).mono fun _ _ _ _ ⟨hj, hV⟩ =>
    ⟨⟨hj.same, hj.sound, hj.drawn_le, Nat.lt_of_lt_of_le hj.short hn⟩, hV⟩

theorem bind_header {f : α → Parser γ} {g : α → Parser δ} {P : α → Prop} (hp : Framed p)
    (hc : Consuming p) (hP : Yields p P) (h : ∀ a, P a → Agree lo n hi W (f a) (g a)) :
    Agree lo (n + 1) hi W (p.bind f) (p.bind g) := by
  rintro s t hst
  obtain rfl := hst.same
  simp only [Parser.bind]
  cases hr : p t with
  | success a u =>
    have hshort := hst.short
    have hlt := hc hst.sound hr
    exact (h a (hP hr)).widen (Nat.le_succ n) (by omega) (hst.reaches (hp.success hr))
  | failure e u => exact .failure rfl rfl rfl
  | stalled => exact .stalled

/-- What a step relates may be used of what later steps make of it. What both values are in themselves is
known however much was drawn. -/
theorem bind_of_yields {f : α → Parser γ} {g : β → Parser δ} {P : α → Prop} {Q : β → Prop}
    (hP : Yields p P) (hQ : Yields q Q) (hf : ∀ a, Framed (f a)) (h : Agree lo n hi V p q)
    (h' : ∀ a b, P a → Q b → Agree lo n hi (fun c d => V a b → W c d) (f a) (g b)) :
    Agree lo n hi W (p.bind f) (q.bind g) := by
  intro s t hst
  simp only [Parser.bind]
  rcases (h hst).kinds with ⟨a, b, u, v, hp, hq, huv, hV⟩ | ⟨e, e', u, v, hp, hq, he, hc, hd⟩ | ⟨hp, hq⟩
  · simp only [hp, hq]
    rcases (h' a b (hP hp) (hQ hq) huv).kinds with
      ⟨c, d, w, x, hw, hx, hwx, hW⟩ | ⟨e, e', w, x, hw, hx, he, hc, hd⟩ | ⟨hw, hx⟩
    · rw [hw, hx]
      have hle := ((hf a).success hw).drawn_le
      exact .success ⟨hwx, fun hhi => hW hhi (hV (Nat.le_trans hle hhi))⟩
    · rw [hw, hx]
      exact .failure he hc hd
    · rw [hw, hx]
      exact .stalled
  · simpa only [hp, hq] using .failure he hc hd
  · simpa only [hp, hq] using .stalled

theorem bind {f : α → Parser γ} {g : β → Parser δ} (hf : ∀ a, Framed (f a))
    (h : Agree lo n hi V p q)
    (h' : ∀ a b, Agree lo n hi (fun c d => V a b → W c d) (f a) (g b)) :
    Agree lo n hi W (p.bind f) (q.bind g) :=
  bind_of_yields (P := fun _ => True) (Q := fun _ => True) (fun _ _ _ _ => trivial)
    (fun _ _ _ _ => trivial) hf h fun a b _ _ => h' a b

theorem pure {c : γ} {d : δ} (h : W c d) : Agree lo n hi W (Parser.pure c) (Parser.pure d) :=
  Paired.pure fun _ _ hst => ⟨hst, fun _ => h⟩

theorem skip {r : Parser γ} (hr : Framed r) (h : Agree lo n hi V p q) :
    Agree lo n hi V (p.skip r) (q.skip r) := by
  have hresult (a : α) : Framed (r.result a) := (Built.result (.extra hr) a).framed id
  refine bind hresult h fun a b => ?_
  simp only [Parser.result, map_eq_bind]
  exact bind_left hr fun _ => pure id

theorem of_yields {P : α → Prop} {V : α → α → Prop} (hp : Framed p) (hP : Yields p P)
    (h : ∀ a, P a → V a a) : Agree lo n hi V p p := by
  rintro s t hst
  obtain rfl := hst.same
  cases hr : p t with
  | success a u => exact .success ⟨hst.reaches (hp.success hr), fun _ => h a (hP hr)⟩
  | failure e u => exact .failure rfl rfl rfl
  | stalled => exact .stalled

theorem alt (hp : Framed p) (h : Agree lo n hi V p q) (h' : Agree lo n hi V p' q') :
    Agree lo n hi V (Parser.alt p p') (Parser.alt q q') :=
  Paired.alt tracks_together (rewinds_together hp) tracks_jointly h h'

theorem attempt (h : Agree lo n hi V p q) :
    Agree lo n hi V (Parser.attempt p) (Parser.attempt q) := Paired.attempt tracks_together h

theorem furthest (hp : Framed p) (hp' : Framed p') (h : Agree lo n hi V p q)
    (h' : Agree lo n hi V p' q') :
    Agree lo n hi V (Parser.furthest [p, p']) (Parser.furthest [q, q']) :=
  Paired.furthest_pair tracks_together (rewinds_together hp) (rewinds_together hp') tracks_jointly
    (by rintro _ _ _ _ rfl rfl; rfl) h h'

theorem withPosition (h : Agree lo n hi V p q) :
    Agree lo n hi V (Parser.withPosition p) (Parser.withPosition q) := by
  refine Paired.withPosition h (fun s t hst => ?_) fun a b s t u v hst ha => ?_
  · obtain rfl := hst.same
    exact hst.withReference _
  · obtain rfl := hst.same
    exact ⟨ha.1.withReference _, ha.2⟩

theorem many (hp : Framed p) (hq : Framed q) (hcp : Consuming p) (hcq : Consuming q)
    (h : Agree lo n hi V p q) :
    Agree lo n hi (List.Forall₂ V) (Parser.many p) (Parser.many q) := by
  refine (Paired.many tracks_together (rewinds_together hp) hp hq hcp hcq (fun _ _ _ _ ha => ha.1)
    (fun a b s t u v ha hu _ huv => ⟨huv, fun hhi => ha.2 (Nat.le_trans hu.drawn_le hhi)⟩) h).mono
    (fun _ _ => id) ?_
  rintro as bs s t ⟨hst, hvalues⟩
  exact ⟨hst, fun hhi => hvalues.imp fun a b ha => ha.2 hhi⟩

theorem block (hp : Framed p) (hq : Framed q) (hcp : Consuming p) (hcq : Consuming q)
    (h : Agree lo n hi V p q) :
    Agree lo n hi (List.Forall₂ V) (Parser.block p) (Parser.block q) := by
  have hi : Framed checkIndent := .primitive .checkIndent
  exact withPosition (many (hi.bind fun _ => hp) (hi.bind fun _ => hq) (.bind_right hi fun _ => hcp)
    (.bind_right hi fun _ => hcq) (h.then_ hi))

theorem indentedBlock (hp : Framed p) (hq : Framed q) (hcp : Consuming p) (hcq : Consuming q)
    (h : Agree lo n hi V p q) :
    Agree lo n hi (List.Forall₂ V) (Parser.indentedBlock p) (Parser.indentedBlock q) := by
  rintro s t hst
  obtain rfl := hst.same
  simp only [Parser.indentedBlock]
  split
  next opened ho =>
    have hopened := hst.reaches (Framed.indented.success ho)
    rcases (h.block hp hq hcp hcq hopened).kinds with
      ⟨as, bs, u, v, hu, hv, huv, hV⟩ | ⟨e, e', u, v, hu, hv, rfl, hc, hd⟩ | ⟨hu, hv⟩
    · obtain rfl := huv.same
      simp only [hu, hv]
      split
      · exact .failure rfl rfl rfl
      · exact .success ⟨huv, hV⟩
    · simpa only [hu, hv] using .failure rfl hc hd
    · simpa only [hu, hv] using .stalled
  · exact .success ⟨hst, fun _ => .nil⟩

theorem of_body {body : Parser α} {body' : Parser β} (hp : ∀ s : State, s.Sound → p s = body s)
    (hq : ∀ s : State, s.Sound → q s = body' s)
    (h : ∀ n, Agree lo n hi V p q → Agree lo (n + 1) hi V body body') (n : Nat) :
    Agree lo n hi V p q := by
  induction n with
  | zero => exact fun s t hst => absurd hst.short (Nat.not_lt_zero _)
  | succ n ih =>
    intro s t hst
    obtain rfl := hst.same
    rw [hp t hst.sound, hq t hst.sound]
    exact h n ih hst

end Agree

end ContextRoles.Parsing.Parser
