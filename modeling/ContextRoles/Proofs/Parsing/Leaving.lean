import ContextRoles.Parsing.Character
import ContextRoles.Proofs.Parsing.Totality

/-! # What a success leaves of the text

A success relates its value to the text in front of the parser and to the text that it leaves. The
relation of a composed parser comes from those of its parts. A parser of text spends the text that it
returns.
-/

namespace ContextRoles.Parsing.Parser

open State

variable {α β : Type} {p q : Parser α} {s t : State} {a : α} {c : Char}

section Successes

theorem label_eq_success {name : String} (h : (p.label name) s = .success a t) :
    ∃ u, p s.checkpoint = .success a u ∧ u.rest = t.rest := by
  rcases alt_success h with ⟨u, hu, rfl⟩ | ⟨e, v, u, -, -, hu, -⟩
  · exact ⟨u, hu, rfl⟩
  · cases hu

theorem satisfy_eq_success {accepts : Char → Bool} (h : satisfy accepts s = .success c t) :
    accepts c = true ∧ s.rest = c :: t.rest := by
  simp only [satisfy] at h
  split at h
  · cases h
  next d rest hrest =>
    split at h
    next hd =>
      cases h
      exact ⟨hd, by simp [State.advance, hrest]⟩
    · cases h

theorem char_eq_success {d : Char} (h : char c s = .success d t) : s.rest = c :: t.rest := by
  obtain ⟨u, hu, hrest⟩ := label_eq_success h
  obtain ⟨hc, hread⟩ := satisfy_eq_success hu
  obtain rfl : d = c := by simpa using hc
  rw [← hrest, ← hread]
  rfl

theorem string_eq_success {x y : String} (h : string x s = .success y t) :
    y = x ∧ s.rest = x.toList ++ t.rest := by
  simp only [string] at h
  split at h
  next hx =>
    cases h
    obtain ⟨rest, hrest⟩ := (State.startsWith_iff.mp hx).2
    exact ⟨rfl, by simp [State.advance, ← hrest, ← String.length_toList]⟩
  · cases h

end Successes

/-- Where `p` succeeds, `D` relates its value, the text in front of it and the text that is left. -/
def Leaves (p : Parser α) (D : α → List Char → List Char → Prop) : Prop :=
  ∀ ⦃s a t⦄, s.Sound → p s = .success a t → D a s.rest t.rest

namespace Leaves

variable {D D' : α → List Char → List Char → Prop} {E F : β → List Char → List Char → Prop}

theorem fail (cause : Cause) : Leaves (Parser.fail cause : Parser α) D := by
  rintro s a t - ⟨⟩

theorem map {f : α → β} (h : Leaves p D) (hf : ∀ a r r', D a r r' → E (f a) r r') :
    Leaves (p.map f) E := by
  intro s b t hs hr
  obtain ⟨a, ha, rfl⟩ := map_eq_success.mp hr
  exact hf a _ _ (h hs ha)

theorem bind {f : α → Parser β} (hp : Framed p) (h : Leaves p D) (h' : ∀ a, Leaves (f a) E)
    (hF : ∀ a b r r' r'', D a r r' → E b r' r'' → F b r r'') : Leaves (p.bind f) F := by
  intro s b u hs hr
  obtain ⟨a, t, ha, hb⟩ := bind_eq_success.mp hr
  exact hF a b _ _ _ (h hs ha) (h' a ((hp.success ha).sound hs) hb)

theorem bind_right {f : α → Parser β} {C : List Char → Prop} (hp : Framed p)
    (h : ∀ a, Leaves (f a) fun _ _ rest => C rest) : Leaves (p.bind f) fun _ _ rest => C rest := by
  intro s b u hs hr
  obtain ⟨a, t, ha, hb⟩ := bind_eq_success.mp hr
  exact h a ((hp.success ha).sound hs) hb

theorem bind_left {f : α → Parser β} (h : Leaves p D)
    (hF : ∀ a b r r' r'', D a r r' → F b r r'') : Leaves (p.bind f) F := by
  intro s b u hs hr
  obtain ⟨a, t, ha, -⟩ := bind_eq_success.mp hr
  exact hF a b _ _ _ (h hs ha)

theorem alt (h : Leaves p D) (h' : Leaves q D) : Leaves (p.alt q) D := by
  intro s a t hs hr
  rcases alt_success hr with ⟨u, hu, rfl⟩ | ⟨e, v, u, -, -, hu, rfl⟩
  · exact h (s := s.checkpoint) (t := u) hs.checkpoint hu
  · exact h' (s := s.checkpoint.rewindFrom v) (t := u) (hs.checkpoint.rewindFrom v) hu

theorem label (h : Leaves p D) (name : String) : Leaves (p.label name) D := h.alt (.fail _)

theorem attempt (h : Leaves p D) : Leaves p.attempt D := by
  intro s a t hs hr
  simp only [Parser.attempt] at hr
  split at hr
  · cases hr
  · exact h hs hr

theorem withPosition (h : Leaves p D) : Leaves (Parser.withPosition p) D := by
  intro s a t hs hr
  obtain ⟨u, hu, rfl⟩ := mapState_eq_success.mp hr
  exact h (s := s.withReference s.position) (t := u) hs hu

theorem furthest_go {ps : List (Parser α)} {best : Option (ParseError × State)}
    (h : ∀ p ∈ ps, Leaves p D) (hs : s.Sound)
    (hr : Parser.furthest.go ps best s = .success a t) : D a s.rest t.rest := by
  refine furthest_go_induction (motive := fun s => s.Sound → D a s.rest t.rest) ?_ ?_ hr hs
  · intro p s hp hr hs
    exact h p hp hs hr
  · intro p s e u _ _ ih hs
    exact ih (hs.rewindFrom u)

theorem furthest {ps : List (Parser α)} (h : ∀ p ∈ ps, Leaves p D) :
    Leaves (Parser.furthest ps) D := by
  intro s a t hs hr
  obtain ⟨u, hu, rfl⟩ := mapState_eq_success.mp hr
  exact furthest_go (s := s.checkpoint) (t := u) h hs.checkpoint hu

theorem sameLine : Leaves Parser.sameLine fun _ r r' => r = r' := by
  intro s a t _ hr
  simp only [Parser.sameLine] at hr
  split at hr
  · cases hr
    rfl
  · cases hr

theorem indented : Leaves Parser.indented fun _ r r' => r = r' := by
  intro s a t _ hr
  simp only [Parser.indented] at hr
  split at hr
  · cases hr
  · cases hr
    rfl

theorem sameOrIndented : Leaves Parser.sameOrIndented fun _ r r' => r = r' := sameLine.alt indented

end Leaves

/-- Where `p` succeeds, it has read the text that belongs to its value. -/
def Spends (p : Parser α) (f : α → List Char) : Prop := Leaves p fun a r r' => r = f a ++ r'

namespace Spends

variable {f : α → List Char} {g : β → List Char}

theorem satisfy (accepts : Char → Bool) : Spends (Parser.satisfy accepts) fun c => [c] :=
  fun _ _ _ _ hr => (satisfy_eq_success hr).2

theorem string (x : String) : Spends (Parser.string x) String.toList := by
  intro s y t _ hr
  obtain ⟨rfl, hrest⟩ := string_eq_success hr
  exact hrest

theorem map {h : α → β} (hp : Spends p f) (hg : ∀ a, g (h a) = f a) : Spends (p.map h) g :=
  Leaves.map hp fun a r r' hr => by rw [hr, hg]

theorem sequence {ps : List (Parser α)} (hf : ∀ p ∈ ps, Framed p) (h : ∀ p ∈ ps, Spends p f) :
    Spends (Parser.sequence ps) fun as => as.flatMap f := by
  induction ps with
  | nil =>
    rintro s as t - ⟨⟩
    rfl
  | cons p ps ih =>
    rw [List.forall_mem_cons] at hf h
    intro s as t hs hr
    obtain ⟨a, u, ha, hr⟩ := bind_eq_success.mp hr
    obtain ⟨bs, hbs, rfl⟩ := map_eq_success.mp hr
    have hrest := ih hf.2 h.2 ((hf.1.success ha).sound hs) hbs
    simp only [h.1 hs ha, hrest, List.flatMap_cons, List.append_assoc]

theorem manyFrom (hf : Framed p) (h : Spends p f) {values as : List α} (hs : s.Sound)
    (hr : Parser.manyFrom p values s = .success as t) :
    values.reverse.flatMap f ++ s.rest = as.flatMap f ++ t.rest := by
  refine manyFrom_induction (motive := fun values s =>
    s.Sound → values.reverse.flatMap f ++ s.rest = as.flatMap f ++ t.rest) ?_ ?_ hr hs
  · rintro values s e u - - rfl rfl -
    rfl
  · intro values s a u hu ih hs
    have hrest : s.rest = f a ++ u.rest := h (s := s.checkpoint) hs.checkpoint hu
    rw [← ih ((hf.success hu).sound hs), hrest, List.reverse_cons, List.flatMap_append,
      List.flatMap_singleton, List.append_assoc]
    rfl

theorem many (hf : Framed p) (h : Spends p f) : Spends (Parser.many p) fun as => as.flatMap f :=
  fun _ _ _ hs hr => (manyFrom hf h hs hr : List.flatMap f [].reverse ++ _ = _)

end Spends

end ContextRoles.Parsing.Parser
