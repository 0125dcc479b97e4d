import ContextRoles.Proofs.Parsing.Threading

/-! # What a run does to the state

A run reads a piece of the text and moves the cursor over it. It keeps the reference column, and draws
identifiers without giving any back. This holds of every parser built from the primitives, whether it
succeeds or fails.
-/

namespace ContextRoles.Parsing

namespace State

/-- `t` lies further on in the text of `s`. -/
structure Reaches (s t : State) : Prop where
  reads : ∃ text, s.rest = text ++ t.rest ∧ t.offset = s.offset + text.length ∧
    t.position = s.position.advanceAll text
  size_eq : t.size = s.size
  drawn_le : s.drawn ≤ t.drawn
  column_eq : t.reference.column = s.reference.column

/-- The offset, the text that is left and the length of the whole text agree. -/
def Sound (s : State) : Prop := s.offset + s.rest.length = s.size

@[simp] theorem sound_start (text : String) : (start text).Sound := by simp [start, Sound]

namespace Reaches

variable {s t u : State}

@[refl] theorem refl (s : State) : s.Reaches s := ⟨⟨[], rfl, rfl, rfl⟩, rfl, Nat.le_refl _, rfl⟩

theorem trans (h : s.Reaches t) (h' : t.Reaches u) : s.Reaches u := by
  obtain ⟨⟨x, hx, hxo, hxp⟩, hs, hd, hc⟩ := h
  obtain ⟨⟨y, hy, hyo, hyp⟩, hs', hd', hc'⟩ := h'
  refine ⟨⟨x ++ y, ?_, ?_, ?_⟩, hs'.trans hs, Nat.le_trans hd hd', hc'.trans hc⟩
  · rw [hx, hy, List.append_assoc]
  · rw [hyo, hxo, List.length_append, Nat.add_assoc]
  · rw [hyp, hxp, Position.advanceAll_append]

theorem sound (h : s.Reaches t) (hs : s.Sound) : t.Sound := by
  obtain ⟨⟨x, hx, hxo, -⟩, hsize, -, -⟩ := h
  simp only [Sound, hx, List.length_append] at hs ⊢
  omega

theorem length_le (h : s.Reaches t) : t.rest.length ≤ s.rest.length := by
  obtain ⟨x, hx, -, -⟩ := h.reads
  simp [hx]

theorem withConsumed (h : s.Reaches t) (b : Bool) : s.Reaches (t.withConsumed b) :=
  ⟨h.reads, h.size_eq, h.drawn_le, h.column_eq⟩

theorem of_checkpoint (h : s.checkpoint.Reaches t) : s.Reaches t :=
  ⟨h.reads, h.size_eq, h.drawn_le, h.column_eq⟩

theorem rewindFrom (h : s.Reaches t) (hu : s.drawn ≤ u.drawn) : s.Reaches (t.rewindFrom u) :=
  ⟨h.reads, h.size_eq, hu, h.column_eq⟩

theorem rewind (h : s.Reaches t) : s.Reaches (s.rewindFrom t) := (refl s).rewindFrom h.drawn_le

theorem advance {n : Nat} (hn : n ≤ s.rest.length) : s.Reaches (s.advance n) := by
  refine ⟨⟨s.rest.take n, ?_, ?_, rfl⟩, rfl, Nat.le_refl _, rfl⟩
  · exact (List.take_append_drop n s.rest).symm
  · simp [State.advance, Nat.min_eq_left hn]

theorem withReference {r : Position} (h : r.column = s.reference.column) :
    s.Reaches (s.withReference r) := ⟨⟨[], rfl, rfl, rfl⟩, rfl, Nat.le_refl _, h⟩

/-- The reference that a run starts with may be moved and put back behind it. -/
theorem restore {r : Position} (h : (s.withReference r).Reaches t) :
    s.Reaches (t.withReference s.reference) := ⟨h.reads, h.size_eq, h.drawn_le, rfl⟩

end Reaches

theorem Sound.checkpoint {s : State} (h : s.Sound) : s.checkpoint.Sound := h

theorem Sound.rewindFrom {s : State} (h : s.Sound) (t : State) : (s.rewindFrom t).Sound := h

theorem Sound.remaining {s : State} (h : s.Sound) : s.remaining = s.rest.length := by
  unfold Sound at h
  unfold State.remaining
  omega

end State

namespace Parser

open State

variable {α β : Type}

theorem threads_reaches : Threads State.Reaches where
  refl := .refl
  trans := .trans
  of_checkpoint h := h.of_checkpoint
  withConsumed h := h.withConsumed
  rewindFrom h h' := h.rewindFrom h'.drawn_le
  restore h := h.restore
  enterLine _ := .withReference rfl
  advance _ _ := .advance

/-- Every run ends further on in the text. -/
def Framed (p : Parser α) : Prop := ∀ s, (p s).EndsIn s.Reaches

namespace Framed

variable {p q : Parser α} {s t : State}

theorem success {a : α} (h : Framed p) (hr : p s = .success a t) : s.Reaches t := by
  have := h s
  rwa [hr] at this

theorem failure {e : ParseError} (h : Framed p) (hr : p s = .failure e t) : s.Reaches t := by
  have := h s
  rwa [hr] at this

theorem bind {f : α → Parser β} (h : Framed p) (h' : ∀ a, Framed (f a)) : Framed (p.bind f) :=
  Ends.bind threads_reaches h h'

theorem alt (h : Framed p) (h' : Framed q) : Framed (Parser.alt p q) := Ends.alt threads_reaches h h'

theorem attempt (h : Framed p) : Framed (Parser.attempt p) := Ends.attempt threads_reaches h

theorem manyFrom (h : Framed p) (values : List α) (s : State) :
    (Parser.manyFrom p values s).EndsIn s.Reaches := Ends.manyFrom threads_reaches h values s

theorem indented : Framed Parser.indented := Ends.indented threads_reaches

theorem indentedBlock (h : Framed (block p)) : Framed (Parser.indentedBlock p) :=
  Ends.indentedBlock threads_reaches h

theorem satisfy (accepts : Char → Bool) : Framed (Parser.satisfy accepts) :=
  Ends.satisfy threads_reaches accepts

theorem string (expected : String) : Framed (Parser.string expected) :=
  Ends.string threads_reaches expected

theorem primitive (h : Primitive p) : Framed p := Ends.primitive threads_reaches h

end Framed

theorem Built.framed {E : ∀ {α : Type}, Parser α → Prop}
    (hE : ∀ {α : Type} {p : Parser α}, E p → Framed p) {p : Parser α} (h : Built E p) :
    Framed p := h.ends threads_reaches hE

end Parser

end ContextRoles.Parsing
