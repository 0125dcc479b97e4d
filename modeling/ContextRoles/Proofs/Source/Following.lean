import ContextRoles.Proofs.Source.Sealing
import ContextRoles.Source.Reading

/-! # Texts that differ in their layout

One text follows another one when it has the same characters up to line feeds and tabs, in whose places
it has blanks of its own. Inside of lexemes there are neither, so the lexemes of both texts are the
same. In strings there may be some, between two backslashes.
-/

namespace ContextRoles.Source

open Parsing Lexeme
open ContextRoles.Parsing.Parser hiding some

variable {R : State → State → Prop} {C D : List Char → Prop}
  {c : Char} {b r w x text rest : List Char} {s t : State}

section Layout

/-- A character that is laid out in another way in the second text. -/
def isLayout (c : Char) : Bool := c == '\n' || c == '\t'

theorem isLayout_eq_false (hn : c ≠ '\n') (ht : c ≠ '\t') : isLayout c = false := by
  simp [isLayout, hn, ht]

theorem isLayout_of_solid (h : Text.isBlank c = false) : isLayout c = false := by
  apply isLayout_eq_false <;> rintro rfl <;> exact absurd h (by decide)

theorem isBlank_of_isLayout (h : isLayout c = true) : Text.isBlank c = true := by
  cases hc : Text.isBlank c with
  | true => rfl
  | false => simp [isLayout_of_solid hc] at h

theorem isLayout_of_isPlain (h : isPlain c = true) : isLayout c = false := by
  apply isLayout_eq_false <;> rintro rfl <;> exact absurd h (by decide)

/-- What the second text has where the first one has `c`. -/
def Renders (c : Char) (w : List Char) : Prop :=
  w = [c] ∨ isLayout c = true ∧ w ≠ [] ∧ ∀ d ∈ w, Text.isBlank d = true

theorem Renders.blank (h : Renders c w) (hc : Text.isBlank c = true) :
    w ≠ [] ∧ ∀ d ∈ w, Text.isBlank d = true := by
  rcases h with rfl | ⟨-, h⟩
  · simpa using hc
  · exact h

/-- A correspondence that is respected by the characters of the first text one by one. Nothing is asked
where the first text ends with layout. -/
structure Follows (R : State → State → Prop) : Prop extends State.Free R where
  step : ∀ ⦃s t c r⦄, R s t → s.rest = c :: r → (isLayout c = true → r ≠ []) →
    ∃ w r', t.rest = w ++ r' ∧ Renders c w ∧ R (s.pass [c]) (t.pass w)
  stops : ∀ ⦃s t⦄, R s t → (∀ c ∈ s.rest.head?, isLayout c = true) →
    ∀ c ∈ t.rest.head?, Text.isBlank c = true

theorem satisfy_eq_failure {accepts : Char → Bool} (h : ∀ c ∈ s.rest.head?, accepts c = false) :
    ∃ cause, Parser.satisfy accepts s = .failure ⟨cause, s.position⟩ s := by
  simp only [Parser.satisfy]
  split
  · exact ⟨_, rfl⟩
  next c r hr => exact ⟨_, if_neg (by simp [h c (by simp [hr])])⟩

/-- A correspondence in places where the first text has a property. -/
def Along (R : State → State → Prop) (C : List Char → Prop) (s t : State) : Prop :=
  R s t ∧ C s.rest

theorem aligns_along (h : State.Free R) : State.Aligns AnyErrors (Along R C) :=
  h.aligns.and (fun _ _ _ => id) fun _ _ _ _ => id

end Layout

namespace Follows

variable (h : Follows R)
include h

theorem same (hst : R s t) (hr : s.rest = c :: r) (hc : isLayout c = false) :
    ∃ r', t.rest = c :: r' ∧ R (s.pass [c]) (t.pass [c]) := by
  obtain ⟨w, r', hw, hrender, hR⟩ := h.step hst hr (by simp [hc])
  rcases hrender with rfl | ⟨hlayout, -⟩
  · exact ⟨r', hw, hR⟩
  · simp [hc] at hlayout

/-- In front of what is no layout both texts have the same character. -/
theorem head (hst : R s t) :
    (∃ c r r', s.rest = c :: r ∧ t.rest = c :: r' ∧ isLayout c = false ∧
      R (s.pass [c]) (t.pass [c])) ∨
    (∀ c ∈ s.rest.head?, isLayout c = true) ∧ ∀ c ∈ t.rest.head?, Text.isBlank c = true := by
  cases hr : s.rest with
  | nil => exact .inr ⟨by simp, h.stops hst (by simp [hr])⟩
  | cons c r =>
    cases hc : isLayout c with
    | false =>
      obtain ⟨r', hr', hR⟩ := h.same hst hr hc
      exact .inl ⟨c, r, r', rfl, hr', hc, hR⟩
    | true => exact .inr ⟨by simpa using hc, h.stops hst (by simpa [hr] using hc)⟩

theorem satisfy {accepts : Char → Bool}
    (hC : (∀ c, accepts c = true → Text.isBlank c = false) ∨
      ∀ w, C w → ∃ c r, w = c :: r ∧ isLayout c = false)
    (hD : ∀ c r, accepts c = true → C (c :: r) → D r) :
    Alike AnyErrors (Along R C) (Along R D) (satisfy accepts) := by
  rintro s t ⟨hst, hc⟩
  rcases h.head hst with ⟨c, r, r', hs, ht, -, hR⟩ | ⟨hs, ht⟩
  · simp only [Parser.satisfy, hs, ht]
    by_cases hacc : accepts c = true
    · rw [if_pos hacc, if_pos hacc]
      have hpass : s.advance 1 = s.pass [c] := State.advance_eq_pass (List.cons_ne_nil c []) hs
      have hpass' : t.advance 1 = t.pass [c] := State.advance_eq_pass (List.cons_ne_nil c []) ht
      rw [hpass, hpass']
      exact .success ⟨rfl, hR, State.rest_pass (w := [c]) hs ▸ hD c r hacc (hs ▸ hc)⟩
    · rw [if_neg hacc, if_neg hacc]
      exact .failure trivial (h.consumed hst) (h.drawn hst)
  · have hblank : ∀ c, accepts c = true → Text.isBlank c = false := by
      refine hC.resolve_right fun hsolid => ?_
      obtain ⟨c, r, hr, hlayout⟩ := hsolid _ hc
      simp [hs c (by simp [hr])] at hlayout
    have none : ∀ c, Text.isBlank c = true → accepts c = false := fun c hc => by
      cases hacc : accepts c with
      | false => rfl
      | true => simp [hblank c hacc] at hc
    have hs' : ∀ c ∈ s.rest.head?, accepts c = false := fun c hm =>
      none c (isBlank_of_isLayout (hs c hm))
    obtain ⟨cause, hfail⟩ := satisfy_eq_failure hs'
    obtain ⟨cause', hfail'⟩ := satisfy_eq_failure fun c hm => none c (ht c hm)
    rw [hfail, hfail']
    exact .failure trivial (h.consumed hst) (h.drawn hst)

theorem char {d : Char} (hd : Text.isBlank d = false) (hD : ∀ r, C (d :: r) → D r) :
    Alike AnyErrors (Along R C) (Along R D) (char d) :=
  (h.satisfy (.inl fun c hc => by rwa [beq_iff_eq.mp hc]) fun c r hc hw => by
    obtain rfl := beq_iff_eq.mp hc
    exact hD r hw).label (aligns_along h.toFree) (aligns_along h.toFree) _

theorem word (hw : ∀ c ∈ w, Text.isBlank c = false) (hst : R s t) :
    (w <+: t.rest ↔ w <+: s.rest) ∧ (w <+: s.rest → R (s.pass w) (t.pass w)) := by
  induction w generalizing s t with
  | nil => simpa using hst
  | cons d w ih =>
    rw [List.forall_mem_cons] at hw
    rcases h.head hst with ⟨c, r, r', hs, ht, -, hR⟩ | ⟨hs, ht⟩
    · obtain ⟨hiff, hpass⟩ := ih hw.2 hR
      rw [State.rest_pass (w := [c]) hs, State.rest_pass (w := [c]) ht] at hiff
      rw [State.rest_pass (w := [c]) hs] at hpass
      rw [hs, ht, List.cons_prefix_cons, List.cons_prefix_cons, hiff]
      refine ⟨Iff.rfl, ?_⟩
      rintro ⟨rfl, hp⟩
      have hboth := hpass hp
      rwa [← State.pass_append, ← State.pass_append] at hboth
    · have none : ∀ text : List Char, (∀ c ∈ text.head?, Text.isBlank c = true) →
          ¬ d :: w <+: text := by
        rintro text htext ⟨rest, rfl⟩
        simp [hw.1] at htext
      have hs' := none s.rest fun c hc => isBlank_of_isLayout (hs c hc)
      exact ⟨iff_of_false (none t.rest ht) hs', fun hp => absurd hp hs'⟩

theorem string {expected : String} (hne : expected ≠ "")
    (hx : ∀ c ∈ expected.toList, Text.isBlank c = false)
    (hD : ∀ r, C (expected.toList ++ r) → D r) :
    Alike AnyErrors (Along R C) (Along R D) (string expected) := by
  rintro s t ⟨hst, hc⟩
  obtain ⟨hs, ht⟩ := h.sound hst
  obtain ⟨hiff, hpass⟩ := h.word hx hst
  by_cases hp : expected.toList <+: s.rest
  · obtain ⟨r, hr⟩ := hp
    obtain ⟨r', hr'⟩ := hiff.mpr ⟨r, hr⟩
    rw [Reads.string hne s hs hr.symm trivial, Reads.string hne t ht hr'.symm trivial]
    exact .success ⟨rfl, hpass ⟨r, hr⟩, State.rest_pass hr.symm ▸ hD r (hr ▸ hc)⟩
  · have hfail : ∀ u : State, ¬ expected.toList <+: u.rest →
        Parser.string expected u = .failure ⟨.expected (Text.quote expected), u.position⟩ u :=
      fun u hu => if_neg fun hstart => hu (State.startsWith_iff.mp hstart).2
    rw [hfail s hp, hfail t (hp ∘ hiff.mp)]
    exact .failure trivial (h.consumed hst) (h.drawn hst)

theorem blanks (hb : b ≠ []) (hblank : ∀ c ∈ b, Text.isBlank c = true) (hr : r ≠ [])
    (hst : R s t) (hs : s.rest = b ++ r) :
    ∃ b' r', t.rest = b' ++ r' ∧ b' ≠ [] ∧ (∀ c ∈ b', Text.isBlank c = true) ∧
      R (s.pass b) (t.pass b') := by
  induction b generalizing s t with
  | nil => exact absurd rfl hb
  | cons c b ih =>
    rw [List.forall_mem_cons] at hblank
    obtain ⟨w, r', ht, hrender, hR⟩ := h.step hst hs (by simp [hr])
    obtain ⟨hw, hwblank⟩ := hrender.blank hblank.1
    cases hb' : b with
    | nil => exact ⟨w, r', ht, hw, hwblank, hR⟩
    | cons d b₁ =>
      obtain ⟨b', r'', hrest, -, hb'', hR'⟩ :=
        ih (hb' ▸ List.cons_ne_nil d b₁) hblank.2 hR (State.rest_pass (w := [c]) hs)
      rw [State.rest_pass ht] at hrest
      refine ⟨w ++ b', r'', by rw [ht, hrest, List.append_assoc], by simp [hw], ?_, ?_⟩
      · simpa [or_imp, forall_and] using ⟨hwblank, hb''⟩
      · rwa [← hb', ← List.singleton_append, State.pass_append, State.pass_append]

end Follows

section Strings

/-- The place is inside of a string that is closed, in a text that is sealed behind it. -/
def Closing (w : List Char) : Prop := ∃ rest, Quoted w rest ∧ Sealed rest

def Escaping (w : List Char) : Prop := Closing ('\\' :: w)

theorem Sealed.closing (h : Sealed ('"' :: text)) : Closing text := by
  generalize hw : '"' :: text = w at h
  cases h with
  | nil => cases hw
  | plain hq =>
    cases hw
    exact absurd rfl hq
  | quoted hq h =>
    cases hw
    exact ⟨_, hq, h⟩
  | line => simp at hw
  | last => simp at hw
  | comment => simp at hw

theorem Closing.sealed_of (h : Closing ('"' :: text)) : Sealed text := by
  obtain ⟨rest, hq, h⟩ := h
  cases hq with
  | close => exact h
  | plain hc => exact absurd hc (by decide)

theorem Closing.head (h : Closing w) : ∃ c r, w = c :: r ∧ isLayout c = false := by
  obtain ⟨rest, hq, -⟩ := h
  cases hq with
  | close => exact ⟨_, _, rfl, by decide⟩
  | plain hc _ => exact ⟨_, _, rfl, isLayout_of_isPlain hc⟩
  | gap => exact ⟨_, _, rfl, by decide⟩
  | code => exact ⟨_, _, rfl, by decide⟩

theorem Closing.tail (h : Closing (c :: text)) (hc : isPlain c = true) : Closing text := by
  obtain ⟨rest, hq, h⟩ := h
  cases hq with
  | close => exact absurd hc (by decide)
  | plain _ hq => exact ⟨rest, hq, h⟩
  | gap => exact absurd hc (by decide)
  | code => exact absurd hc (by decide)

theorem Closing.tails (h : Closing (x ++ text)) (hx : ∀ c ∈ x, isPlain c = true) : Closing text := by
  induction x with
  | nil => exact h
  | cons c x ih =>
    rw [List.forall_mem_cons] at hx
    exact ih (h.tail hx.1) hx.2

theorem Escaping.tail (h : Escaping (c :: text)) (hc : Text.isBlank c = false) : Closing text := by
  obtain ⟨rest, hq, h⟩ := h
  rcases hq.escape with ⟨b, text', hb, hne, hblank, -⟩ | ⟨d, text', hd, -, hq⟩
  · obtain ⟨d, b, rfl⟩ := List.exists_cons_of_ne_nil hne
    obtain ⟨rfl, -⟩ := List.cons_eq_cons.mp hb
    simp [hblank c] at hc
  · obtain ⟨-, rfl⟩ := List.cons_eq_cons.mp hd
    exact ⟨rest, hq, h⟩

theorem Follows.gap (h : Follows R) :
    Alike AnyErrors (Along R Escaping) (Along R Closing) Literal.gap := by
  rintro s t ⟨hst, rest, hq, hrest⟩
  obtain ⟨hs, ht⟩ := h.sound hst
  rcases hq.escape with ⟨b, text, hb, hne, hblank, hq⟩ | ⟨c, text, hc, hsolid, -⟩
  · obtain ⟨b', r', hb', hne', hblank', hR⟩ :=
      h.blanks hne hblank (List.cons_ne_nil '\\' text) hst hb
    obtain ⟨r'', hr'', hR'⟩ := h.same hR (State.rest_pass hb) (by decide)
    rw [State.rest_pass hb'] at hr''
    rw [← State.pass_append, ← State.pass_append] at hR'
    have hs' : s.rest = (b ++ ['\\']) ++ text := by simpa using hb
    have ht' : t.rest = (b' ++ ['\\']) ++ r'' := by simp [hb', hr'']
    rw [Literal.reads_gap hne hblank s hs hs' trivial,
      Literal.reads_gap hne' hblank' t ht ht' trivial]
    exact .success ⟨rfl, hR', State.rest_pass hs' ▸ ⟨rest, hq, hrest⟩⟩
  · obtain ⟨r', hr', -⟩ := h.same hst hc (isLayout_of_solid hsolid)
    have refused {w r : List Char} (hw : w = c :: r) : Refuses Literal.gap w :=
      Literal.refuses_gap (by simpa [hw] using hsolid)
    obtain ⟨e, u, hu, hcu, hdu⟩ := refused hc s hs rfl
    obtain ⟨e', v, hv, hcv, hdv⟩ := refused hr' t ht rfl
    rw [hu, hv]
    exact .failure trivial (by rw [hcu, hcv, h.consumed hst]) (by rw [hdu, hdv, h.drawn hst])

theorem Follows.quoting (h : Follows R) : Quoting AnyErrors (Along R Sealed) (Along R Sealed)
    (Along R Closing) (Along R Escaping) where
  ahead := aligns_along h.toFree
  inside := aligns_along h.toFree
  within := aligns_along h.toFree
  escaping := aligns_along h.toFree
  opens := h.char (by decide) fun _ => Sealed.closing
  closes := h.char (by decide) fun _ => Closing.sealed_of
  plain accepts ha := h.satisfy (.inr fun _ => Closing.head) fun c r hc hw => hw.tail (ha c hc)
  backslash := h.char (by decide) fun _ => id
  code accepts ha := h.satisfy (.inl ha) fun c r hc hw => hw.tail (ha c hc)
  name name hname := by
    have known : ((controlNames.map (·.1)).all fun name =>
        name != "" && name.toList.all (!Text.isBlank ·)) = true := by decide
    have hsolid := List.all_eq_true.mp known name hname
    rw [Bool.and_eq_true, bne_iff_ne] at hsolid
    obtain ⟨c, cs, hcs, hc, hplain⟩ := controlName_chars hname
    exact h.string hsolid.1 (solid_of_all hsolid.2) fun r hr =>
      Closing.tails (Escaping.tail (by simpa [hcs] using hr) hc) hplain
  gap := h.gap

end Strings

section Lexemes

theorem Sealed.bare_tails (h : Sealed (x ++ text)) (hx : ∀ c ∈ x, isBare c = true) :
    Sealed text := by
  induction x with
  | nil => exact h
  | cons c x ih =>
    rw [List.forall_mem_cons] at hx
    exact ih (h.bare_tail hx.1) hx.2

variable (h : Follows R)
include h

theorem Follows.bare {accepts : Char → Bool} (ha : ∀ c, accepts c = true → isBare c = true) :
    Alike AnyErrors (Along R Sealed) (Along R Sealed) (Parser.satisfy accepts) :=
  h.satisfy (.inl fun c hc => isBlank_of_isBare (ha c hc)) fun c _ hc hw => hw.bare_tail (ha c hc)

theorem Follows.peek {accepts : Char → Bool}
    (ha : ∀ c, accepts c = true → Text.isBlank c = false) :
    Alike AnyErrors (Along R C) (fun s t => t.drawn = s.drawn) (Parser.satisfy accepts) :=
  (h.satisfy (.inl ha) fun _ _ _ _ => trivial : Alike AnyErrors (Along R C)
    (Along R fun _ => True) _).mono (fun _ _ => id) fun _ _ _ _ hst => ⟨hst.1, h.drawn hst.2.1⟩

theorem Follows.literal {expected : String} (hne : expected ≠ "")
    (hx : expected.toList.all isBare = true) :
    Alike AnyErrors (Along R Sealed) (Along R Sealed) (Parser.string expected) :=
  have bare := List.all_eq_true.mp hx
  h.string hne (fun c hc => isBlank_of_isBare (bare c hc)) fun _ hw => hw.bare_tails bare

theorem Follows.minus : Alike AnyErrors (Along R fun w => Sealed w ∧ Solid w) (Along R Sealed)
    (Parser.char '-') :=
  h.char (by decide) fun _ hw => hw.1.tail (by decide) (solid_iff.mp hw.2).2.1 (solid_iff.mp hw.2).2.2

end Lexemes

section Sources

variable {ids : Nat → String} {drawn : Nat} {source source' : String} {collection : Collection}

/-- A source that is read to a collection is accepted as a whole. -/
theorem exists_sourceFile (h : (read ids drawn source).result = .ok collection) :
    ∃ c t, sourceFile ids { State.start source with drawn } = .success c t ∧
      read ids drawn source = ⟨.ok c.linkFilledRoles, t.drawn⟩ := by
  cases hr : sourceFile ids { State.start source with drawn } with
  | success c t => exact ⟨c, t, rfl, by simp [read, hr]⟩
  | failure e t => simp [read, hr] at h
  | stalled => simp [read, hr] at h

/-- Where a correspondence holds from the beginning of two sources on, the second one is read like the
first one, if that is accepted. -/
theorem Weaving.read_eq {L T W B : State → State → Prop} (h : Weaving [] AnyErrors L T W B)
    (hr : (read ids drawn source).result = .ok collection)
    (hstart : Sealed source.toList → W { State.start source with drawn }
      { State.start source' with drawn }) :
    read ids drawn source' = read ids drawn source := by
  obtain ⟨c, t, ht, hread⟩ := exists_sourceFile hr
  have sound : ({ State.start source with drawn } : State).Sound := State.sound_start source
  have both := h.sourceFile rfl (h.definition_of_all resists_nil ids fun _ _ => trivial)
    (hstart (sealed_of_sourceFile sound ht))
  rcases both.kinds with ⟨a, b, u, v, hu, hv, rfl, huv⟩ | ⟨e, e', u, v, hu, -⟩ | ⟨hu, -⟩
  · rw [ht] at hu
    cases hu
    rw [hread, read, hv]
    exact congrArg (Reading.mk _) (h.after.drawn huv)
  · rw [ht] at hu
    cases hu
  · rw [ht] at hu
    cases hu

end Sources

end ContextRoles.Source
