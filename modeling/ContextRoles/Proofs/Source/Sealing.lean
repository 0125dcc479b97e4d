import ContextRoles.Proofs.Lexeme.Literal
import ContextRoles.Proofs.Parsing.Leaving
import ContextRoles.Proofs.Source.Weaving

/-! # Sealed texts

A text is sealed when each string and each block comment that begins in it, outside of other strings
and comments, also ends in it. Alternatives that are abandoned may look at places that the one taken
never stops at; in a sealed text none of them runs into a string or a comment that is not closed.
-/

namespace ContextRoles.Source

open Parsing Lexeme
open ContextRoles.Parsing.Parser hiding some

variable {b g rest rest' text x : List Char} {c : Char}

section Definitions

/-- A character that stands for itself in a string. -/
def isPlain (c : Char) : Bool := c != '"' && c != '\\' && Literal.lastExcluded < c

/-- The first text begins inside of a string, and the second one is what follows the string. -/
inductive Quoted : List Char → List Char → Prop where
  | close {rest : List Char} : Quoted ('"' :: rest) rest
  | plain {c : Char} {text rest : List Char} : isPlain c = true → Quoted text rest →
      Quoted (c :: text) rest
  | gap {b text rest : List Char} : b ≠ [] → (∀ c ∈ b, Text.isBlank c = true) →
      Quoted text rest → Quoted ('\\' :: (b ++ '\\' :: text)) rest
  | code {c : Char} {text rest : List Char} : Text.isBlank c = false → Quoted text rest →
      Quoted ('\\' :: c :: text) rest

/-- Every string and every block comment of the text is closed. -/
inductive Sealed : List Char → Prop where
  | nil : Sealed []
  | plain {c : Char} {text : List Char} : c ≠ '"' → ¬ "--".toList <+: c :: text →
      ¬ "\x7b-".toList <+: c :: text → Sealed text → Sealed (c :: text)
  | quoted {text rest : List Char} : Quoted text rest → Sealed rest → Sealed ('"' :: text)
  | line {x text : List Char} : '\n' ∉ x → Sealed ('\n' :: text) →
      Sealed ("--".toList ++ x ++ '\n' :: text)
  | last {x : List Char} : '\n' ∉ x → Sealed ("--".toList ++ x)
  | comment {x text : List Char} :
      afterComment "\x7b-".toList "-\x7d".toList true 1 (x ++ text) = some text → Sealed text →
      Sealed ("\x7b-".toList ++ x ++ text)

end Definitions

section Strings

/-- Behind a backslash there is a gap of the string, or the code of an escape. -/
theorem Quoted.escape (h : Quoted ('\\' :: text) rest) :
    (∃ b text', text = b ++ '\\' :: text' ∧ b ≠ [] ∧ (∀ c ∈ b, Text.isBlank c = true) ∧
      Quoted text' rest) ∨
    ∃ c text', text = c :: text' ∧ Text.isBlank c = false ∧ Quoted text' rest := by
  cases h with
  | plain hc => exact absurd hc (by decide)
  | gap hb hblank h => exact .inl ⟨_, _, rfl, hb, hblank, h⟩
  | code hc h => exact .inr ⟨_, _, rfl, hc, h⟩

theorem Quoted.plains (hx : ∀ c ∈ x, isPlain c = true) (h : Quoted text rest) :
    Quoted (x ++ text) rest := by
  induction x with
  | nil => exact h
  | cons c x ih =>
    rw [List.forall_mem_cons] at hx
    exact .plain hx.1 (ih hx.2)

theorem gap_cases (text : List Char) :
    (∃ b rest, text = b ++ '\\' :: rest ∧ b ≠ [] ∧ ∀ c ∈ b, Text.isBlank c = true) ∨
      (∀ c ∈ text.head?, Text.isBlank c = false) ∧ Refuses Literal.gap text ∨
      Breaks Literal.gap text := by
  cases text with
  | nil => exact .inr (.inl ⟨by simp, Literal.refuses_gap (by simp)⟩)
  | cons c r =>
    by_cases hc : Text.isBlank c = true
    swap
    · have hhead : ∀ d ∈ (c :: r).head?, Text.isBlank d = false := by simpa using hc
      exact .inr (.inl ⟨hhead, Literal.refuses_gap hhead⟩)
    have small : ∀ d ∈ c :: r.takeWhile Text.isBlank, Text.isBlank d = true := by
      simpa [hc] using List.all_eq_true.mp List.all_takeWhile
    have split : c :: r = (c :: r.takeWhile Text.isBlank) ++ r.dropWhile Text.isBlank := by
      rw [List.cons_append, List.takeWhile_append_dropWhile]
    have hhead : ∀ d ∈ (r.dropWhile Text.isBlank).head?, Text.isBlank d = false :=
      fun _ => eq_false_of_head?_dropWhile
    by_cases hslash : '\\' ∈ (r.dropWhile Text.isBlank).head?
    · obtain ⟨rest, hrest⟩ := List.head?_eq_some_iff.mp hslash
      exact .inl ⟨_, rest, hrest ▸ split, List.cons_ne_nil _ _, small⟩
    · rw [List.forall_mem_cons] at small
      have blanks : Reads (Parser.some space) (c :: r.takeWhile Text.isBlank)
          (r.dropWhile Text.isBlank) (c :: (r.takeWhile Text.isBlank).map id) :=
        .some_chars small.1 small.2 (fun c rest hc => (Reads.satisfy hc).label "space")
          (refuses_space hhead)
      rw [split]
      exact .inr (.inr (.alt_left (.bind_right (List.cons_ne_nil _ _) blanks
        (Refuses.char hslash))))

theorem controlName_chars {name : String} (h : name ∈ controlNames.map (·.1)) :
    ∃ c cs, name.toList = c :: cs ∧ Text.isBlank c = false ∧ ∀ d ∈ cs, isPlain d = true := by
  have known : ((controlNames.map (·.1)).all fun name =>
      name.toList.head?.any (!Text.isBlank ·) && name.toList.tail.all isPlain) = true := by decide
  have hname := List.all_eq_true.mp known name h
  simp only [Bool.and_eq_true, Option.any_eq_true, List.all_eq_true] at hname
  obtain ⟨⟨c, hc, hsolid⟩, hplain⟩ := hname
  obtain ⟨cs, hcs⟩ := List.head?_eq_some_iff.mp hc
  exact ⟨c, cs, hcs, by simpa using hsolid, by simpa [hcs] using hplain⟩

theorem Quoted.name {name : String} (hname : name ∈ controlNames.map (·.1))
    (h : Quoted text rest) : Quoted ('\\' :: (name.toList ++ text)) rest := by
  obtain ⟨c, cs, hcs, hsolid, hplain⟩ := controlName_chars hname
  rw [hcs]
  exact .code hsolid (h.plains hplain)

end Strings

section Gaps

theorem isBlank_ne {d : Char} (hc : Text.isBlank c = true) (hd : Text.isBlank d = false) : c ≠ d := by
  rintro rfl
  simp [hc] at hd

theorem not_prefix_of_ne {d : Char} {w : List Char} (h : c ≠ d) : ¬ d :: w <+: c :: text := by
  rw [List.cons_prefix_cons]
  exact fun hp => h hp.1.symm

/-- What neither begins a string nor a comment may stand in front of a sealed text. -/
theorem Sealed.cons (hq : c ≠ '"') (hl : c ≠ '-') (hb : c ≠ '\x7b') (h : Sealed text) :
    Sealed (c :: text) := .plain hq (not_prefix_of_ne hl) (not_prefix_of_ne hb) h

theorem Sealed.blank_cons (hc : Text.isBlank c = true) (h : Sealed text) : Sealed (c :: text) :=
  h.cons (isBlank_ne hc (by decide)) (isBlank_ne hc (by decide)) (isBlank_ne hc (by decide))

theorem ne_of_isBare (hc : isBare c = true) : c ≠ '"' ∧ c ≠ '-' ∧ c ≠ '\x7b' := by
  refine ⟨?_, ?_, ?_⟩ <;> rintro rfl <;> exact absurd hc (by decide)

theorem Sealed.bare_cons (hc : isBare c = true) (h : Sealed text) : Sealed (c :: text) :=
  have ⟨hq, hl, hb⟩ := ne_of_isBare hc
  h.cons hq hl hb

theorem Sealed.bares (hx : ∀ c ∈ x, isBare c = true) (h : Sealed text) : Sealed (x ++ text) := by
  induction x with
  | nil => exact h
  | cons c x ih =>
    rw [List.forall_mem_cons] at hx
    exact (ih hx.2).bare_cons hx.1

theorem Sealed.tail (hq : c ≠ '"') (hl : ¬ "--".toList <+: c :: text)
    (hb : ¬ "\x7b-".toList <+: c :: text) (h : Sealed (c :: text)) : Sealed text := by
  generalize hw : c :: text = w at h
  cases h with
  | nil => cases hw
  | plain _ _ _ h =>
    cases hw
    exact h
  | quoted =>
    cases hw
    exact absurd rfl hq
  | @line x text' =>
    exact absurd (hw ▸ ⟨x ++ '\n' :: text', (List.append_assoc _ _ _).symm⟩) hl
  | @last x => exact absurd (hw ▸ ⟨x, rfl⟩) hl
  | @comment x text' => exact absurd (hw ▸ ⟨x ++ text', (List.append_assoc _ _ _).symm⟩) hb

theorem Sealed.bare_tail (hc : isBare c = true) (h : Sealed (c :: text)) : Sealed text :=
  have ⟨hq, hl, hb⟩ := ne_of_isBare hc
  h.tail hq (not_prefix_of_ne hl) (not_prefix_of_ne hb)

theorem Sealed.gap_append (hg : Gap g rest) (h : Sealed rest) : Sealed (g ++ rest) := by
  induction hg using Gap.induction with
  | nil _ => exact h
  | blank hc _ ih => exact (ih h).blank_cons hc
  | line hx _ ih =>
    rw [List.append_assoc]
    exact .line hx (ih h)
  | last hx =>
    rw [List.append_nil]
    exact .last hx
  | comment hx _ ih =>
    rw [List.append_assoc]
    exact .comment hx (ih h)

/-- In front of what is sealed there is a gap, and behind it a sealed text again. -/
theorem Sealed.exists_gap (h : Sealed text) :
    ∃ g rest, text = g ++ rest ∧ Gap g rest ∧ Sealed rest := by
  induction h with
  | nil => exact ⟨[], [], rfl, gap_nil, .nil⟩
  | @plain c text hq hl hb h ih =>
    by_cases hc : Text.isBlank c = true
    · obtain ⟨g, rest, rfl, hg, hrest⟩ := ih
      exact ⟨c :: g, rest, rfl, .blank hc hg, hrest⟩
    · exact ⟨[], c :: text, rfl, .nil (solid_iff.mpr ⟨by simpa using hc, hl, hb⟩), .plain hq hl hb h⟩
  | @quoted text rest hq h _ =>
    refine ⟨[], '"' :: text, rfl, .nil (solid_iff.mpr ⟨?_, by simp, by simp⟩), .quoted hq h⟩
    rintro _ ⟨⟩
    decide
  | @line x text hx _ ih =>
    obtain ⟨g, rest, hw, hg, hrest⟩ := ih
    cases g with
    | nil =>
      have hsolid := hg.solid
      rw [← List.nil_append rest, ← hw] at hsolid
      exact absurd (hsolid.blank '\n' rfl) (by decide)
    | cons d g =>
      obtain ⟨rfl, rfl⟩ : '\n' = d ∧ text = g ++ rest := by simpa using hw
      exact ⟨_, rest, by simp, .line hx hg, hrest⟩
  | @last x hx => exact ⟨_, [], (List.append_nil _).symm, .last hx, .nil⟩
  | @comment x text hx _ ih =>
    obtain ⟨g, rest, rfl, hg, hrest⟩ := ih
    exact ⟨_, rest, by simp, .comment hx hg, hrest⟩

end Gaps

section Literals

theorem isPlain_of_between {a b : Char} (ha : a ≤ c) (hb : c ≤ b) (hquote : '"' < a)
    (hslash : b < '\\') : isPlain c = true := by
  have low : '"' < c := Std.lt_of_lt_of_le hquote ha
  have high : c < '\\' := Std.lt_of_le_of_lt hb hslash
  have past : Literal.lastExcluded < c := Std.lt_trans (by decide) low
  simp [isPlain, (Std.ne_of_lt low).symm, Std.ne_of_lt high, past]

theorem isPlain_of_isDecimalDigit (c : Char) (h : isDecimalDigit c = true) : isPlain c = true := by
  simp only [isDecimalDigit, Bool.and_eq_true, decide_eq_true_eq] at h
  exact isPlain_of_between h.1 h.2 (by decide) (by decide)

theorem isBlank_of_isBare (hc : isBare c = true) : Text.isBlank c = false := by
  simp only [isBare, Bool.and_eq_true, Bool.not_eq_true'] at hc
  exact hc.1

/-- What a correspondence of states has to respect inside of a string: `Q` where the string goes on, and
`K` behind a backslash. -/
structure Quoting (E : ParseError → ParseError → Prop) (L T Q K : State → State → Prop) : Prop where
  ahead : State.Aligns E L
  inside : State.Aligns E T
  within : State.Aligns E Q
  escaping : State.Aligns E K
  opens : Alike E L Q (char '"')
  closes : Alike E Q T (char '"')
  plain : ∀ ⦃accepts⦄, (∀ c, accepts c = true → isPlain c = true) →
    Alike E Q Q (satisfy accepts)
  backslash : Alike E Q K (char '\\')
  code : ∀ ⦃accepts⦄, (∀ c, accepts c = true → Text.isBlank c = false) →
    Alike E K Q (satisfy accepts)
  name : ∀ ⦃name⦄, name ∈ controlNames.map (·.1) → Alike E K Q (string name)
  gap : Alike E K Q Literal.gap

namespace Quoting

variable {E : ParseError → ParseError → Prop} {L T Q K : State → State → Prop}
  (h : Quoting E L T Q K)
include h

theorem char {c : Char} (hc : Text.isBlank c = false) : Alike E K Q (char c) :=
  (h.code fun d hd => by rwa [beq_iff_eq.mp hd]).label h.escaping h.within _

theorem letterEscape : Alike E K Q Literal.letterEscape := by
  have solid : ∀ c, (letterEscapes.map (·.1)).contains c = true → Text.isBlank c = false :=
    fun c hc => solid_of_all (w := letterEscapes.map (·.1)) (by decide) c (by simpa using hc)
  exact (h.code solid).bind fun _ => .require (fun _ _ => id) _

/-- Digits of which the first one is behind the backslash or not. -/
theorem ofDigits {R : State → State → Prop} {base : Nat} {accepts : Char → Bool} {name : String}
    (hR : State.Aligns E R) (hfirst : Alike E R Q (satisfy accepts))
    (hp : ∀ c, accepts c = true → isPlain c = true) :
    Alike E R Q (Number.ofDigits base ((satisfy accepts).label name)) := by
  have digit : Advancing ((satisfy accepts).label name) := (Advancing.satisfy _).label _
  exact ((hfirst.label hR h.within _).some h.within digit.framed digit.consuming
    ((h.plain hp).label h.within h.within _)).bind fun _ => .require (fun _ _ => id) _

theorem numericEscape : Alike E K Q Literal.numericEscape := by
  have decimal : Alike E K Q Number.decimal :=
    h.ofDigits h.escaping (h.code fun c hc => isBlank_of_isBare (isBare_of_isDecimalDigit c hc))
      isPlain_of_isDecimalDigit
  have octal : Alike E Q Q (Number.ofDigits 8 .octalDigit) := by
    have plain : ∀ c, octalDigitChars.contains c = true → isPlain c = true := by
      have known : (octalDigitChars.all isPlain) = true := by decide
      exact fun c hc => List.all_eq_true.mp known c (by simpa using hc)
    exact h.ofDigits h.within (h.plain plain) plain
  have hexadecimal : Alike E Q Q (Number.ofDigits 16 .hexDigit) := by
    have plain : ∀ c, hexDigitChars.contains c = true → isPlain c = true := by
      have known : (hexDigitChars.all isPlain) = true := by decide
      exact fun c hc => List.all_eq_true.mp known c (by simpa using hc)
    exact h.ofDigits h.within (h.plain plain) plain
  refine (Alike.choice h.escaping h.within (by simpa using ⟨decimal,
    (h.char (by decide)).then_ octal, (h.char (by decide)).then_ hexadecimal⟩)).bind fun n => ?_
  split
  · exact .fail h.within _
  · exact .require (fun _ _ => id) _

theorem nameEscape : Alike E K Q Literal.nameEscape := by
  refine .choice h.escaping h.within fun p hp => ?_
  obtain ⟨⟨name, c⟩, hmem, rfl⟩ := List.mem_map.mp hp
  exact ((h.name (List.mem_map_of_mem hmem)).attempt h.escaping).result c

theorem caretEscape : Alike E K Q Literal.caretEscape := by
  refine (h.char (by decide)).then_ ((h.plain fun c hc => ?_).bind fun _ =>
    .require (fun _ _ => id) _)
  simp only [Bool.and_eq_true, decide_eq_true_eq] at hc
  exact isPlain_of_between hc.1 hc.2 (by decide) (by decide)

theorem escapeCode : Alike E K Q Literal.escapeCode :=
  (Alike.choice h.escaping h.within (by simpa using
    ⟨h.letterEscape, h.numericEscape, h.nameEscape, h.caretEscape⟩)).label h.escaping h.within _

theorem stringItem : Alike E Q Q Literal.stringItem := by
  have escape : Alike E K Q (Parser.choice [Literal.gap.result none, (Parser.char '&').result none,
      Literal.escapeCode.map some]) :=
    .choice h.escaping h.within (by simpa using
      ⟨h.gap.result none, (h.char (by decide)).result none, h.escapeCode.map some⟩)
  exact (((h.plain fun _ => id).map some).alt h.within h.within
    (h.backslash.then_ escape)).label h.within h.within _

theorem string : Alike E L T Literal.string :=
  (h.opens.between (h.closes.label h.within h.inside _) (h.stringItem.many h.within
    Literal.advancing_stringItem.framed Literal.advancing_stringItem.consuming)).map _

end Quoting

end Literals

section Twins

variable {C D : List Char → Prop} {P : Prop} {α : Type} {p : Parser α} {s t : State} {a : α}

/-- Both runs are in one place, and the text ahead of it has a property. -/
def Twin (C : List Char → Prop) (s t : State) : Prop := t = s ∧ s.Sound ∧ C s.rest

theorem aligns_twin : State.Aligns Eq (Twin C) where
  sound := by
    rintro _ s ⟨rfl, hs, -⟩
    exact ⟨hs, hs⟩
  consumed := by
    rintro _ s ⟨rfl, -⟩
    rfl
  drawn := by
    rintro _ s ⟨rfl, -⟩
    rfl
  withConsumed := by
    rintro _ s b ⟨rfl, hs, hc⟩
    exact ⟨rfl, hs, hc⟩
  rewindFrom := by
    rintro _ s u v ⟨rfl, hs, hc⟩ hd
    exact ⟨by simp [State.rewindFrom, hd], hs, hc⟩
  error := by
    rintro _ s cause ⟨rfl, -⟩
    rfl

theorem alike_twin (hp : Framed p)
    (h : ∀ s a t, s.Sound → p s = .success a t → C s.rest → D t.rest) :
    Alike Eq (Twin C) (Twin D) p := by
  rintro _ s ⟨rfl, hs, hc⟩
  cases hr : p s with
  | success a t => exact .success ⟨rfl, rfl, (hp.success hr).sound hs, h s a t hs hr hc⟩
  | failure e t => exact .failure rfl rfl rfl
  | stalled => exact .stalled

/-- What is known of a text when what is ahead is sealed, of what is ahead in a string, and of what is
ahead behind a backslash. -/
theorem quoting_twin : Quoting Eq (Twin fun w => (Sealed w → P) ∧ Solid w)
    (Twin fun w => Sealed w → P) (Twin fun w => ∀ rest, Quoted w rest → Sealed rest → P)
    (Twin fun w => ∀ rest, Quoted ('\\' :: w) rest → Sealed rest → P) where
  ahead := aligns_twin
  inside := aligns_twin
  within := aligns_twin
  escaping := aligns_twin
  opens := alike_twin (Advancing.char _).framed fun s a t _ hr hc rest hq hrest => by
    rw [char_eq_success hr] at hc
    exact hc.1 (.quoted hq hrest)
  closes := alike_twin (Advancing.char _).framed fun s a t _ hr hc hrest => by
    rw [char_eq_success hr] at hc
    exact hc _ .close hrest
  plain accepts ha := alike_twin (.satisfy _) fun s a t _ hr hc rest hq hrest => by
    obtain ⟨hacc, hs⟩ := satisfy_eq_success hr
    exact hc rest (hs ▸ .plain (ha a hacc) hq) hrest
  backslash := alike_twin (Advancing.char _).framed fun s a t _ hr hc rest hq hrest => by
    rw [char_eq_success hr] at hc
    exact hc rest hq hrest
  code accepts ha := alike_twin (.satisfy _) fun s a t _ hr hc rest hq hrest => by
    obtain ⟨hacc, hs⟩ := satisfy_eq_success hr
    exact hc rest (hs ▸ .code (ha a hacc) hq) hrest
  name name hname := alike_twin (.string _) fun s a t _ hr hc rest hq hrest => by
    rw [(string_eq_success hr).2] at hc
    exact hc rest (hq.name hname) hrest
  gap := alike_twin Literal.advancing_gap.framed fun s a t hs hr hc rest hq hrest => by
    rcases gap_cases s.rest with ⟨b, text, htext, hb, hblank⟩ | ⟨-, hrefuses⟩ | hbreaks
    · have htext' : s.rest = (b ++ ['\\']) ++ text := by simpa using htext
      have hread := Literal.reads_gap hb hblank s hs htext' trivial
      rw [hr] at hread
      cases hread
      rw [State.rest_pass htext'] at hq
      exact hc rest (htext ▸ .gap hb hblank hq) hrest
    · obtain ⟨e, u, hu, -⟩ := hrefuses s hs rfl
      rw [hr] at hu
      cases hu
    · obtain ⟨e, u, hu, -⟩ := hbreaks s hs rfl
      rw [hr] at hu
      cases hu

theorem weaving_twin : Weaving [] Eq (Twin fun w => (Sealed w → P) ∧ Solid w)
    (Twin fun w => Sealed w → P) (Twin fun w => Sealed w → P) fun _ _ => False where
  ahead := aligns_twin
  inside := aligns_twin
  behind := ⟨⟨⟨nofun, nofun, nofun, nofun⟩, nofun⟩, nofun⟩
  enters _ _ hst := ⟨hst.1, hst.2.1, hst.2.2.1⟩
  satisfy accepts ha := alike_twin (.satisfy _) fun s a t _ hr hc hsealed => by
    obtain ⟨hacc, hs⟩ := satisfy_eq_success hr
    exact hc (hs ▸ hsealed.bare_cons (ha a hacc))
  peek accepts _ := (alike_twin (D := fun _ => True) (.satisfy accepts)
    fun _ _ _ _ _ _ => trivial).mono (fun _ _ => id) fun _ _ s t ha => ⟨ha.1, congrArg _ ha.2.1⟩
  string expected _ ha := alike_twin (.string _) fun s a t _ hr hc hsealed => by
    rw [(string_eq_success hr).2] at hc
    exact hc (hsealed.bares (List.all_eq_true.mp ha))
  minus := alike_twin (Advancing.char _).framed fun s a t _ hr hc hsealed => by
    rw [char_eq_success hr] at hc
    have ⟨_, line, comment⟩ := solid_iff.mp hc.2
    exact hc.1 (.plain (by decide) line comment hsealed)
  quoted := quoting_twin.string
  spend _ _ _ _ _ huv _ := huv
  whiteSpace := (alike_twin Language.plain_whiteSpace.framed_plain fun s _ t hs hr hc => by
    obtain ⟨g, hg, hgap⟩ := gap_of_whiteSpace hs hr
    exact ⟨fun hsealed => hc (hg ▸ hsealed.gap_append hgap), hgap.solid⟩).mono
      (fun _ _ => id) fun _ _ _ _ ha => ⟨ha.1, .inl ha.2⟩
  column := by
    rintro _ s ⟨rfl, -⟩
    rfl
  referenceColumn := by
    rintro _ s ⟨rfl, -⟩
    rfl
  line := by
    rintro _ s ⟨rfl, -⟩
    exact Iff.rfl
  atEnd := by
    rintro _ s ⟨rfl, -⟩
    rfl
  enter := by
    rintro _ s ⟨rfl, hs, hc⟩
    exact ⟨rfl, hs, hc⟩
  opened := by
    rintro _ s ⟨rfl, hs, hc⟩
    exact ⟨rfl, hs, hc⟩
  restore := by
    rintro _ s _ u ⟨rfl, -⟩ ⟨rfl, hs, hc⟩
    exact ⟨rfl, hs, hc⟩
  restoreBehind := nofun
  margin := nofun
  lenient := nofun
  ended := nofun
  goesOn := nofun
  move := nofun
  moveBoth := nofun

end Twins

section Sources

variable {ids : Nat → String} {s t : State}

theorem leaves_endOfInput : Leaves endOfInput fun _ text rest => text = [] ∧ rest = [] := by
  intro s a t hs hr
  simp only [endOfInput] at hr
  split at hr
  next hend =>
    cases hr
    rw [hs.atEnd, List.isEmpty_iff] at hend
    exact ⟨hend, hend⟩
  · cases hr

theorem leaves_endOfDefinition : Leaves endOfDefinition fun _ text rest => text = [] ∧ rest = [] :=
  .alt leaves_endOfInput (.bind .indented .indented (fun _ => leaves_endOfInput)
    fun _ _ _ _ _ hr hr' => hr ▸ hr')

theorem leaves_sourceFile : Leaves (sourceFile ids) fun _ _ rest => rest = [] := by
  have text : Framed (text ids) :=
    (built_text (E := Framed) (framed_freshId ids)).framed id
  have titled : Leaves ((Source.text ids).skip .endOfInput) fun _ _ rest => rest = [] :=
    .bind_right text fun _ => leaves_endOfInput.map fun _ _ _ => And.right
  have lone : Leaves ((definition ids).skip endOfDefinition) fun _ _ rest => rest = [] :=
    .bind_right (framed_definition ids) fun _ => leaves_endOfDefinition.map fun _ _ _ => And.right
  exact .bind_right Language.plain_whiteSpace.framed_plain fun _ => titled.alt lone

/-- What is accepted is sealed: all its strings and comments are closed. -/
theorem sealed_of_sourceFile {c : Collection} (hs : s.Sound)
    (hr : sourceFile ids s = .success c t) : Sealed s.rest := by
  have weaving := weaving_twin (P := Sealed s.rest)
  have definition := weaving.definition resists_nil ids (by rintro _ _ _ _ rfl rfl; rfl)
  have both := weaving.sourceFile rfl definition (s := s) (t := s) ⟨rfl, hs, id⟩
  rw [hr] at both
  cases both with
  | success h =>
    obtain ⟨-, -, hsealed, -⟩ := h.2.resolve_right id
    exact hsealed (leaves_sourceFile hs hr ▸ .nil)

end Sources

end ContextRoles.Source
