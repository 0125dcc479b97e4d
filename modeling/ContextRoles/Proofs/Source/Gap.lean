import ContextRoles.Proofs.Lexeme.Trivia
import ContextRoles.Proofs.Lexeme.Word
import ContextRoles.Proofs.Source.Naming

/-! # Gaps between lexemes

A gap is all that is blank or comment in front of something else. Every lexeme takes the gap behind it
along, and a reserved word or operator ends where no more of its characters follow.
-/

namespace ContextRoles.Source

open Parsing Lexeme
open ContextRoles.Parsing.Parser hiding some

section Gaps

/-- The text begins with neither a blank nor a comment of the language. -/
abbrev Solid (text : List Char) : Prop := language.Solid text

/-- The first text is all that is blank or comment in front of the second one. -/
abbrev Gap (g rest : List Char) : Prop := language.Trivia g rest

variable {c : Char} {x g w rest text : List Char}

theorem solid_iff : Solid text ↔ (∀ c ∈ text.head?, Text.isBlank c = false) ∧
    ¬ "--".toList <+: text ∧ ¬ "\x7b-".toList <+: text := by
  constructor
  · intro h
    exact ⟨h.blank, fun hl => h.line ⟨by decide, h.blank, hl⟩,
      fun hc => h.block ⟨by decide, h.blank, h.line, hc⟩⟩
  · rintro ⟨blank, line, comment⟩
    exact ⟨blank, fun hl => line hl.mark, fun hc => comment hc.mark⟩

instance (text : List Char) : Decidable (Solid text) :=
  haveI : Decidable (∀ c ∈ text.head?, Text.isBlank c = false) := Option.decidableForallMem _
  decidable_of_iff' _ solid_iff

theorem stretch_blanks {b : List Char} (hb : ∀ d ∈ c :: b, Text.isBlank d = true)
    (h : ∀ c ∈ rest.head?, Text.isBlank c = false) : language.Stretch (c :: b) rest :=
  .blanks (List.cons_ne_nil c b) hb h

theorem stretch_run (hc : Text.isBlank c = true) (r : List Char) :
    language.Stretch (c :: r.takeWhile Text.isBlank) (r.dropWhile Text.isBlank) := by
  have small : ∀ d ∈ r.takeWhile Text.isBlank, Text.isBlank d = true :=
    List.all_eq_true.mp List.all_takeWhile
  exact stretch_blanks (by simpa using ⟨hc, small⟩) fun _ => eq_false_of_head?_dropWhile

theorem stretch_line (hx : '\n' ∉ x) (h : ∀ c ∈ rest.head?, c = '\n') :
    language.Stretch ("--".toList ++ x) rest :=
  .line ⟨by decide, by rintro c ⟨⟩; decide, List.prefix_append _ _⟩ hx h

theorem stretch_comment
    (h : afterComment "\x7b-".toList "-\x7d".toList true 1 (x ++ rest) = some rest) :
    language.Stretch ("\x7b-".toList ++ x) rest := by
  obtain ⟨y, hy, hencloses⟩ : ∃ y, x ++ rest = y ++ rest ∧ language.Encloses 1 y rest :=
    Language.encloses_of_afterComment (by decide) h
  rw [List.append_cancel_right hy]
  have line : ¬ language.OpensLine ("\x7b-".toList ++ (y ++ rest)) := fun h =>
    absurd h.mark (by simp [language])
  exact .block ⟨by decide, by rintro c ⟨⟩; decide, line, List.prefix_append _ _⟩ hencloses

end Gaps

namespace Gap

variable {c : Char} {x g rest : List Char}

theorem nil (h : Solid rest) : Gap [] rest := ⟨.nil, h⟩

theorem cons (h : language.Stretch x (g ++ rest)) (hg : Gap g rest) : Gap (x ++ g) rest :=
  ⟨.cons h hg.stretches, hg.solid⟩

theorem blank (hc : Text.isBlank c = true) (h : Gap g rest) : Gap (c :: g) rest := by
  -- blanks that follow are of the same stretch
  have single (hstop : ∀ d ∈ (g ++ rest).head?, Text.isBlank d = false) : Gap ([c] ++ g) rest :=
    .cons (stretch_blanks (by simpa using hc) hstop) h
  obtain ⟨hs, hsolid⟩ := h
  cases hs with
  | nil => exact single hsolid.blank
  | @cons v w _ hv hw =>
    cases hv with
    | blanks _ hb hstop =>
      exact .cons (x := c :: v) (stretch_blanks (by simpa using ⟨hc, hb⟩) hstop) ⟨hw, hsolid⟩
    | line hopens => exact single (by simpa [List.append_assoc] using hopens.blank)
    | block hopens => exact single (by simpa [List.append_assoc] using hopens.blank)

theorem line (hx : '\n' ∉ x) (h : Gap ('\n' :: g) rest) : Gap ("--".toList ++ x ++ '\n' :: g) rest :=
  .cons (stretch_line hx (by rintro _ ⟨⟩; rfl)) h

theorem last (hx : '\n' ∉ x) : Gap ("--".toList ++ x) [] := by
  simpa using cons (g := []) (stretch_line hx (by rintro _ ⟨⟩)) (.nil (Language.solid_nil language))

theorem comment
    (h : afterComment "\x7b-".toList "-\x7d".toList true 1 (x ++ (g ++ rest)) = some (g ++ rest))
    (hg : Gap g rest) : Gap ("\x7b-".toList ++ x ++ g) rest := .cons (stretch_comment h) hg

theorem induction {motive : (g rest : List Char) → Gap g rest → Prop}
    (nil : ∀ {rest} (h : Solid rest), motive [] rest (.nil h))
    (blank : ∀ {c g rest} (hc : Text.isBlank c = true) (h : Gap g rest), motive g rest h →
      motive (c :: g) rest (.blank hc h))
    (line : ∀ {x g rest} (hx : '\n' ∉ x) (h : Gap ('\n' :: g) rest), motive ('\n' :: g) rest h →
      motive ("--".toList ++ x ++ '\n' :: g) rest (.line hx h))
    (last : ∀ {x} (hx : '\n' ∉ x), motive ("--".toList ++ x) [] (.last hx))
    (comment : ∀ {x g rest}
      (hx : afterComment "\x7b-".toList "-\x7d".toList true 1 (x ++ (g ++ rest)) = some (g ++ rest))
      (h : Gap g rest), motive g rest h → motive ("\x7b-".toList ++ x ++ g) rest (.comment hx h))
    {g rest : List Char} (h : Gap g rest) : motive g rest h := by
  obtain ⟨hs, hsolid⟩ := h
  induction hs with
  | nil => exact nil hsolid
  | @cons v w rest hv hw ih =>
    have inner := ih hsolid
    cases hv with
    | blanks _ hb _ =>
      have taken : ∀ b : List Char, (∀ c ∈ b, Text.isBlank c = true) →
          ∃ h : Gap (b ++ w) rest, motive (b ++ w) rest h := by
        intro b hb
        induction b with
        | nil => exact ⟨⟨hw, hsolid⟩, inner⟩
        | cons c b ihb =>
          rw [List.forall_mem_cons] at hb
          obtain ⟨h, hm⟩ := ihb hb.2
          exact ⟨.blank hb.1 h, blank hb.1 h hm⟩
      exact (taken v hb).2
    | @line x _ _ hx hstop =>
      cases w with
      | cons d w =>
        obtain rfl : d = '\n' := hstop d rfl
        exact line hx ⟨hw, hsolid⟩ inner
      | nil =>
        cases rest with
        | cons d rest =>
          obtain rfl : d = '\n' := hstop d rfl
          exact absurd (hsolid.blank '\n' rfl) (by decide)
        | nil =>
          have taken : ∃ h : Gap ("--".toList ++ x ++ []) [], motive _ _ h := by
            rw [List.append_nil]
            exact ⟨.last hx, last hx⟩
          exact taken.2
    | block _ hencloses =>
      exact comment (hencloses.afterComment_eq (by decide)) ⟨hw, hsolid⟩ inner

theorem of_blanks (h : Solid rest) (hg : g.all Text.isBlank = true) : Gap g rest := by
  induction g with
  | nil => exact .nil h
  | cons c g ih =>
    rw [List.all_cons, Bool.and_eq_true] at hg
    exact .blank hg.1 (ih hg.2)

end Gap

theorem gap_nil : Gap [] [] := .nil (Language.solid_nil language)

section Gaps

variable {g w rest text : List Char}

theorem refuses_space (h : ∀ c ∈ text.head?, Text.isBlank c = false) : Refuses space text :=
  (Refuses.satisfy h).label _

theorem Gap.lexeme {α : Type} {p : Parser α} {a : α} (hg : Gap g rest)
    (h : Reads p w (g ++ rest) a) : Reads (language.lexeme p) (w ++ g) rest a := h.skip hg.reads

end Gaps

section Characters

theorem mem_of_inRanges {ranges : List (Nat × Nat)} {n : Nat} (h : Text.inRanges ranges n = true) :
    n ∈ ranges.flatMap fun (first, last) => List.range' first (last + 1 - first) := by
  induction ranges with
  | nil => cases h
  | cons range ranges ih =>
    obtain ⟨first, last⟩ := range
    rw [Text.inRanges] at h
    rw [List.flatMap_cons, List.mem_append, List.mem_range'_1]
    split at h
    · cases h
    · split at h
      · exact .inl (by omega)
      · exact .inr (ih h)

theorem eq_false_of_isBlank {f : Char → Bool} {c : Char} (hc : Text.isBlank c = true)
    (h : ((Text.blankRanges.flatMap fun (first, last) => List.range' first (last + 1 - first)).all
      fun n => !f (Char.ofNat n)) = true) : f c = false := by
  rw [List.all_eq_true] at h
  simpa using h c.toNat (mem_of_inRanges hc)

/-- No character of a kind goes on at the text. -/
def Stops (accepts : Char → Bool) (text : List Char) : Prop :=
  ∀ c ∈ text.head?, accepts c = false

instance (accepts : Char → Bool) (text : List Char) : Decidable (Stops accepts text) :=
  Option.decidableForallMem text.head?

theorem stops_dropWhile (accepts : Char → Bool) (text : List Char) :
    Stops accepts (text.dropWhile accepts) := fun _ => eq_false_of_head?_dropWhile

variable {g rest : List Char}

theorem Gap.stops_of {accepts : Char → Bool} (h : Gap g rest) (hr : g = [] → Stops accepts rest)
    (hb : ∀ c, Text.isBlank c = true → accepts c = false) (hl : accepts '-' = false)
    (hc : accepts '\x7b' = false) : Stops accepts (g ++ rest) := by
  induction h using Gap.induction with
  | nil => exact hr rfl
  | blank hc =>
    rintro c ⟨⟩
    exact hb _ hc
  | line =>
    rintro c ⟨⟩
    exact hl
  | last =>
    rintro c ⟨⟩
    exact hl
  | comment =>
    rintro c ⟨⟩
    exact hc

theorem Gap.stops {accepts : Char → Bool} (h : Gap g rest) (hr : Stops accepts rest)
    (hb : ∀ c, Text.isBlank c = true → accepts c = false) (hl : accepts '-' = false)
    (hc : accepts '\x7b' = false) : Stops accepts (g ++ rest) :=
  h.stops_of (fun _ => hr) hb hl hc

theorem isWordChar_of_isBlank (c : Char) (h : Text.isBlank c = true) : isWordChar c = false :=
  eq_false_of_isBlank h (by decide +kernel)

theorem Gap.stops_word (h : Gap g rest) (hr : Stops isWordChar rest) :
    Stops isWordChar (g ++ rest) :=
  h.stops hr isWordChar_of_isBlank (by decide) (by decide)

end Characters

section Words

variable {c : Char} {g rest text : List Char} {name : String}

theorem takes_wordChar : Takes language.identifierLetter String.singleton isWordChar :=
  takes_identifierLetter

theorem reads_identifierLetter (h : isWordChar c = true) :
    Reads language.identifierLetter [c] rest (String.singleton c) := takes_wordChar.reads c rest h

theorem refuses_identifierLetter (h : Stops isWordChar text) :
    Refuses language.identifierLetter text := takes_wordChar.refuses_text h

/-- A reserved word without the white space behind it. -/
def keyword (name : String) : Parser String :=
  attempt ((string name).skip
    (label (notFollowedBy language.identifierLetter) s!"end of {Text.quote name}"))

theorem reads_keyword (hn : name ≠ "") (h : Stops isWordChar rest) :
    Reads (keyword name) name.toList rest name :=
  reads_whole (.string hn) (refuses_identifierLetter h).fails

theorem refuses_keyword (h : ¬ name.toList <+: text) : Refuses (keyword name) text := by
  rintro s - rfl
  exact refusesAt_whole h

theorem refuses_keyword_word (hn : name ≠ "") (hc : isWordChar c = true) :
    Refuses (keyword name) (name.toList ++ c :: rest) :=
  refuses_whole hn (reads_identifierLetter hc)

theorem reads_reserved (hn : name ≠ "") (hg : Gap g rest) (h : Stops isWordChar (g ++ rest)) :
    Reads (language.reserved name) (name.toList ++ g) rest name := hg.lexeme (reads_keyword hn h)

theorem refuses_reserved (h : ¬ name.toList <+: text) : Refuses (language.reserved name) text :=
  (refuses_keyword h).bind

theorem refuses_reserved_word (hn : name ≠ "") (hc : isWordChar c = true) :
    Refuses (language.reserved name) (name.toList ++ c :: rest) := (refuses_keyword_word hn hc).bind

def isOperatorChar (c : Char) : Bool := defaultOperatorChars.contains c

theorem takes_operatorChar : Takes language.operatorLetter String.singleton isOperatorChar :=
  (Takes.oneOf _).letters

theorem reads_reservedOperator (hn : name ≠ "") (hg : Gap g rest)
    (h : Stops isOperatorChar (g ++ rest)) :
    Reads (language.reservedOperator name) (name.toList ++ g) rest name :=
  hg.lexeme (reads_whole (.string hn) (takes_operatorChar.refuses_text h).fails)

theorem refuses_reservedOperator (h : ¬ name.toList <+: text) :
    Refuses (language.reservedOperator name) text :=
  (Refuses.attempt (Refuses.string h).bind.fails).bind

theorem reads_symbol (hn : name ≠ "") (hg : Gap g rest) :
    Reads (language.symbol name) (name.toList ++ g) rest name := hg.lexeme (.string hn)

end Words

end ContextRoles.Source
