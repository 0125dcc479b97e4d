import ContextRoles.Proofs.Source.Separation

/-! # Values are read as they are accepted

Whatever text the rule of values accepts by itself is read as the same value at the end of a line. The
digits of a number and the letters of a word stop there, a string stops at its closing mark, and none
of the alternatives that were passed over gets a chance.
-/

namespace ContextRoles.Source

open Parsing Lexeme
open ContextRoles.Parsing.Parser hiding some

variable {α : Type} {p : Parser α} {Q : List Char → Prop} {g tail text w z : List Char} {c : Char}

section Characters

theorem EndsLine.notMem_head (hz : EndsLine z) (h : c ≠ '\n') : c ∉ z.head? := fun hc => h (hz c hc)

theorem carries_satisfy {accepts : Char → Bool} (hz : EndsLine z) (h : accepts '\n' = false) :
    Carries Q z (satisfy accepts) := .satisfy fun _ => hz.stops h

theorem carries_char (hz : EndsLine z) (h : c ≠ '\n') : Carries Q z (char c) :=
  .char fun _ => hz.notMem_head h

end Characters

section Numbers

def isNumeralChar (c : Char) : Bool :=
  isDecimalDigit c || (hexDigitChars ++ ['o', 'O', 'x', 'X']).contains c

section Digits

variable (hQ : ∀ w l, Q l → Q (w ++ l)) (hz : Stops isNumeralChar z)

include hQ

theorem carries_ofDigits {base : Nat} {digit : Parser Char} (h : Carries Q z digit) :
    Carries Q z (Number.ofDigits base digit) := .bind hQ (.some hQ h) fun _ => .require _

include hz

theorem carries_decimal : Carries Q z Number.decimal :=
  carries_ofDigits hQ ((Carries.satisfy fun _ c hc => (Bool.or_eq_false_iff.mp (hz c hc)).1).label _)

omit hQ in
theorem carries_oneOf {chars : List Char} (h : chars ⊆ hexDigitChars ++ ['o', 'O', 'x', 'X']) :
    Carries Q z (oneOf chars) :=
  .satisfy fun _ c hc => by
    have hnot := (Bool.or_eq_false_iff.mp (hz c hc)).2
    rw [List.contains_eq_mem, decide_eq_false_iff_not] at hnot ⊢
    exact fun hm => hnot (h hm)

theorem carries_octalDigits : Carries Q z (Number.ofDigits 8 .octalDigit) :=
  carries_ofDigits hQ ((carries_oneOf hz (by decide)).label _)

theorem carries_hexDigits : Carries Q z (Number.ofDigits 16 .hexDigit) :=
  carries_ofDigits hQ ((carries_oneOf hz (by decide)).label _)

theorem carries_natural : Carries Q z Number.natural := by
  have zero : Carries Q z (char '0') :=
    .char fun _ hm => absurd (hz _ hm) (by decide)
  have hexadecimal : Carries Q z Number.hexadecimal :=
    .then_ hQ (carries_oneOf hz (by decide)) (carries_hexDigits hQ hz)
  have octal : Carries Q z Number.octal :=
    .then_ hQ (carries_oneOf hz (by decide)) (carries_octalDigits hQ hz)
  refine .alt (.then_ hQ zero (.choice ?_)) (carries_decimal hQ hz)
  simpa using ⟨hexadecimal, octal, carries_decimal hQ hz, .pure 0⟩

end Digits

variable (hz : EndsLine z)
include hz

theorem carries_sign : Carries Q z Number.sign :=
  .choice (by
    simpa using ⟨(carries_char hz (by decide)).map _, (carries_char hz (by decide)).map _, .pure 1⟩)

theorem extends_sign : Parser.Extends (fun _ => True) (· ≠ []) [] z (language.lexeme Number.sign) :=
  .bind Number.plain_sign.framed_plain (carries_sign hz).extends_
    (fun _ => (extends_whiteSpace hz).map _) (fun _ _ _ _ _ _ _ => trivial) (by simp)

theorem carries_integer : Parser.Extends (fun _ => True) (fun _ => True) [] z
    (Number.integer (language.lexeme Number.sign)) ∧
    StillRefuses (· ≠ []) z (Number.integer (language.lexeme Number.sign)) := by
  have natural : Carries (fun _ => True) z Number.natural :=
    carries_natural (by simp) (hz.stops (by decide))
  have sign : Plain (language.lexeme Number.sign) := Language.plain_lexeme Number.plain_sign
  constructor
  · refine .bind sign.framed_plain (extends_sign hz)
      (fun factor => (natural.extends_.mono (fun _ _ => trivial) fun _ => id).map _) ?_ (by simp)
    intro factor s n t hs hr _ hnil
    have hlt := Number.advancing_natural.consuming.map _ hs hr
    simp [hnil] at hlt
  · exact .bind sign (fun _ => natural.plain.map _)
      (stillRefuses_lexeme Number.plain_sign (carries_sign hz).refuses (carries_sign hz).extends_)
      ((extends_sign hz).mono (fun _ _ => trivial) fun _ => id)
      fun factor => (natural.mono fun _ _ => trivial).refuses.map _

end Numbers

section Strings

variable (hz : EndsLine z)
include hz

theorem carries_escapeCode (hQ : ∀ w l, Q l → Q (w ++ l)) : Carries Q z Literal.escapeCode := by
  have letter : Carries Q z Literal.letterEscape :=
    .bind hQ (carries_satisfy hz (by decide)) fun _ => .require _
  have numeric : Carries Q z Literal.numericEscape := by
    refine .bind hQ (.choice ?_) fun n => ?_
    · have stop : Stops isNumeralChar z := hz.stops (by decide)
      simpa using ⟨carries_decimal hQ stop,
        Carries.then_ hQ (carries_char hz (by decide)) (carries_octalDigits hQ stop),
        Carries.then_ hQ (carries_char hz (by decide)) (carries_hexDigits hQ stop)⟩
    · split
      · exact .fail _
      · exact .require _
  have name : Carries Q z Literal.nameEscape := by
    refine .choice fun p hp => ?_
    obtain ⟨⟨name, c⟩, hm, rfl⟩ := List.mem_map.mp hp
    have known : controlNames.all (fun entry => entry.1 != "" && !entry.1.toList.contains '\n') =
        true := by decide
    have hname := List.all_eq_true.mp known _ hm
    refine (Carries.attempt_string ?_ (hz.notMem ?_)).map _
    · simp at hname
      exact hname.1
    · simp at hname
      exact hname.2
  have caret : Carries Q z Literal.caretEscape :=
    .then_ hQ (carries_char hz (by decide))
      (.bind hQ (carries_satisfy hz (by decide)) fun _ => .require _)
  exact (Carries.choice (by simpa using ⟨letter, numeric, name, caret⟩)).label _

theorem carries_stringItem : Carries (· ≠ []) z Literal.stringItem := by
  have hQ (w l : List Char) : l ≠ [] → w ++ l ≠ [] := List.append_ne_nil_of_right_ne_nil w
  have blank : Carries (· ≠ []) z space := (Carries.satisfy fun h => absurd rfl h).label _
  have gap : Carries (· ≠ []) z Literal.gap :=
    (Carries.then_ hQ (.some hQ blank) (carries_char hz (by decide))).label _
  have escape : Carries (· ≠ []) z (choice [Literal.gap.result none, (char '&').result none,
      Literal.escapeCode.map some]) :=
    .choice (by
      simpa using ⟨gap.map _, (carries_char hz (by decide)).map _, (carries_escapeCode hz hQ).map _⟩)
  have plain : Carries (· ≠ []) z (Literal.plainChar '"') := carries_satisfy hz (by decide)
  exact ((plain.map _).alt (.then_ hQ (carries_char hz (by decide)) escape)).label _

theorem carries_string : Carries (fun _ => True) z Literal.string := by
  have hQ (w l : List Char) : l ≠ [] → w ++ l ≠ [] := List.append_ne_nil_of_right_ne_nil w
  have mark : Carries (fun _ => True) z (char '"') := carries_char hz (by decide)
  have markAdvances : Advancing (char '"') := .char '"'
  have closing : Parser.Extends (· ≠ []) (fun _ => True) [] z (label (char '"') "end of string character") :=
    (mark.label _).extends_.mono (fun _ _ => trivial) fun _ => id
  have items : Carries (· ≠ []) z (many Literal.stringItem) :=
    .many hQ (carries_stringItem hz)
  have inner : Parser.Extends (fun _ => True) (· ≠ []) [] z ((char '"').then_ (many Literal.stringItem)) := by
    have opening : Parser.Extends (fun _ => True) (· ≠ []) [] ([] ++ z) (char '"') :=
      .label (.satisfy _) _
    refine .bind markAdvances.framed opening (fun _ => items.extends_) ?_ (by simp)
    exact fun _ s _ t _ hr ht => items.plain.framed_plain.upward hr hQ ht
  refine ⟨Literal.advancing_string.plain, ?_, ?_⟩
  · refine (Parser.Extends.bind (markAdvances.plain.then_ items.plain).framed_plain inner
      (fun _ => closing.map _) ?_ (by simp)).map _
    intro _ s _ t hs hr _ hnil
    have hlt := (markAdvances.label _).consuming.map _ hs hr
    simp [hnil] at hlt
  · have opened : Advancing ((char '"').then_ (many Literal.stringItem)) :=
      markAdvances.then_ items.plain Literal.advancing_stringItem.total_many
    exact (StillRefuses.bind_left opened.consuming opened.plain
      (fun _ => (markAdvances.plain.label _).map _)
      (.bind_left markAdvances.consuming markAdvances.plain (fun _ => items.plain)
        mark.refuses)).map _

end Strings

section Words

variable (hz : EndsLine z)
include hz

theorem carries_identifierLetter : Carries Q z language.identifierLetter :=
  (((carries_satisfy hz (by decide)).label _).alt (carries_satisfy hz (by decide))).map _

theorem stops_word_append (h : Stops isWordChar text) : Stops isWordChar (text ++ z) := by
  cases text with
  | nil => exact hz.stops (by decide)
  | cons c text => exact h

omit hz in
theorem keyword_cases (name : String) (text : List Char) : ¬ name.toList <+: text ∨
    (∃ c rest, isWordChar c = true ∧ text = name.toList ++ c :: rest) ∨
    ∃ rest, text = name.toList ++ rest ∧ Stops isWordChar rest := by
  by_cases h : name.toList <+: text
  · obtain ⟨rest, rfl⟩ := h
    cases rest with
    | nil => exact .inr (.inr ⟨[], rfl, nofun⟩)
    | cons c rest =>
      cases hc : isWordChar c with
      | true => exact .inr (.inl ⟨c, rest, hc, rfl⟩)
      | false =>
        refine .inr (.inr ⟨c :: rest, rfl, ?_⟩)
        rintro d ⟨⟩
        exact hc
  · exact .inl h

theorem carries_keyword {name : String} (hn : name ≠ "") (hw : '\n' ∉ name.toList) :
    Carries Q z (keyword name) := by
  have plain : Plain (keyword name) :=
    .attempt ((Built.string name).skip
      ((Built.notFollowedBy language_regular.identifierLetter.plain).label _))
  refine ⟨plain, ?_, ?_⟩
  · intro s a t hs _ hr _
    rcases keyword_cases name s.rest with hnot | ⟨c, rest, hc, hrest⟩ | ⟨rest, hrest, hstop⟩
    · obtain ⟨e, u, hu, -⟩ := refuses_keyword hnot s hs rfl
      simp [hu] at hr
    · obtain ⟨e, u, hu, -⟩ := refuses_keyword_word hn hc s hs hrest
      simp [hu] at hr
    · rw [reads_keyword hn hstop s hs hrest trivial] at hr
      cases hr
      have hleft : (s.pass name.toList).rest = rest := State.rest_pass hrest
      refine ⟨name.toList, by rw [hrest, hleft], ?_⟩
      rw [List.append_nil, hleft]
      exact reads_keyword hn (stops_word_append hz hstop)
  · intro s e t hs _ _ hr _
    rcases keyword_cases name s.rest with hnot | ⟨c, rest, hc, hrest⟩ | ⟨rest, hrest, hstop⟩
    · exact refuses_keyword fun hp => hnot (prefix_of_prefix_append hp (hz.notMem hw))
    · rw [hrest, List.append_assoc]
      exact refuses_keyword_word hn hc
    · rw [reads_keyword hn hstop s hs hrest trivial] at hr
      cases hr

theorem carries_word : Carries (fun _ => True) z
    (Language.word language.identifierStart language.identifierLetter) := by
  have hQ : ∀ _ _ : List Char, True → True := fun _ _ => id
  have start : Carries (fun _ => True) z language.identifierStart :=
    ((carries_satisfy hz (by decide)).label _).map _
  exact .bind hQ start fun _ => (Carries.many hQ (carries_identifierLetter hz)).map _

end Words

section Values

/-- The rule of values, before they are rendered. -/
def value : Parser Value := .alt simpleValue (dataType.map .dataType)

/-- A text that `p` accepts by itself is read with the gap that ends its line. -/
structure Ends (g tail : List Char) (p : Parser α) : Prop where
  extends_ : Parser.Extends (· ≠ []) (· = []) g tail p
  refuses : StillRefuses (· ≠ []) (g ++ tail) p

namespace Ends

variable {β : Type} {q : Parser α}

theorem swap (l : List Char) (h : l = []) : l ++ g = g ++ l := by
  rw [h, List.nil_append, List.append_nil]

theorem map (h : Ends g tail p) (f : α → β) : Ends g tail (Parser.map f p) :=
  ⟨h.extends_.map f, h.refuses.map f⟩

theorem label (h : Ends g tail p) (name : String) : Ends g tail (Parser.label p name) :=
  ⟨h.extends_.label name, h.refuses.label name⟩

theorem choice {ps : List (Parser α)} (h : ∀ p ∈ ps, Ends g tail p) :
    Ends g tail (Parser.choice ps) :=
  ⟨.choice (fun p hp => (h p hp).extends_) (fun p hp => (h p hp).refuses) swap,
    .choice fun p hp => (h p hp).refuses⟩

theorem lexeme (hg : Gap g tail) (hz : EndsLine (g ++ tail)) (hp : Plain p)
    (h : Parser.Extends (fun _ => True) (fun _ => True) [] (g ++ tail) p)
    (h' : StillRefuses (· ≠ []) (g ++ tail) p) : Ends g tail (language.lexeme p) :=
  ⟨extends_lexeme hp.framed_plain (h.mono (fun _ _ => trivial) fun _ => id) hg hz,
    stillRefuses_lexeme hp h' (h.mono (fun _ _ => trivial) fun _ _ => trivial)⟩

theorem of_carries (hg : Gap g tail) (hz : EndsLine (g ++ tail))
    (h : Carries (fun _ => True) (g ++ tail) p) : Ends g tail (language.lexeme p) :=
  lexeme hg hz h.plain h.extends_ (h.mono fun _ _ => trivial).refuses

end Ends

variable (hg : Gap g tail) (hz : EndsLine (g ++ tail))
include hg hz

theorem ends_simpleValue : Ends g tail simpleValue := by
  have string : Ends g tail language.stringLiteral :=
    .of_carries hg hz ((carries_string hz).label _)
  have integer : Ends g tail language.integer :=
    (Ends.lexeme hg hz (Number.advancing_integer (Language.plain_lexeme Number.plain_sign)
      (Language.total_lexeme Number.total_sign Number.plain_sign.framed_plain)).plain
      (carries_integer hz).1 (carries_integer hz).2).label _
  have true_ : Ends g tail (language.reserved "true") :=
    .of_carries hg hz (carries_keyword hz (by decide) (by decide))
  have false_ : Ends g tail (language.reserved "false") :=
    .of_carries hg hz (carries_keyword hz (by decide) (by decide))
  exact (Ends.choice (by
    simpa using ⟨string.map _, integer.map _, true_.map _, false_.map _⟩)).label _

theorem extends_identifier : Parser.Extends (· ≠ []) (· = []) g tail language.identifier := by
  have checked : Carries (fun _ => True) (g ++ tail) ((Parser.label (Language.word
      language.identifierStart language.identifierLetter) "identifier").bind fun name =>
        if inSorted language.reservedTable (language.key name) then
          Parser.unexpected s!"reserved word {Text.quote name}"
        else Parser.pure name) := by
    refine .bind (fun _ _ => id) ((carries_word hz).label _) fun name => ?_
    split
    · exact .fail _
    · exact .pure name
  exact extends_lexeme (Built.attempt checked.plain).framed_plain
    (checked.extends_.attempt.mono (fun _ _ => trivial) fun _ => id) hg hz

theorem extends_dataType : Parser.Extends (· ≠ []) (· = []) g tail dataType := by
  refine Parser.Extends.label (Parser.Extends.attempt ?_) _
  intro s b t hs hQ hr ht
  obtain ⟨name, u, hu, hb⟩ := bind_eq_success.mp hr
  unfold checkDataType at hb
  cases ho : DataType.ofName? name with
  | none => simp [ho, fail] at hb
  | some d =>
    simp only [ho, Parser.pure, Outcome.success.injEq] at hb
    obtain ⟨rfl, rfl⟩ := hb
    obtain ⟨w, hw, hreads⟩ := extends_identifier hg hz hs hQ hu ht
    refine ⟨w, hw, ?_⟩
    have checked : Reads (checkDataType name) [] (u.rest ++ tail) d := by
      rw [checkDataType, ho]
      exact ReadsIf.pure d
    have both := Reads.bind (w := []) hreads checked
    rwa [List.append_nil] at both

theorem extends_value : Parser.Extends (· ≠ []) (· = []) g tail value :=
  (ends_simpleValue hg hz).extends_.alt (ends_simpleValue hg hz).refuses
    ((extends_dataType hg hz).map _) Ends.swap

theorem reads_value {x : String} {v : Value} (h : Accepts value x v) :
    Reads propertyValue (x.toList ++ g) tail v.render := by
  have consuming : Consuming value :=
    advancing_simpleValue.consuming.alt (advancing_dataType.consuming.map _)
  have read := h.reads (L := (· = [])) (h.ne_empty consuming) rfl (extends_value hg hz)
  exact (read.label "value").map _

end Values

section Numerals

theorem reads_numeral {x : String} {n : Nat} (h : Accepts Number.natural x n) (hg : Gap g tail)
    (hz : Stops isNumeralChar (g ++ tail)) :
    Reads language.natural (x.toList ++ g) tail n := by
  have read := h.reads (Q := fun _ => True) trivial trivial (carries_natural (by simp) hz).extends_
  rw [List.append_nil] at read
  exact (hg.lexeme read).label _

end Numerals

end ContextRoles.Source
