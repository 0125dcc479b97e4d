import ContextRoles.Lexeme.Literal
import ContextRoles.Lexeme.Word
import ContextRoles.Proofs.Parsing.Totality

/-! # Lexemes come to a result

No lexeme of a language stalls: its repetitions repeat parsers that read something, and every number,
code point and escape that it converts is one. The comment delimiters may be any texts.
-/

namespace ContextRoles.Lexeme

open Parsing Parser

/-- The characters of identifiers and operators are read one by one, or at least never in place. -/
structure Language.Regular (lang : Language) : Prop where
  identifierStart : Advancing lang.identifierStart
  identifierLetter : Advancing lang.identifierLetter
  operatorStart : Advancing lang.operatorStart
  operatorLetter : Advancing lang.operatorLetter

theorem advancing_letters {p : Parser Char} (h : Advancing p) : Advancing (letters p) := h.map _

namespace Number

/-- Whether every character that `p` reads is a digit of a base. -/
def DigitsOf (base : Nat) (p : Parser Char) : Prop :=
  Yields p fun c => hexDigitChars.contains c = true ∧ digitValue c < base

theorem digitsOf_digit : DigitsOf 10 .digit := by
  intro s c t hr
  have hc : isDecimalDigit c = true := (Yields.satisfy _).label _ hr
  have small : ∀ n < 58, 48 ≤ n → hexDigitChars.contains (Char.ofNat n) = true ∧
      digitValue (Char.ofNat n) < 10 := by decide
  simp only [isDecimalDigit, Bool.and_eq_true, decide_eq_true_eq, Char.le_def,
    UInt32.le_iff_toNat_le] at hc
  have h := small c.toNat (Nat.lt_succ_of_le hc.2) hc.1
  rwa [Char.ofNat_toNat] at h

theorem digitsOf_oneOf {base : Nat} {chars : List Char} {name : String}
    (h : (chars.all fun c => hexDigitChars.contains c && digitValue c < base) = true) :
    DigitsOf base (label (oneOf chars) name) := by
  intro s c t hr
  have hc : chars.contains c = true := (Yields.satisfy _).label _ hr
  rw [List.all_eq_true] at h
  simpa using h c (by simpa using hc)

theorem digitsOf_hexDigit : DigitsOf 16 .hexDigit := digitsOf_oneOf (by decide)

theorem digitsOf_octalDigit : DigitsOf 8 .octalDigit := digitsOf_oneOf (by decide)

theorem isSome_numeral? {base : Nat} {digits : List Char} (h : digits ≠ [])
    (h' : ∀ c ∈ digits, hexDigitChars.contains c = true ∧ digitValue c < base) :
    (numeral? base digits).isSome = true := by
  have hall : (digits.all fun c => hexDigitChars.contains c && digitValue c < base) = true := by
    rw [List.all_eq_true]
    intro c hc
    simpa using h' c hc
  simp only [numeral?, hall, Bool.and_true, Bool.not_eq_true', List.isEmpty_eq_false_iff, ne_eq, h,
    not_false_eq_true, if_true, Option.isSome_some]

theorem advancing_ofDigits {base : Nat} {p : Parser Char} (h : Advancing p)
    (hd : DigitsOf base p) : Advancing (ofDigits base p) :=
  h.some.bind_of_yields hd.some (fun _ => .require _) fun _ hv =>
    .require (isSome_numeral? hv.1 hv.2)

theorem advancing_decimal : Advancing decimal :=
  advancing_ofDigits ((Advancing.satisfy _).label _) digitsOf_digit

theorem advancing_hexadecimal : Advancing hexadecimal :=
  have h := advancing_ofDigits ((Advancing.satisfy _).label _) digitsOf_hexDigit
  (Advancing.satisfy _).then_ h.plain h.total

theorem advancing_octal : Advancing octal :=
  have h := advancing_ofDigits ((Advancing.satisfy _).label _) digitsOf_octalDigit
  (Advancing.satisfy _).then_ h.plain h.total

theorem plain_afterZero : Plain afterZero :=
  .choice (by simpa [advancing_hexadecimal.plain, advancing_octal.plain, advancing_decimal.plain]
    using Built.pure 0)

theorem total_afterZero : Total afterZero :=
  .choice (by simpa [advancing_hexadecimal.total, advancing_octal.total, advancing_decimal.total]
    using Total.pure 0)

theorem advancing_natural : Advancing natural :=
  ((Advancing.char '0').then_ plain_afterZero total_afterZero).alt advancing_decimal

theorem plain_sign : Plain sign :=
  .choice (by simpa using ⟨(Built.char '-').result _, (Built.char '+').result _, Built.pure _⟩)

theorem total_sign : Total sign :=
  .choice (by simpa using
    ⟨(Advancing.char '-').total.map _, (Advancing.char '+').total.map _, Total.pure _⟩)

theorem advancing_integer {sign : Parser Int} (h : Plain sign) (ht : Total sign) :
    Advancing (integer sign) :=
  ⟨.bind h fun _ => advancing_natural.plain.map _,
    ht.bind h.framed_plain fun _ => advancing_natural.total.map _,
    .bind_right h.framed_plain fun _ => advancing_natural.consuming.map _⟩

theorem advancing_fraction : Advancing fraction :=
  have h := (((Advancing.satisfy isDecimalDigit).label "digit").some).label "fraction"
  (Advancing.char '.').then_ h.plain h.total

theorem advancing_exponent : Advancing exponent :=
  Advancing.label ((Advancing.satisfy _).then_
    (.bind plain_sign fun _ => advancing_decimal.plain.map _)
    (total_sign.bind plain_sign.framed_plain fun _ => advancing_decimal.total.map _)) _

theorem advancing_afterWhole (whole : Nat) : Advancing (afterWhole whole) :=
  (advancing_fraction.bind (fun _ => (advancing_exponent.plain.option _).map _)
    fun _ => (advancing_exponent.total.option _).map _).alt (advancing_exponent.map _)

theorem advancing_float : Advancing float :=
  (advancing_decimal.bind (fun n => (advancing_afterWhole n).plain)
    fun n => (advancing_afterWhole n).total).map _

theorem advancing_decimalOrFloat : Advancing decimalOrFloat :=
  advancing_decimal.bind (fun n => ((advancing_afterWhole n).plain.map _).option _)
    fun n => ((advancing_afterWhole n).total.map _).option _

theorem advancing_naturalOrFloat : Advancing naturalOrFloat := by
  refine ((Advancing.char '0').then_ (.choice ?_) (.choice ?_)).alt advancing_decimalOrFloat
  · simpa using ⟨advancing_hexadecimal.plain.map _, advancing_octal.plain.map _,
      advancing_decimalOrFloat.plain, (advancing_afterWhole 0).plain.map _, Built.pure _⟩
  · simpa using ⟨advancing_hexadecimal.total.map _, advancing_octal.total.map _,
      advancing_decimalOrFloat.total, (advancing_afterWhole 0).total.map _, Total.pure _⟩

end Number

namespace Literal

open Number

theorem isSome_character? {n : Int} (h : 0 ≤ n) (h' : n ≤ maxCodePoint) :
    (character? n).isSome = true := by
  simp [character?, h, h']

theorem advancing_letterEscape : Advancing letterEscape := by
  refine (Advancing.satisfy _).bind_of_yields (.satisfy _) (fun _ => .require _) fun c hc => ?_
  have known : ((letterEscapes.map (·.1)).all fun c => (letterEscapes.lookup c).isSome) = true := by
    decide
  rw [List.all_eq_true] at known
  exact .require (known c (by simpa using hc))

theorem advancing_numericEscape : Advancing numericEscape := by
  have octal := advancing_ofDigits ((Advancing.satisfy _).label _) digitsOf_octalDigit
  have hexadecimal := advancing_ofDigits ((Advancing.satisfy _).label _) digitsOf_hexDigit
  refine Advancing.bind (.choice ?_) (fun n => ?_) fun n => ?_
  · simpa using ⟨advancing_decimal, (Advancing.char 'o').then_ octal.plain octal.total,
      (Advancing.char 'x').then_ hexadecimal.plain hexadecimal.total⟩
  · split
    · exact .fail _
    · exact .require _
  · split
    · exact .fail _
    · exact .require (isSome_character? (by omega) (by omega))

theorem advancing_nameEscape : Advancing nameEscape := by
  have named : ∀ name ∈ controlNames.map (·.1), name ≠ "" := by decide
  refine .choice fun p hp => ?_
  obtain ⟨⟨name, c⟩, hmem, rfl⟩ := List.mem_map.mp hp
  have hne := named name (List.mem_map_of_mem hmem)
  exact Advancing.map (Advancing.attempt ⟨.string _, .string _, .string hne⟩) _

theorem advancing_caretEscape : Advancing caretEscape := by
  refine (Advancing.char '^').then_ (.bind (.satisfy _) fun _ => .require _) ?_
  refine Total.bind_of_yields (.satisfy _) (Advancing.satisfy _).framed (.satisfy _) fun c hc => ?_
  simp only [Bool.and_eq_true, decide_eq_true_eq, Char.le_def, UInt32.le_iff_toNat_le] at hc
  have hle : c.toNat ≤ 90 := hc.2
  have hge : 65 ≤ c.toNat := hc.1
  refine .require (isSome_character? ?_ ?_)
  · change (0 : Int) ≤ c.toNat - 65 + 1
    omega
  · change (c.toNat - 65 + 1 : Int) ≤ 0x10FFFF
    omega

theorem advancing_escapeCode : Advancing escapeCode :=
  (Advancing.choice (by simpa using ⟨advancing_letterEscape, advancing_numericEscape,
    advancing_nameEscape, advancing_caretEscape⟩)).label _

theorem advancing_plainChar (mark : Char) : Advancing (plainChar mark) := .satisfy _

theorem advancing_character : Advancing character :=
  ((advancing_plainChar _).alt ((Advancing.char _).then_ advancing_escapeCode.plain
    advancing_escapeCode.total)).label _

theorem advancing_gap : Advancing gap :=
  ((((Advancing.satisfy _).label _).some).then_ (.char _) (Advancing.char _).total).label _

theorem advancing_stringItem : Advancing stringItem := by
  have escape : Advancing (Parser.choice [gap.result none, (Parser.char '&').result none,
      escapeCode.map some]) :=
    .choice (by simpa using ⟨advancing_gap.map _, (Advancing.char '&').map _,
      advancing_escapeCode.map _⟩)
  exact (((advancing_plainChar _).map _).alt
    ((Advancing.char _).then_ escape.plain escape.total)).label _

theorem advancing_string : Advancing string :=
  have closing := (Advancing.char '"').label "end of string character"
  (((Advancing.char _).then_ advancing_stringItem.plain_many advancing_stringItem.total_many).skip
    closing.plain closing.total).map _

end Literal

namespace Language

variable {α : Type} {lang : Language} {p : Parser α}

theorem advancing_lineComment (h : lang.commentLine ≠ "") : Advancing lang.lineComment :=
  have rest := Advancing.satisfy (· != '\n')
  (Advancing.attempt ⟨.string _, .string _, .string h⟩).then_ rest.plain.skipMany
    (rest.total_many.map _)

theorem advancing_blockComment (h : lang.commentStart ≠ "") : Advancing lang.blockComment := by
  refine ⟨.primitive (.blockComment lang), .blockComment lang, ?_⟩
  intro s u t hs hr
  simp only [blockComment] at hr
  split at hr
  next hw =>
    split at hr
    · cases hr
      have hle := (State.startsWith_iff.mp hw).2.length_le
      have hpos : 0 < lang.commentStart.toList.length := by simpa [List.length_pos_iff] using h
      simp only [State.advance, List.length_drop, ← String.length_toList]
      omega
    · cases hr
  · cases hr

theorem advancing_separator : Advancing (label (choice (skipSome space ::
    ((if lang.commentLine.isEmpty then [] else [lang.lineComment]) ++
      (if lang.commentStart.isEmpty then [] else [lang.blockComment])))) "whitespace") := by
  refine (Advancing.choice fun p hp => ?_).label _
  rcases List.mem_cons.mp hp with rfl | hp
  · exact (((Advancing.satisfy _).label _).some).map _
  rcases List.mem_append.mp hp with hp | hp
  · split at hp
    · simp at hp
    next h =>
      obtain rfl := List.mem_singleton.mp hp
      exact advancing_lineComment (by simpa using h)
  · split at hp
    · simp at hp
    next h =>
      obtain rfl := List.mem_singleton.mp hp
      exact advancing_blockComment (by simpa using h)

theorem plain_whiteSpace : Plain lang.whiteSpace := advancing_separator.plain.skipMany

theorem total_whiteSpace : Total lang.whiteSpace := advancing_separator.total_many.map _

theorem plain_lexeme (h : Plain p) : Plain (lang.lexeme p) := h.skip plain_whiteSpace

theorem total_lexeme (h : Total p) (hp : Framed p) : Total (lang.lexeme p) :=
  h.skip hp total_whiteSpace

theorem advancing_lexeme (h : Advancing p) : Advancing (lang.lexeme p) :=
  h.skip plain_whiteSpace total_whiteSpace

theorem plain_symbol (text : String) : Plain (lang.symbol text) := plain_lexeme (.string text)

theorem total_symbol (text : String) : Total (lang.symbol text) :=
  total_lexeme (.string text) (.string text)

theorem advancing_parens (h : Plain p) (ht : Total p) : Advancing (lang.parens p) :=
  have opening : Advancing (lang.symbol "(") :=
    advancing_lexeme ⟨.string _, .string _, .string (by decide)⟩
  (opening.then_ h ht).skip (plain_symbol _) (total_symbol _)

theorem advancing_naturalLexeme : Advancing lang.natural :=
  (advancing_lexeme Number.advancing_natural).label _

theorem advancing_integerLexeme : Advancing lang.integer :=
  (advancing_lexeme (Number.advancing_integer (plain_lexeme Number.plain_sign)
    (total_lexeme Number.total_sign Number.plain_sign.framed_plain))).label _

theorem advancing_floatLexeme : Advancing lang.float :=
  (advancing_lexeme Number.advancing_float).label _

theorem advancing_naturalOrFloatLexeme : Advancing lang.naturalOrFloat :=
  (advancing_lexeme Number.advancing_naturalOrFloat).label _

theorem advancing_stringLiteral : Advancing lang.stringLiteral :=
  advancing_lexeme (Literal.advancing_string.label _)

theorem advancing_charLiteral : Advancing lang.charLiteral :=
  have closing := (Advancing.char '\'').label "end of character"
  (advancing_lexeme (((Advancing.char '\'').then_ Literal.advancing_character.plain
    Literal.advancing_character.total).skip closing.plain closing.total)).label _

theorem advancing_word {first next : Parser String} (h : Advancing first) (h' : Advancing next) :
    Advancing (word first next) :=
  h.bind (fun _ => h'.plain_many.map _) fun _ => h'.total_many.map _

theorem advancing_identifier (h : lang.Regular) : Advancing lang.identifier := by
  refine advancing_lexeme (.attempt (.bind
    ((advancing_word h.identifierStart h.identifierLetter).label _) (fun name => ?_) fun name => ?_))
  · split
    · exact .unexpected _
    · exact .pure _
  · split
    · exact .fail _
    · exact .pure _

theorem advancing_operator (h : lang.Regular) : Advancing lang.operator := by
  refine advancing_lexeme (.attempt (.bind
    ((advancing_word h.operatorStart h.operatorLetter).label _) (fun name => ?_) fun name => ?_))
  · split
    · exact .unexpected _
    · exact .pure _
  · split
    · exact .fail _
    · exact .pure _

theorem advancing_reserved (h : lang.Regular) (hc : lang.caseSensitive = true) {name : String}
    (hn : name ≠ "") : Advancing (lang.reserved name) := by
  have ending := (Built.notFollowedBy h.identifierLetter.plain).label
    s!"end of {Text.quote name}"
  have spelled : Advancing (if lang.caseSensitive then Parser.string name else anyCase name) := by
    rw [if_pos hc]
    exact ⟨.string _, .string _, .string hn⟩
  exact advancing_lexeme ((spelled.skip ending
    (h.identifierLetter.total.notFollowedBy.label _)).attempt)

theorem advancing_reservedOperator (h : lang.Regular) {name : String} (hn : name ≠ "") :
    Advancing (lang.reservedOperator name) :=
  have spelled : Advancing (Parser.string name) := ⟨.string _, .string _, .string hn⟩
  advancing_lexeme ((spelled.skip ((Built.notFollowedBy h.operatorLetter.plain).label _)
    (h.operatorLetter.total.notFollowedBy.label _)).attempt)

theorem plain_reserved (h : lang.Regular) (hc : lang.caseSensitive = true) (name : String) :
    Plain (lang.reserved name) := by
  refine plain_lexeme (.attempt (.skip ?_ ((Built.notFollowedBy h.identifierLetter.plain).label _)))
  rw [if_pos hc]
  exact .string _

theorem total_reserved (h : lang.Regular) (hc : lang.caseSensitive = true) (name : String) :
    Total (lang.reserved name) := by
  have ending := (Built.notFollowedBy h.identifierLetter.plain).label
    s!"end of {Text.quote name}"
  have spelled : Plain (if lang.caseSensitive then Parser.string name else anyCase name) := by
    rw [if_pos hc]
    exact .string _
  refine total_lexeme (.attempt (.skip ?_ spelled.framed_plain
    (h.identifierLetter.total.notFollowedBy.label _)))
    (Built.attempt (spelled.skip ending)).framed_plain
  rw [if_pos hc]
  exact .string _

theorem plain_reservedOperator (h : lang.Regular) (name : String) :
    Plain (lang.reservedOperator name) :=
  plain_lexeme (.attempt ((Built.string name).skip
    ((Built.notFollowedBy h.operatorLetter.plain).label _)))

theorem total_reservedOperator (h : lang.Regular) (name : String) :
    Total (lang.reservedOperator name) :=
  have ending := (Built.notFollowedBy h.operatorLetter.plain).label s!"end of {Text.quote name}"
  total_lexeme (.attempt ((Total.string name).skip (.string name)
    (h.operatorLetter.total.notFollowedBy.label _)))
    (Built.attempt ((Built.string name).skip ending)).framed_plain

theorem plain_bracketed (h : Plain p) (opening closing : String) :
    Plain (.between (lang.symbol opening) (lang.symbol closing) p) :=
  (plain_symbol opening).between (plain_symbol closing) h

theorem total_bracketed (h : Plain p) (ht : Total p) (opening closing : String) :
    Total (.between (lang.symbol opening) (lang.symbol closing) p) :=
  have opened : Plain ((lang.symbol opening).then_ p) := (plain_symbol opening).then_ h
  ((total_symbol opening).then_ (plain_symbol opening).framed_plain ht).skip opened.framed_plain
    (total_symbol closing)

theorem advancing_symbol {text : String} (h : text ≠ "") : Advancing (lang.symbol text) :=
  advancing_lexeme ⟨.string _, .string _, .string h⟩

theorem total_sepBy1 {separator : String} (hs : separator ≠ "") (h : Plain p) (ht : Total p) :
    Total (Parser.sepBy1 p (lang.symbol separator)) :=
  ht.bind h.framed_plain fun _ => ((advancing_symbol hs).then_ h ht).total_many.map _

theorem total_sepBy {separator : String} (hs : separator ≠ "") (h : Plain p) (ht : Total p) :
    Total (Parser.sepBy p (lang.symbol separator)) :=
  (total_sepBy1 hs h ht).option []

end Language

/-- The lexemes of a language, and the ways to put lexemes into brackets and to list them. -/
inductive Token where
  | whiteSpace
  | identifier
  | operator
  | charLiteral
  | stringLiteral
  | decimal
  | hexadecimal
  | octal
  | natural
  | integer
  | float
  | naturalOrFloat
  | reserved (name : String)
  | reservedOperator (name : String)
  | symbol (text : String)
  | parens (token : Token)
  | braces (token : Token)
  | angles (token : Token)
  | brackets (token : Token)
  | semiSep (token : Token)
  | semiSep1 (token : Token)
  | commaSep (token : Token)
  | commaSep1 (token : Token)

namespace Token

/-- The parser of a token, with its value left out. -/
def parser (lang : Language) : Token → Parser Unit
  | whiteSpace => lang.whiteSpace
  | identifier => lang.identifier.result ()
  | operator => lang.operator.result ()
  | charLiteral => lang.charLiteral.result ()
  | stringLiteral => lang.stringLiteral.result ()
  | decimal => Number.decimal.result ()
  | hexadecimal => Number.hexadecimal.result ()
  | octal => Number.octal.result ()
  | natural => lang.natural.result ()
  | integer => lang.integer.result ()
  | float => lang.float.result ()
  | naturalOrFloat => lang.naturalOrFloat.result ()
  | reserved name => (lang.reserved name).result ()
  | reservedOperator name => (lang.reservedOperator name).result ()
  | symbol text => (lang.symbol text).result ()
  | parens token => lang.parens (token.parser lang)
  | braces token => lang.braces (token.parser lang)
  | angles token => lang.angles (token.parser lang)
  | brackets token => lang.brackets (token.parser lang)
  | semiSep token => (lang.semiSep (token.parser lang)).result ()
  | semiSep1 token => (lang.semiSep1 (token.parser lang)).result ()
  | commaSep token => (lang.commaSep (token.parser lang)).result ()
  | commaSep1 token => (lang.commaSep1 (token.parser lang)).result ()

variable {lang : Language}

theorem plain (h : lang.Regular) (hc : lang.caseSensitive = true) (token : Token) :
    Plain (token.parser lang) := by
  induction token with
  | whiteSpace => exact Language.plain_whiteSpace
  | identifier => exact (Language.advancing_identifier h).plain.result ()
  | operator => exact (Language.advancing_operator h).plain.result ()
  | charLiteral => exact Language.advancing_charLiteral.plain.result ()
  | stringLiteral => exact Language.advancing_stringLiteral.plain.result ()
  | decimal => exact Number.advancing_decimal.plain.result ()
  | hexadecimal => exact Number.advancing_hexadecimal.plain.result ()
  | octal => exact Number.advancing_octal.plain.result ()
  | natural => exact Language.advancing_naturalLexeme.plain.result ()
  | integer => exact Language.advancing_integerLexeme.plain.result ()
  | float => exact Language.advancing_floatLexeme.plain.result ()
  | naturalOrFloat => exact Language.advancing_naturalOrFloatLexeme.plain.result ()
  | reserved name => exact (Language.plain_reserved h hc name).result ()
  | reservedOperator name => exact (Language.plain_reservedOperator h name).result ()
  | symbol text => exact (Language.plain_symbol text).result ()
  | parens token ih => exact Language.plain_bracketed ih _ _
  | braces token ih => exact Language.plain_bracketed ih _ _
  | angles token ih => exact Language.plain_bracketed ih _ _
  | brackets token ih => exact Language.plain_bracketed ih _ _
  | semiSep token ih => exact (ih.sepBy (Language.plain_symbol _)).result ()
  | semiSep1 token ih => exact (ih.sepBy1 (Language.plain_symbol _)).result ()
  | commaSep token ih => exact (ih.sepBy (Language.plain_symbol _)).result ()
  | commaSep1 token ih => exact (ih.sepBy1 (Language.plain_symbol _)).result ()

/-- No token stalls, however tokens are nested in brackets and lists. -/
theorem total (h : lang.Regular) (hc : lang.caseSensitive = true) (token : Token) :
    Total (token.parser lang) := by
  induction token with
  | whiteSpace => exact Language.total_whiteSpace
  | identifier => exact (Language.advancing_identifier h).total.map _
  | operator => exact (Language.advancing_operator h).total.map _
  | charLiteral => exact Language.advancing_charLiteral.total.map _
  | stringLiteral => exact Language.advancing_stringLiteral.total.map _
  | decimal => exact Number.advancing_decimal.total.map _
  | hexadecimal => exact Number.advancing_hexadecimal.total.map _
  | octal => exact Number.advancing_octal.total.map _
  | natural => exact Language.advancing_naturalLexeme.total.map _
  | integer => exact Language.advancing_integerLexeme.total.map _
  | float => exact Language.advancing_floatLexeme.total.map _
  | naturalOrFloat => exact Language.advancing_naturalOrFloatLexeme.total.map _
  | reserved name => exact (Language.total_reserved h hc name).map _
  | reservedOperator name => exact (Language.total_reservedOperator h name).map _
  | symbol text => exact (Language.total_symbol text).map _
  | parens token ih => exact Language.total_bracketed (plain h hc token) ih _ _
  | braces token ih => exact Language.total_bracketed (plain h hc token) ih _ _
  | angles token ih => exact Language.total_bracketed (plain h hc token) ih _ _
  | brackets token ih => exact Language.total_bracketed (plain h hc token) ih _ _
  | semiSep token ih => exact (Language.total_sepBy (by decide) (plain h hc token) ih).map _
  | semiSep1 token ih => exact (Language.total_sepBy1 (by decide) (plain h hc token) ih).map _
  | commaSep token ih => exact (Language.total_sepBy (by decide) (plain h hc token) ih).map _
  | commaSep1 token ih => exact (Language.total_sepBy1 (by decide) (plain h hc token) ih).map _

end Token

end ContextRoles.Lexeme
