import ContextRoles.Parsing.Message
import ContextRoles.Proofs.Lexeme.Totality
import ContextRoles.Proofs.Lexeme.Word
import Mathlib.Data.List.Basic

/-! # What a string literal says

A string is written piece by piece: characters that stand for themselves, escapes that stand for a
character, and escapes that stand for nothing. It is read as the characters of its pieces, provided that
no piece goes on in the next one: a number in further digits, or the name `SO` in an `H`. A number beyond
the last code point is no escape.
-/

namespace ContextRoles.Lexeme.Literal

open Parsing Number
open ContextRoles.Parsing.Parser hiding some string

inductive Radix where
  | decimal
  | octal
  | hexadecimal
  deriving DecidableEq, Repr

namespace Radix

def base : Radix → Nat
  | decimal => 10
  | octal => 8
  | hexadecimal => 16

/-- What stands between the backslash and the digits. -/
def marker : Radix → List Char
  | decimal => []
  | octal => ['o']
  | hexadecimal => ['x']

def isDigit : Radix → Char → Bool
  | decimal => isDecimalDigit
  | octal => octalDigitChars.contains
  | hexadecimal => hexDigitChars.contains

/-- The parser of one digit. -/
def digit : Radix → Parser Char
  | decimal => Parser.digit
  | octal => octalDigit
  | hexadecimal => hexDigit

def numeral : Radix → Parser Nat
  | decimal => Number.decimal
  | octal => (char 'o').then_ (ofDigits 8 octalDigit)
  | hexadecimal => (char 'x').then_ (ofDigits 16 hexDigit)

end Radix

/-- A piece of a string. Letters and names come with the character that they stand for. -/
inductive Piece where
  | plain (c : Char)
  | letter (entry : Char × Char)
  | number (radix : Radix) (digits : List Char)
  | control (entry : String × Char)
  | caret (c : Char)
  | empty
  | gap (blanks : List Char)

namespace Piece

/-- How a piece is written. -/
def text : Piece → List Char
  | plain c => [c]
  | letter entry => ['\\', entry.1]
  | number radix digits => '\\' :: (radix.marker ++ digits)
  | control entry => '\\' :: entry.1.toList
  | caret c => ['\\', '^', c]
  | empty => ['\\', '&']
  | gap blanks => '\\' :: (blanks ++ ['\\'])

/-- The character that a piece stands for. -/
def value : Piece → Option Char
  | plain c => some c
  | letter entry => some entry.2
  | number radix digits => some (Char.ofNat (digitsValue radix.base digits))
  | control entry => some entry.2
  | caret c => some (Char.ofNat (c.toNat - 'A'.toNat + 1))
  | empty => none
  | gap _ => none

def Valid : Piece → Prop
  | plain c => '\x1a' < c ∧ c ≠ '"' ∧ c ≠ '\\'
  | letter entry => entry ∈ letterEscapes
  | number radix digits => digits ≠ [] ∧ (∀ d ∈ digits, radix.isDigit d = true) ∧
      (digitsValue radix.base digits).isValidChar
  | control entry => entry ∈ controlNames
  | caret c => 'A' ≤ c ∧ c ≤ 'Z'
  | empty => True
  | gap blanks => blanks ≠ [] ∧ ∀ c ∈ blanks, Text.isBlank c = true

/-- Whether a character behind a piece would be taken for a part of it. -/
def goesOn : Piece → Char → Bool
  | number radix _, c => radix.isDigit c
  | control entry, c => entry.1 == "SO" && c == 'H'
  | _, _ => false

/-- Whether a piece does not go on in the next one. -/
def Apart (p : Piece) : Piece → Prop
  | plain c => p.goesOn c = false
  | _ => True

/-- Whether a piece does not go on in a text. -/
def Stops (p : Piece) (text : List Char) : Prop := ∀ c ∈ text.head?, p.goesOn c = false

instance : DecidablePred Valid
  | plain c => inferInstanceAs (Decidable ('\x1a' < c ∧ c ≠ '"' ∧ c ≠ '\\'))
  | letter entry => inferInstanceAs (Decidable (entry ∈ letterEscapes))
  | number radix digits =>
    have := List.decidableBAll (fun d => radix.isDigit d = true) digits
    inferInstanceAs (Decidable (digits ≠ [] ∧ (∀ d ∈ digits, radix.isDigit d = true) ∧
      (digitsValue radix.base digits).isValidChar))
  | control entry => inferInstanceAs (Decidable (entry ∈ controlNames))
  | caret c => inferInstanceAs (Decidable ('A' ≤ c ∧ c ≤ 'Z'))
  | empty => inferInstanceAs (Decidable True)
  | gap blanks =>
    have := List.decidableBAll (fun c => Text.isBlank c = true) blanks
    inferInstanceAs (Decidable (blanks ≠ [] ∧ ∀ c ∈ blanks, Text.isBlank c = true))

instance : DecidableRel Apart
  | p, plain c => inferInstanceAs (Decidable (p.goesOn c = false))
  | _, letter _ | _, number _ _ | _, control _ | _, caret _ | _, empty | _, gap _ => isTrue trivial

end Piece

/-- What stands between the marks of a string. -/
structure Body where
  pieces : List Piece
  valid : ∀ p ∈ pieces, p.Valid
  apart : pieces.IsChain Piece.Apart

namespace Body

def text (body : Body) : List Char := body.pieces.flatMap Piece.text

/-- The characters of the pieces. -/
def value (body : Body) : String := String.ofList (body.pieces.filterMap Piece.value)

end Body

section Numbers

variable {radix : Radix} {digits rest : List Char}

structure Radix.Digits (radix : Radix) (digits : List Char) : Prop where
  ne_nil : digits ≠ []
  all : ∀ d ∈ digits, radix.isDigit d = true

theorem takes_digit (radix : Radix) : Takes radix.digit id radix.isDigit := by
  cases radix <;> exact (Takes.satisfy _).label _

theorem digitsOf_digit (radix : Radix) : DigitsOf radix.base radix.digit := by
  cases radix
  · exact Number.digitsOf_digit
  · exact digitsOf_octalDigit
  · exact digitsOf_hexDigit

theorem numeral?_eq (h : radix.Digits digits) :
    numeral? radix.base digits = some (digitsValue radix.base digits) := by
  have digit : ∀ d ∈ digits, hexDigitChars.contains d = true ∧ digitValue d < radix.base :=
    fun d hd => digitsOf_digit radix ((takes_digit radix).reads d [] (h.all d hd)
      (State.start (String.singleton d)) (State.sound_start _) (by simp [State.start]) trivial)
  obtain ⟨n, hn⟩ := Option.isSome_iff_exists.mp (isSome_numeral? h.ne_nil digit)
  rw [hn]
  unfold numeral? at hn
  split at hn
  · exact hn.symm
  · cases hn

theorem reads_require {α : Type} {a : α} {found : Option α} (h : found = some a) :
    Reads (require found) [] rest a := by
  rw [h]
  exact .pure a

theorem reads_ofDigits (h : radix.Digits digits)
    (hstop : ∀ c ∈ rest.head?, radix.isDigit c = false) :
    Reads (ofDigits radix.base radix.digit) digits rest (digitsValue radix.base digits) := by
  obtain ⟨d, ds, rfl⟩ := List.exists_cons_of_ne_nil h.ne_nil
  have hdigits := List.forall_mem_cons.mp h.all
  have read : Reads (Parser.some radix.digit) (d :: ds) ([] ++ rest) (d :: ds.map id) :=
    .some_chars hdigits.1 hdigits.2 (takes_digit radix).reads ((takes_digit radix).refuses_text hstop)
  rw [List.map_id] at read
  have both := read.bind (f := fun ds => require (numeral? radix.base ds))
    (reads_require (numeral?_eq h))
  rwa [List.append_nil] at both

/-- The characters that a number may begin with. -/
def numberHeads : Radix → List Char
  | .decimal => ['0', '1', '2', '3', '4', '5', '6', '7', '8', '9']
  | .octal => ['o']
  | .hexadecimal => ['x']

theorem mem_decimalDigits {c : Char} (h : isDecimalDigit c = true) :
    c ∈ numberHeads .decimal := by
  have small : ∀ n < 58, 48 ≤ n → Char.ofNat n ∈ numberHeads .decimal := by decide
  simp only [isDecimalDigit, Bool.and_eq_true, decide_eq_true_eq, Char.le_def,
    UInt32.le_iff_toNat_le] at h
  have hmem := small c.toNat (Nat.lt_succ_of_le h.2) h.1
  rwa [Char.ofNat_toNat] at hmem

theorem numeral_head (h : radix.Digits digits) :
    ∃ c r, radix.marker ++ digits = c :: r ∧ c ∈ numberHeads radix := by
  obtain ⟨d, ds, rfl⟩ := List.exists_cons_of_ne_nil h.ne_nil
  cases radix with
  | decimal => exact ⟨d, ds, rfl, mem_decimalDigits (List.forall_mem_cons.mp h.all).1⟩
  | octal => exact ⟨'o', d :: ds, rfl, List.mem_singleton_self _⟩
  | hexadecimal => exact ⟨'x', d :: ds, rfl, List.mem_singleton_self _⟩

theorem refuses_numeral {text : List Char} (h : ∀ c ∈ text.head?, c ∉ numberHeads radix) :
    Refuses radix.numeral text := by
  cases radix with
  | decimal =>
    have hstop : ∀ c ∈ text.head?, isDecimalDigit c = false := fun c hc =>
      Bool.eq_false_iff.mpr fun hd => h c hc (mem_decimalDigits hd)
    exact ((takes_digit .decimal).refuses_text hstop).bind.bind
  | octal => exact (Refuses.char fun hc => h _ hc (List.mem_singleton_self _)).bind
  | hexadecimal => exact (Refuses.char fun hc => h _ hc (List.mem_singleton_self _)).bind

theorem reads_numeral (h : radix.Digits digits)
    (hstop : ∀ c ∈ rest.head?, radix.isDigit c = false) :
    Reads radix.numeral (radix.marker ++ digits) rest (digitsValue radix.base digits) := by
  have read := reads_ofDigits h hstop
  cases radix with
  | decimal => exact read
  | octal => exact (Reads.char 'o').then_ read
  | hexadecimal => exact (Reads.char 'x').then_ read

theorem refuses_other {other : Radix} (ho : other ≠ radix) (h : radix.Digits digits) :
    Refuses other.numeral (radix.marker ++ digits ++ rest) := by
  have disjoint : ∀ radix other : Radix, other ≠ radix →
      ((numberHeads radix).all fun c => decide (c ∉ numberHeads other)) = true := by
    intro radix other
    cases radix <;> cases other <;> decide
  obtain ⟨c, r, hr, hc⟩ := numeral_head h
  rw [hr]
  exact refuses_numeral fun d hd => by
    cases hd
    exact of_decide_eq_true (List.all_eq_true.mp (disjoint radix other ho) c hc)

theorem reads_numerals (h : radix.Digits digits)
    (hstop : ∀ c ∈ rest.head?, radix.isDigit c = false) :
    Reads (choice [Radix.decimal.numeral, Radix.octal.numeral, Radix.hexadecimal.numeral])
      (radix.marker ++ digits) rest (digitsValue radix.base digits) := by
  have read := reads_numeral h hstop
  have others : ∀ other ≠ radix, Refuses other.numeral (radix.marker ++ digits ++ rest) :=
    fun _ ho => refuses_other ho h
  cases radix with
  | decimal => exact .choice (l := []) nofun read
  | octal => exact .choice (l := [_]) (by simpa using others .decimal nofun) read
  | hexadecimal =>
    exact .choice (l := [_, _]) (by simpa using ⟨others .decimal nofun, others .octal nofun⟩) read

end Numbers

section Escapes

variable {c : Char} {entry : Char × Char} {name : String × Char} {radix : Radix}
  {digits rest text b : List Char}

theorem reads_letterEscape (h : entry ∈ letterEscapes) :
    Reads letterEscape [entry.1] rest entry.2 := by
  have known : ∀ entry ∈ letterEscapes, (letterEscapes.map (·.1)).contains entry.1 = true ∧
      letterEscapes.lookup entry.1 = some entry.2 := by decide
  obtain ⟨hc, hlookup⟩ := known entry h
  exact (Reads.satisfy hc).bind (f := fun c => require (letterEscapes.lookup c)) (w := [])
    (reads_require hlookup)

theorem refuses_letterEscape (h : ∀ c ∈ text.head?, c ∉ letterEscapes.map (·.1)) :
    Refuses letterEscape text :=
  (Refuses.satisfy fun c hc => by simpa using h c hc).bind

theorem le_maxCodePoint {n : Nat} (h : n.isValidChar) : n ≤ maxCodePoint := by
  rcases h with h | ⟨-, h⟩
  · exact Nat.le_trans (Nat.le_of_lt h) (by decide)
  · exact Nat.le_of_lt_succ h

theorem character?_eq {n : Nat} (h : n.isValidChar) : character? n = some (Char.ofNat n) := by
  have hle : (n : Int) ≤ maxCodePoint := Int.ofNat_le.mpr (le_maxCodePoint h)
  rw [character?, if_pos ⟨Int.natCast_nonneg n, hle⟩, Int.toNat_natCast, charOfCodePoint, if_pos h]

theorem reads_numericEscape (h : radix.Digits digits)
    (hchar : (digitsValue radix.base digits).isValidChar)
    (hstop : ∀ c ∈ rest.head?, radix.isDigit c = false) :
    Reads numericEscape (radix.marker ++ digits) rest
      (Char.ofNat (digitsValue radix.base digits)) := by
  have hsmall := Nat.not_lt.mpr (le_maxCodePoint hchar)
  have read : Reads _ (radix.marker ++ digits) ([] ++ rest) _ := reads_numerals h hstop
  have both := read.bind
    (f := fun n => if maxCodePoint < n then fail .invalidEscape else require (character? n))
    (b := Char.ofNat (digitsValue radix.base digits)) (by
      rw [if_neg hsmall]
      exact reads_require (character?_eq hchar))
  rwa [List.append_nil] at both

theorem refuses_numericEscape (h : ∀ radix, ∀ c ∈ text.head?, c ∉ numberHeads radix) :
    Refuses numericEscape text := by
  have refused (radix : Radix) : Refuses radix.numeral text := refuses_numeral (h radix)
  exact Refuses.bind (.choice (by
    simpa using ⟨refused .decimal, refused .octal, refused .hexadecimal⟩))

/-- The code point of a surrogate, which is no character. -/
def IsSurrogate (n : Nat) : Prop := 0xD800 ≤ n ∧ n ≤ 0xDFFF

/-- A text has an escape with the code point of a surrogate. -/
def NamesSurrogate (text : List Char) : Prop :=
  ∃ radix : Radix, ∃ before digits rest, text = before ++ '\\' :: (radix.marker ++ digits ++ rest) ∧
    radix.Digits digits ∧ (∀ c ∈ rest.head?, radix.isDigit c = false) ∧
    IsSurrogate (digitsValue radix.base digits)

theorem not_namesSurrogate (h : '\\' ∉ text) : ¬ NamesSurrogate text := by
  rintro ⟨radix, before, digits, rest, rfl, -⟩
  simp at h

/-- Where a text names no surrogate, an escape in it is read as the character of its number. -/
theorem reads_named {before : List Char}
    (hnone : ¬ NamesSurrogate (before ++ '\\' :: (radix.marker ++ digits ++ rest)))
    (h : radix.Digits digits) (hstop : ∀ c ∈ rest.head?, radix.isDigit c = false)
    (hle : digitsValue radix.base digits ≤ maxCodePoint) :
    ∃ c, Reads numericEscape (radix.marker ++ digits) rest c ∧
      c.toNat = digitsValue radix.base digits := by
  have hscalar : ¬ IsSurrogate (digitsValue radix.base digits) := fun hs =>
    hnone ⟨radix, before, digits, rest, rfl, h, hstop, hs⟩
  have hvalid : (digitsValue radix.base digits).isValidChar := by
    simp only [IsSurrogate, maxCodePoint] at hscalar hle
    simp only [Nat.isValidChar]
    omega
  refine ⟨_, reads_numericEscape h hvalid hstop, ?_⟩
  rw [Char.ofNat, dif_pos hvalid]
  rfl

theorem names_apart : controlNames.Pairwise fun before name =>
    ¬ before.1.toList <+: name.1.toList ∧
      (name.1.toList <+: before.1.toList → name.1 = "SO" ∧ before.1 = "SOH") := by
  decide +kernel

theorem reads_nameEscape (h : name ∈ controlNames) (hstop : name.1 = "SO" → 'H' ∉ rest.head?) :
    Reads nameEscape name.1.toList rest name.2 := by
  obtain ⟨l, k, hsplit⟩ := List.append_of_mem h
  have apart := (List.pairwise_append.mp (hsplit ▸ names_apart)).2.2
  have hne : ∀ name ∈ controlNames, name.1 ≠ "" := by decide
  have before : ∀ e ∈ l, ¬ e.1.toList <+: name.1.toList ++ rest := by
    intro e he hp
    obtain ⟨hnot, honly⟩ := apart e he name (List.mem_cons_self ..)
    rcases List.prefix_or_prefix_of_prefix hp (List.prefix_append _ rest) with hp' | hp'
    · exact hnot hp'
    · obtain ⟨hname, hbefore⟩ := honly hp'
      rw [hname, hbefore] at hp
      have hH : ['H'] <+: rest := by
        rw [← List.prefix_append_right_inj "SO".toList]
        exact hp
      obtain ⟨r, rfl⟩ := hH
      exact hstop hname rfl
  have read : Reads ((attempt (Parser.string name.1)).result name.2) name.1.toList rest name.2 :=
    (Reads.string (hne name h)).attempt.map _
  rw [nameEscape, hsplit, List.map_append, List.map_cons]
  refine Reads.choice (fun p hp => ?_) read
  obtain ⟨e, he, rfl⟩ := List.mem_map.mp hp
  exact (Refuses.attempt (Refuses.string (before e he)).fails).map _

theorem refuses_nameEscape (h : ∀ name ∈ controlNames, ¬ name.1.toList <+: text) :
    Refuses nameEscape text := by
  refine Refuses.choice fun p hp => ?_
  obtain ⟨name, hname, rfl⟩ := List.mem_map.mp hp
  exact (Refuses.attempt (Refuses.string (h name hname)).fails).map _

theorem reads_caretEscape (hA : 'A' ≤ c) (hZ : c ≤ 'Z') :
    Reads caretEscape ['^', c] rest (Char.ofNat (c.toNat - 'A'.toNat + 1)) := by
  have hge : 65 ≤ c.toNat := hA
  have hle : c.toNat ≤ 90 := hZ
  have hnumber : (c.toNat - 'A'.toNat + 1 : Int) = (c.toNat - 'A'.toNat + 1 : Nat) := by
    change (c.toNat - 65 + 1 : Int) = (c.toNat - 65 + 1 : Nat)
    omega
  have hsmall : c.toNat - 'A'.toNat + 1 < 0xD800 := by
    change c.toNat - 65 + 1 < 0xD800
    omega
  have hchar : (c.toNat - 'A'.toNat + 1).isValidChar := .inl hsmall
  have read : Reads (satisfy fun c => 'A' ≤ c && c ≤ 'Z') [c] ([] ++ rest) c :=
    .satisfy (by simp [hA, hZ])
  have found : character? (c.toNat - 'A'.toNat + 1 : Int) =
      some (Char.ofNat (c.toNat - 'A'.toNat + 1)) := by
    rw [hnumber, character?_eq hchar]
  exact (Reads.char '^').then_ (read.bind (f := fun c => require (character? _))
    (reads_require found))

theorem reads_gap (hb : b ≠ []) (hblank : ∀ c ∈ b, Text.isBlank c = true) :
    Reads gap (b ++ ['\\']) rest '\\' := by
  obtain ⟨c, b, rfl⟩ := List.exists_cons_of_ne_nil hb
  rw [List.forall_mem_cons] at hblank
  have takes : Takes space id Text.isBlank := (Takes.satisfy _).label _
  have blanks : Reads (Parser.some space) (c :: b) (['\\'] ++ rest) (c :: b.map id) :=
    .some_chars hblank.1 hblank.2 takes.reads (takes.refuses_text (by simpa using by decide))
  exact (blanks.then_ (.char '\\')).label _

theorem refuses_gap (h : ∀ c ∈ text.head?, Text.isBlank c = false) : Refuses gap text :=
  ((Refuses.satisfy h).label _).bind.bind.label _

end Escapes

section Items

variable {a : Option Char} {c d : Char} {entry : Char × Char} {name : String × Char} {radix : Radix}
  {digits rest text w : List Char}

/-- What follows the backslash of an escape in a string. -/
def escaped : Parser (Option Char) :=
  choice [gap.result none, (char '&').result none, escapeCode.map some]

theorem stringItem_eq : stringItem = label (alt ((plainChar '"').map some)
    ((char '\\').then_ escaped)) "string character" := rfl

theorem refuses_plainChar (mark : Char) (rest : List Char) :
    Refuses (plainChar mark) ('\\' :: rest) := .satisfy (by simp)

theorem reads_escaped (h : Reads escaped w rest a) : Reads stringItem ('\\' :: w) rest a := by
  rw [stringItem_eq]
  exact (Reads.alt_right ((refuses_plainChar '"' _).map _) ((Reads.char '\\').then_ h)).label _

theorem refuses_before_code (hblank : Text.isBlank c = false) (hempty : c ≠ '&') :
    ∀ p ∈ [gap.result none, (char '&').result (none : Option Char)], Refuses p (c :: text) := by
  have noGap : Refuses gap (c :: text) := refuses_gap (by simpa using hblank)
  have noEmpty : Refuses (char '&') (c :: text) := .char (by simpa using hempty)
  rw [List.forall_mem_cons, List.forall_mem_singleton]
  exact ⟨noGap.map _, noEmpty.map _⟩

theorem reads_code {e : Char} (hread : Reads escapeCode (c :: w) rest e)
    (hblank : Text.isBlank c = false) (hempty : c ≠ '&') :
    Reads stringItem ('\\' :: c :: w) rest (some e) :=
  reads_escaped (.choice (l := [_, _]) (refuses_before_code hblank hempty) (hread.map some))

/-- The characters that the code of an escape may begin with are no blanks, and they tell letters,
numbers, names and the caret apart. -/
theorem letter_head (h : entry ∈ letterEscapes) :
    Text.isBlank entry.1 = false ∧ entry.1 ≠ '&' := by
  have known : ∀ entry ∈ letterEscapes, Text.isBlank entry.1 = false ∧ entry.1 ≠ '&' := by decide
  exact known entry h

theorem number_head (h : c ∈ numberHeads radix) :
    Text.isBlank c = false ∧ c ≠ '&' ∧ c ∉ letterEscapes.map (·.1) := by
  have known : ((numberHeads radix).all fun c => decide (Text.isBlank c = false ∧ c ≠ '&' ∧
      c ∉ letterEscapes.map (·.1))) = true := by cases radix <;> decide
  exact of_decide_eq_true (List.all_eq_true.mp known c h)

theorem name_head (h : name ∈ controlNames) : ∃ c r, name.1.toList = c :: r ∧
    Text.isBlank c = false ∧ c ≠ '&' ∧ c ≠ '^' ∧ c ∉ letterEscapes.map (·.1) ∧
      ∀ radix, c ∉ numberHeads radix := by
  have known : (controlNames.all fun name => name.1.toList.head?.any fun c => decide
      (Text.isBlank c = false ∧ c ≠ '&' ∧ c ≠ '^' ∧ c ∉ letterEscapes.map (·.1) ∧
        c ∉ numberHeads .decimal ∧ c ∉ numberHeads .octal ∧ c ∉ numberHeads .hexadecimal)) =
      true := by decide +kernel
  obtain ⟨c, hc, hknown⟩ := Option.any_eq_true _ _ |>.mp (List.all_eq_true.mp known name h)
  obtain ⟨r, hr⟩ := List.head?_eq_some_iff.mp hc
  obtain ⟨hblank, hempty, hcaret, hletter, hd, ho, hx⟩ := of_decide_eq_true hknown
  exact ⟨c, r, hr, hblank, hempty, hcaret, hletter, fun radix => by cases radix <;> assumption⟩

theorem reads_letter (h : entry ∈ letterEscapes) :
    Reads stringItem ['\\', entry.1] rest (some entry.2) := by
  obtain ⟨hblank, hempty⟩ := letter_head h
  exact reads_code ((Reads.choice (l := []) nofun (reads_letterEscape h)).label _) hblank hempty

theorem reads_number (h : radix.Digits digits)
    (hchar : (digitsValue radix.base digits).isValidChar)
    (hstop : ∀ c ∈ rest.head?, radix.isDigit c = false) :
    Reads stringItem ('\\' :: (radix.marker ++ digits)) rest
      (some (Char.ofNat (digitsValue radix.base digits))) := by
  have read := reads_numericEscape h hchar hstop
  obtain ⟨c, r, hr, hc⟩ := numeral_head h
  obtain ⟨hblank, hempty, hletter⟩ := number_head hc
  rw [hr] at read ⊢
  have before : Refuses letterEscape (c :: r ++ rest) :=
    refuses_letterEscape (by simpa using hletter)
  exact reads_code ((Reads.choice (l := [_]) (by simpa using before) read).label _) hblank hempty

theorem reads_control (h : name ∈ controlNames) (hstop : name.1 = "SO" → 'H' ∉ rest.head?) :
    Reads stringItem ('\\' :: name.1.toList) rest (some name.2) := by
  have read := reads_nameEscape h hstop
  obtain ⟨c, r, hr, hblank, hempty, -, hletter, hnumber⟩ := name_head h
  rw [hr] at read ⊢
  have letters : Refuses letterEscape (c :: r ++ rest) :=
    refuses_letterEscape (by simpa using hletter)
  have numbers : Refuses numericEscape (c :: r ++ rest) :=
    refuses_numericEscape (by simpa using hnumber)
  exact reads_code ((Reads.choice (l := [_, _]) (by simpa using ⟨letters, numbers⟩) read).label _)
    hblank hempty

theorem reads_caret (hA : 'A' ≤ c) (hZ : c ≤ 'Z') :
    Reads stringItem ['\\', '^', c] rest (some (Char.ofNat (c.toNat - 'A'.toNat + 1))) := by
  have letters : Refuses letterEscape ('^' :: c :: rest) := refuses_letterEscape fun d hd => by
    cases hd
    decide
  have numbers : Refuses numericEscape ('^' :: c :: rest) :=
    refuses_numericEscape fun radix => by cases radix <;> simp [numberHeads]
  have names : Refuses nameEscape ('^' :: c :: rest) := refuses_nameEscape fun name h hp => by
    obtain ⟨d, r, hr, -, -, hcaret, -⟩ := name_head h
    rw [hr] at hp
    exact hcaret (List.cons_prefix_cons.mp hp).1
  exact reads_code ((Reads.choice (l := [_, _, _]) (by simpa using ⟨letters, numbers, names⟩)
    (reads_caretEscape hA hZ)).label _) (by decide) (by decide)

end Items

section Bodies

variable {p q : Piece} {c : Char} {ps : List Piece} {radix : Radix} {digits rest text : List Char}
  {s : State}

/-- A piece is read as what it stands for where it does not go on. -/
theorem Piece.Valid.reads (h : p.Valid) (hstop : p.Stops rest) :
    Reads stringItem p.text rest p.value := by
  cases p with
  | plain c =>
    obtain ⟨hlow, hquote, hslash⟩ := h
    have read : Reads (plainChar '"') [c] rest c :=
      .satisfy (by simp [hquote, hslash, lastExcluded, hlow])
    exact Reads.label (Reads.alt_left (read.map some)) _
  | letter entry => exact reads_letter h
  | number radix digits =>
    obtain ⟨hne, hall, hchar⟩ := h
    exact reads_number ⟨hne, hall⟩ hchar hstop
  | control entry =>
    exact reads_control h fun hname hH => by simpa [Piece.goesOn, hname] using hstop 'H' hH
  | caret c => exact reads_caret h.1 h.2
  | empty =>
    have before : Refuses Literal.gap ('&' :: rest) := refuses_gap (by simpa using by decide)
    exact reads_escaped (.choice (l := [_]) (List.forall_mem_singleton.mpr (before.map _))
      ((Reads.char '&').map _))
  | gap blanks => exact reads_escaped (.choice (l := []) nofun ((reads_gap h.1 h.2).map _))

theorem Piece.text_ne_nil (p : Piece) : p.text ≠ [] := by
  cases p <;> exact List.cons_ne_nil _ _

theorem stops_of_mark (hc : c = '\\' ∨ c = '"') (p : Piece) : p.Stops (c :: rest) := by
  rintro d ⟨⟩
  cases p with
  | number radix digits => rcases hc with rfl | rfl <;> cases radix <;> rfl
  | control entry => rcases hc with rfl | rfl <;> exact Bool.and_false _
  | _ => rfl

theorem Piece.Apart.stops (h : p.Apart q) : p.Stops (q.text ++ rest) := by
  cases q with
  | plain c =>
    rintro d ⟨⟩
    exact h
  | _ => exact stops_of_mark (.inl rfl) p

theorem many_pieces (hvalid : ∀ p ∈ ps, p.Valid) (hchain : ps.IsChain Piece.Apart)
    (hend : ∀ p : Piece, p.Stops rest) (hs : s.Sound) (hr : s.rest = ps.flatMap Piece.text ++ rest) :
    many stringItem s =
      (many stringItem (s.pass (ps.flatMap Piece.text))).map (ps.map Piece.value ++ ·) := by
  induction ps generalizing s with
  | nil =>
    rw [List.flatMap_nil, State.pass_nil]
    cases many stringItem s <;> rfl
  | cons p ps ih =>
    obtain ⟨hp, hps⟩ := List.forall_mem_cons.mp hvalid
    rw [List.flatMap_cons, List.append_assoc] at hr
    have hstop : p.Stops (ps.flatMap Piece.text ++ rest) := by
      cases ps with
      | nil => exact hend p
      | cons q ps =>
        rw [List.flatMap_cons, List.append_assoc]
        exact (List.isChain_cons_cons.mp hchain).1.stops
    rw [Reads.many_round (p.text_ne_nil) (hp.reads hstop) hs hr,
      ih hps hchain.of_cons (hs.pass hr) (State.rest_pass hr), List.flatMap_cons, State.pass_append]
    cases many stringItem ((s.pass p.text).pass (ps.flatMap Piece.text)) <;> rfl

theorem refuses_mark (rest : List Char) : Refuses stringItem ('"' :: rest) :=
  ((((Refuses.satisfy (by simp) : Refuses (plainChar '"') ('"' :: rest)).map some).alt
    (Refuses.char (by simp)).bind).label _)

theorem Body.reads (body : Body) (rest : List Char) :
    Reads (label string "literal string") ('"' :: (body.text ++ ['"'])) rest body.value := by
  have pieces : Reads (many stringItem) body.text ('"' :: rest) (body.pieces.map Piece.value) := by
    intro s hs hr _
    have hend : RefusesAt stringItem (s.pass body.text).checkpoint :=
      (refuses_mark rest).refusesAt (hs.pass hr).checkpoint (State.rest_pass hr)
    rw [many_pieces body.valid body.apart (stops_of_mark (.inr rfl)) hs hr]
    change (many stringItem (s.pass body.text)).map _ = _
    rw [hend.many, Outcome.map, List.append_nil]
  have closing : Reads (label (char '"') "end of string character") ['"'] rest '"' :=
    (Reads.char '"').label _
  have closed := (((Reads.char '"').then_ pieces).skip closing).map
    fun items => String.ofList (items.filterMap id)
  rw [List.filterMap_map] at closed
  exact Reads.label closed _

end Bodies

section Beyond

variable {radix : Radix} {digits rest : List Char} {s : State}

/-- Digits that write a number beyond the last code point, up to something that is no digit. -/
structure Beyond (radix : Radix) (digits rest : List Char) : Prop where
  all : ∀ d ∈ digits, radix.isDigit d = true
  stop : ∀ c ∈ rest.head?, radix.isDigit c = false
  exceeds : 0x10FFFF < digitsValue radix.base digits

theorem Beyond.isDigits (h : Beyond radix digits rest) : radix.Digits digits where
  ne_nil := by
    rintro rfl
    exact absurd h.exceeds (Nat.not_lt_zero _)
  all := h.all

theorem Beyond.numericEscape (h : Beyond radix digits rest) :
    Rejects .invalidEscape numericEscape (radix.marker ++ digits) rest :=
  .bind_fail (List.append_ne_nil_of_right_ne_nil _ h.isDigits.ne_nil)
    (reads_numerals h.isDigits h.stop) (if_pos h.exceeds)

/-- A number beyond the last code point is taken for neither a gap nor an empty escape nor a letter. -/
theorem Beyond.stringItem (h : Beyond radix digits rest) :
    Rejects .invalidEscape stringItem ('\\' :: (radix.marker ++ digits)) rest := by
  have number := h.numericEscape
  obtain ⟨c, r, hhead, hc⟩ := numeral_head h.isDigits
  obtain ⟨hblank, hempty, hletter⟩ := number_head hc
  rw [hhead] at number ⊢
  have letters : Refuses letterEscape (c :: r ++ rest) :=
    refuses_letterEscape (by simpa using hletter)
  have code : Rejects .invalidEscape escapeCode (c :: r) rest :=
    (Rejects.choice (l := [_]) (by simpa using letters) number).label _
  have behind : Rejects .invalidEscape escaped (c :: r) rest :=
    .choice (l := [_, _]) (refuses_before_code hblank hempty) (code.map some)
  rw [stringItem_eq]
  exact (Rejects.alt_right ((refuses_plainChar '"' _).map _)
    (.then_ (Reads.char '\\') behind)).label _

/-- Behind the pieces of a string a number beyond the last code point makes the string fail. -/
theorem Body.rejects (body : Body) (h : Beyond radix digits rest) :
    Rejects .invalidEscape (label string "literal string")
      ('"' :: (body.text ++ '\\' :: (radix.marker ++ digits))) rest := by
  have items : Rejects .invalidEscape (many stringItem)
      (body.text ++ '\\' :: (radix.marker ++ digits)) rest := by
    intro s hs hr
    rw [List.append_assoc] at hr
    obtain ⟨failed, hset⟩ := h.stringItem.many (s.pass body.text) (hs.pass hr) (State.rest_pass hr)
    rw [State.pass_append]
    refine ⟨?_, hset⟩
    rw [many_pieces body.valid body.apart (stops_of_mark (.inl rfl)) hs hr]
    change (many stringItem (s.pass body.text)).map _ = _
    rw [failed, Outcome.map]
  exact (((Rejects.then_ (Reads.char '"') items).bind_left).map _).label _

end Beyond

end ContextRoles.Lexeme.Literal

namespace ContextRoles.Lexeme.Language

open Parsing Literal
open ContextRoles.Parsing.Parser hiding some string

/-- A string literal is read up to the mark that closes it, as the characters of its pieces. Where the
pieces go on with a number beyond the last code point, it fails behind the digits. -/
theorem stringLiteral_decodes (lang : Language) (body : Body) :
    lang.stringLiteral = lang.lexeme (label string "literal string") ∧
    (∀ rest, Reads (label string "literal string") ('"' :: (body.text ++ ['"'])) rest body.value) ∧
    (∀ radix digits rest, Beyond radix digits rest → Rejects .invalidEscape lang.stringLiteral
      ('"' :: (body.text ++ '\\' :: (radix.marker ++ digits))) rest) ∧
    Cause.message .invalidEscape = "invalid escape sequence" :=
  ⟨rfl, body.reads, fun _ _ _ h => (body.rejects h).bind_left, rfl⟩

def mixed : Body where
  pieces := [.control ("SOH", '\x01'), .control ("SO", '\x0e'), .empty, .plain 'H',
    .number .octal ['1', '0', '1'], .plain '8', .number .decimal ['0', '6', '5'], .gap [' ', '\n'],
    .plain '7', .number .hexadecimal ['4', '1'], .caret 'C', .letter ('n', '\n')]
  valid := by decide
  apart := by decide

theorem stringLiteral_decodes_mixed :
    mixed.text = "\\SOH\\SO\\&H\\o1018\\065\\ \n\\7\\x41\\^C\\n".toList ∧
    (∃ t, label string "literal string" (State.start
        "\"\\SOH\\SO\\&H\\o1018\\065\\ \n\\7\\x41\\^C\\n\"") =
      .success "\x01\x0eHA8A7A\x03\n" t ∧ t.rest = []) ∧
    Beyond .hexadecimal "110000".toList ['"'] ∧
    ∃ e t, ({} : Language).stringLiteral (State.start
        "\"\\SOH\\SO\\&H\\o1018\\065\\ \n\\7\\x41\\^C\\n\\x110000\"") = .failure e t ∧
      e.message = "invalid escape sequence" := by
  obtain ⟨-, read, rejects, hmessage⟩ := stringLiteral_decodes {} mixed
  have hvalue : mixed.value = "\x01\x0eHA8A7A\x03\n" := by decide +kernel
  have hbeyond : Beyond .hexadecimal "110000".toList ['"'] :=
    ⟨List.all_eq_true.mp (by decide), by rintro _ ⟨⟩; rfl, by decide +kernel⟩
  have hread := read [] _ (State.sound_start
    "\"\\SOH\\SO\\&H\\o1018\\065\\ \n\\7\\x41\\^C\\n\"") (by decide +kernel) trivial
  rw [hvalue] at hread
  exact ⟨by decide +kernel, ⟨_, hread, by decide +kernel⟩, hbeyond, _, _,
    (rejects .hexadecimal _ _ hbeyond _ (State.sound_start _) (by decide +kernel)).failed, hmessage⟩

end ContextRoles.Lexeme.Language
