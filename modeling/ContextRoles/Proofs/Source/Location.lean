import ContextRoles.Proofs.Parsing.Location
import ContextRoles.Proofs.Source.Accumulation

/-! # Reported positions

Tokens and rules move from cursor to cursor, and the position of an error tells where in the source
the parser stood.
-/

namespace ContextRoles.Source

open Parsing Parser Lexeme

variable {ids : Nat → String}

/-- Drawing an identifier, the one step of a rule that no combinator makes. -/
inductive Supply (ids : Nat → String) : ∀ {α : Type}, Parser α → Prop where
  | freshId : Supply ids (freshId ids)

theorem Supply.located {α : Type} {p : Parser α} (h : Supply ids p) :
    Framed p ∧ FailsInPlace p := by
  cases h with
  | freshId => exact ⟨framed_freshId ids, nofun⟩

/-- A parser leads from a cursor of a source to a later one, and fails where that stands; so do the
tokens of a language that minds case and the rules of the grammar. Positions are ordered as offsets are,
so each is that of one offset only, and of two failures in one source the further one is kept. -/
theorem positions_located (ids : Nat → String) :
    (∀ {α : Type} {p : Parser α}, Built (Supply ids) p → Located p) ∧
    (∀ lang : Language, lang.caseSensitive = true → lang.Composed (Supply ids) → ∀ token : Token,
      Built (Supply ids) (token.parser lang)) ∧
    (∀ rule : Rule, Built (Supply ids) (rule.parser ids)) ∧
    (∀ (source : List Char) (i j : Nat), i ≤ source.length → j ≤ source.length →
      ((positionAt source i).before (positionAt source j) = true ↔ i < j) ∧
      (positionAt source i = positionAt source j ↔ i = j)) ∧
    ∀ (source : List Char) (e e' : ParseError) (t t' : State), t.Within source → t'.Within source →
      e.position = t.position → e'.position = t'.position →
      furthestFailure (Option.some (e', t')) e t =
        if t.offset < t'.offset then (e', t') else (e, t) :=
  ⟨fun h => h.located Supply.located, fun _ _ h => Token.built h, Rule.built .freshId,
    fun _ _ _ hi hj => ⟨positionAt_before_iff hi hj, positionAt_inj hi hj⟩,
    fun _ _ _ _ _ => furthestFailure_eq⟩

def misaligned : String := ":A :B\n\tx"

def behindTab : State where
  rest := ['x']
  offset := 7
  size := 8
  position := ⟨2, 9⟩
  consumed := true
  reference := ⟨2, 1⟩

theorem positions_located_misaligned :
    (language.caseSensitive = true ∧ language.Composed (Supply tally)) ∧
    Located (Token.whiteSpace.parser language) ∧
    (State.start misaligned).Within misaligned.toList ∧
    Rule.sourceFile.parser tally (State.start misaligned) =
      .failure ⟨.expected "end of input", ⟨2, 9⟩⟩ behindTab ∧
    behindTab.Within misaligned.toList ∧ (State.start misaligned).offset ≤ behindTab.offset ∧
    (6 ≤ misaligned.toList.length ∧ 7 ≤ misaligned.toList.length) ∧
    ((positionAt misaligned.toList 6).before (positionAt misaligned.toList 7) = true ↔ 6 < 7) ∧
    furthestFailure (Option.some (⟨.expected "end of input", ⟨2, 9⟩⟩, behindTab))
        ⟨.expected "instance name", {}⟩ (State.start misaligned) =
      (⟨.expected "end of input", ⟨2, 9⟩⟩, behindTab) := by
  obtain ⟨located, tokens, rules, ordered, further⟩ := positions_located tally
  have composed : language.Composed (Supply tally) := .of_regular language_regular rfl
  have spaces : Located (Token.whiteSpace.parser language) :=
    located (tokens language rfl composed .whiteSpace)
  have start := State.within_start misaligned
  have hr : Rule.sourceFile.parser tally (State.start misaligned) =
      .failure ⟨.expected "end of input", ⟨2, 9⟩⟩ behindTab := by decide +kernel
  have ends := (located (rules .sourceFile)).within start
  rw [hr] at ends
  have hlength : 6 ≤ misaligned.toList.length ∧ 7 ≤ misaligned.toList.length := by decide
  exact ⟨⟨rfl, composed⟩, spaces, start, hr, ends.1, ends.2, hlength,
    (ordered _ 6 7 hlength.1 hlength.2).1,
    further _ _ _ _ _ start ends.1 rfl ((located (rules .sourceFile)).inPlace hr)⟩

end ContextRoles.Source
