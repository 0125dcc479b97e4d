import ContextRoles.Proofs.Parsing.Alternatives
import ContextRoles.Proofs.Source.Blocks
import ContextRoles.Proofs.Source.Location

/-! # A definition, wherever it stands

At the top of a source the reading of a context or a role that comes furthest is reported, and below a
binding a context is attempted before a role. Both take the same definitions.
-/

namespace ContextRoles.Source

open Parsing Parser Lexeme

variable {ids : Nat → String}

/-- Reading a word whatever its case, the one step of a token that no combinator makes. -/
inductive Caseless : ∀ {α : Type}, Parser α → Prop where
  | anyCase (name : String) : Caseless (Language.anyCase name)

theorem rewindFrom_of_caseless {α : Type} {p : Parser α} {s t : State} {e : ParseError}
    (h : Built Caseless p) (hr : p s = .failure e t) : s.rewindFrom t = s := by
  have drawn : Ends (fun s t : State => t.drawn = s.drawn) p := by
    refine h.ends threads_sameDrawn fun hE => ?_
    cases hE with
    | anyCase name =>
      intro s
      have hr := anyCase_cases name s
      generalize Language.anyCase name s = r at hr ⊢
      rcases hr with rfl | ⟨e, rfl⟩ <;> exact rfl
  exact State.rewindFrom_eq_self (drawn.failure hr)

/-- Trying two parsers for the one that comes furthest succeeds as attempting the first one before the
second does, with the same value in the same state. Both ways fail when both parsers do. Then the first
way keeps the later of their errors and the second way that of the second parser, which starts where the
first one did, but has other identifiers to draw if that one drew some. Errors are later where their runs
came further. So a definition is one at the top of a source where it is one below a binding. The parsers
may be any that combinators make of primitives, as all tokens and rules are (`Token.built`,
`Rule.built`). -/
theorem choices_agree (ids : Nat → String) :
    (∀ {α : Type} {p q : Parser α}, Built (Special ids) p → Built (Special ids) q → ∀ s : State,
      (∀ a t, furthest [p, q] s = .success a t ↔ alt (attempt p) q s = .success a t) ∧
      (furthest [p, q] s = .stalled ↔ alt (attempt p) q s = .stalled) ∧
      ∀ f f', ((∃ u, furthest [p, q] s = .failure f u) ∧ ∃ u, alt (attempt p) q s = .failure f' u) ↔
        ∃ e t t', p s = .failure e t ∧ q (s.rewindFrom t) = .failure f' t' ∧ f = e.later f') ∧
    (∀ {α : Type} {p : Parser α}, Built Caseless p → ∀ s e t, p s = .failure e t →
      s.rewindFrom t = s) ∧
    (∀ {α : Type} {p q : Parser α}, Built (Supply ids) p → Built (Supply ids) q →
      ∀ (source : List Char) (s : State), s.Within source → ∀ e t e' t', p s = .failure e t →
        q (s.rewindFrom t) = .failure e' t' →
        e.later e' = if t'.offset < t.offset then e else e') ∧
    ∀ s c t, definition ids s = .success c t ↔ alt (attempt (context ids)) role s = .success c t :=
  ⟨fun h h' _ => ⟨fun _ _ => furthest_success_iff, furthest_stalled_iff, fun _ _ =>
      furthest_failure_iff (h.accumulates Special.accumulates) (h'.accumulates Special.accumulates)⟩,
    fun h _ _ _ => rewindFrom_of_caseless h,
    fun h h' _ _ hs _ _ _ _ => later_eq (h.located Supply.located) (h'.located Supply.located) hs,
    fun _ _ _ => furthest_success_iff⟩

/-- A definition that is no context, because of its second line, and no role, because of its first. -/
def broken : String := ":A :B\n\t:r => :C\n\t:p = ?"

/-- Where no context can be read on, after a binding was read. -/
def inProperty : State where
  rest := "= ?".toList
  offset := 20
  size := 23
  position := ⟨3, 12⟩
  consumed := true
  drawn := 1

def inBinding : State where
  rest := "> :C\n\t:p = ?".toList
  offset := 11
  size := 23
  position := ⟨2, 13⟩
  consumed := true
  drawn := 1

def noArrow : ParseError := ⟨.expected "'=>'", ⟨3, 12⟩⟩

def noEqualsSign : ParseError := ⟨.expected "end of '='", ⟨2, 13⟩⟩

theorem choices_agree_broken :
    (Built (Special tally) (context tally) ∧ Built (Special tally) role) ∧
    (furthest [context tally, role] (State.start broken) = .failure noArrow inProperty ∧
      alt (attempt (context tally)) role (State.start broken) = .failure noEqualsSign inBinding ∧
      ∃ e t t', context tally (State.start broken) = .failure e t ∧
        role ((State.start broken).rewindFrom t) = .failure noEqualsSign t' ∧
        noArrow = e.later noEqualsSign) ∧
    ((State.start broken).Within broken.toList ∧
      context tally (State.start broken) = .failure noArrow inProperty ∧
      role ((State.start broken).rewindFrom inProperty) = .failure noEqualsSign inBinding ∧
      noArrow.later noEqualsSign =
        if inBinding.offset < inProperty.offset then noArrow else noEqualsSign) ∧
    caseless.Composed Caseless ∧
    ∃ e t, (Token.brackets .natural).parser caseless (State.start "[x") = .failure e t ∧
      (State.start "[x").rewindFrom t = State.start "[x" := by
  obtain ⟨agree, still, further, -⟩ := choices_agree tally
  have hcontext : Built (Special tally) (context tally) := built_context .freshId
  have hrole : Built (Special tally) role := advancing_role.plain.of_plain
  have hfurthest : furthest [context tally, role] (State.start broken) =
      .failure noArrow inProperty := by decide +kernel
  have hattempt : alt (attempt (context tally)) role (State.start broken) =
      .failure noEqualsSign inBinding := by decide +kernel
  have hfirst : context tally (State.start broken) = .failure noArrow inProperty := by
    decide +kernel
  have hsecond : role ((State.start broken).rewindFrom inProperty) =
      .failure noEqualsSign inBinding := by decide +kernel
  have hstart := State.within_start broken
  have hcaseless : caseless.Composed Caseless := composed_caseless .anyCase
  obtain ⟨e, t, ht⟩ : ∃ e t, (Token.brackets .natural).parser caseless (State.start "[x") =
      .failure e t := ⟨⟨.expected "natural", ⟨1, 2⟩⟩,
    { rest := ['x'], offset := 1, size := 2, position := ⟨1, 2⟩, consumed := true }, by
      decide +kernel⟩
  exact ⟨⟨hcontext, hrole⟩,
    ⟨hfurthest, hattempt,
      ((agree hcontext hrole _).2.2 _ _).mp ⟨⟨_, hfurthest⟩, _, hattempt⟩⟩,
    ⟨hstart, hfirst, hsecond, further (built_context .freshId) advancing_role.plain.of_plain _ _
      hstart _ _ _ _ hfirst hsecond⟩,
    hcaseless, e, t, ht, still (Token.built hcaseless (.brackets .natural)) _ e t ht⟩

end ContextRoles.Source
