import ContextRoles.Lexeme.WhiteSpace
import ContextRoles.Parsing.Indentation
import ContextRoles.Parsing.Recursion

/-! # Parsers built from combinators

The parsers of a grammar are put together from a few primitives. What holds of the primitives and is
kept by each combinator holds of every parser that is built in this way. Primitives from elsewhere
can be added as a class of their own.
-/

namespace ContextRoles.Parsing.Parser

variable {α β γ ι : Type}

inductive Primitive : ∀ {α : Type}, Parser α → Prop where
  | pure {α : Type} (a : α) : Primitive (Parser.pure a)
  | fail {α : Type} (cause : Cause) : Primitive (Parser.fail cause : Parser α)
  | stalled {α : Type} : Primitive (fun _ => .stalled : Parser α)
  | getPosition : Primitive getPosition
  | getReference : Primitive getReference
  | endOfInput : Primitive endOfInput
  | satisfy (accepts : Char → Bool) : Primitive (satisfy accepts)
  | string (expected : String) : Primitive (string expected)
  | blockComment (lang : Lexeme.Language) : Primitive lang.blockComment
  | indented : Primitive indented
  | sameLine : Primitive sameLine
  | checkIndent : Primitive checkIndent

/-- The parsers that combinators make of the primitives and of the parsers in `E`. A recursive family
is unfolded according to how much text is left. -/
inductive Built (E : ∀ {α : Type}, Parser α → Prop) : ∀ {α : Type}, Parser α → Prop where
  | extra {α : Type} {p : Parser α} : E p → Built E p
  | primitive {α : Type} {p : Parser α} : Primitive p → Built E p
  | bind {α β : Type} {p : Parser α} {f : α → Parser β} :
      Built E p → (∀ a, Built E (f a)) → Built E (p.bind f)
  | alt {α : Type} {p q : Parser α} : Built E p → Built E q → Built E (alt p q)
  | attempt {α : Type} {p : Parser α} : Built E p → Built E (attempt p)
  | furthest {α : Type} {ps : List (Parser α)} : (∀ p ∈ ps, Built E p) → Built E (furthest ps)
  | many {α : Type} {p : Parser α} : Built E p → Built E (many p)
  | lookahead {α : Type} {p : Parser α} : Built E p → Built E (lookahead p)
  | notFollowedBy {α : Type} {p : Parser α} : Built E p → Built E (notFollowedBy p)
  | withPosition {α : Type} {p : Parser α} : Built E p → Built E (withPosition p)
  | indentedBlock {α : Type} {p : Parser α} : Built E (block p) → Built E (indentedBlock p)
  | atRemaining {α : Type} {q : Nat → Parser α} :
      (∀ n, Built E (q n)) → Built E (fun s => q s.remaining s)

/-- The parsers built from the primitives alone. -/
abbrev Plain : Parser α → Prop := Built fun _ => False

theorem map_eq_bind (f : α → β) (p : Parser α) :
    Parser.map f p = p.bind fun a => Parser.pure (f a) := by
  funext s
  simp only [Parser.map, Parser.bind, Parser.pure]
  cases p s <;> rfl

/-- What a parser without alternatives has and an alternation keeps, a choice has. The induction is on
the alternatives after the first: the choice tries them in turn on what it has so far. -/
theorem choice_induction {C : Parser α → Prop} (fail : C (Parser.fail .noAlternatives))
    (alt : ∀ p q, C p → C q → C (Parser.alt p q)) {ps : List (Parser α)} (h : ∀ p ∈ ps, C p) :
    C (Parser.choice ps) := by
  cases ps with
  | nil => exact fail
  | cons p ps =>
    rw [List.forall_mem_cons] at h
    obtain ⟨hp, hps⟩ := h
    change C (ps.foldl Parser.alt p)
    induction ps generalizing p with
    | nil => exact hp
    | cons q ps ih =>
      rw [List.forall_mem_cons] at hps
      exact ih (Parser.alt p q) (alt p q hp hps.1) hps.2

namespace Built

variable {E : ∀ {α : Type}, Parser α → Prop} {p : Parser α} {q : Parser β}

theorem mono {E' : ∀ {α : Type}, Parser α → Prop} (hE : ∀ {α : Type} {p : Parser α}, E p → E' p)
    (h : Built E p) : Built E' p := by
  induction h with
  | extra h => exact .extra (hE h)
  | primitive h => exact .primitive h
  | bind _ _ ih ih' => exact .bind ih ih'
  | alt _ _ ih ih' => exact .alt ih ih'
  | attempt _ ih => exact .attempt ih
  | furthest _ ih => exact .furthest ih
  | many _ ih => exact .many ih
  | lookahead _ ih => exact .lookahead ih
  | notFollowedBy _ ih => exact .notFollowedBy ih
  | withPosition _ ih => exact .withPosition ih
  | indentedBlock _ ih => exact .indentedBlock ih
  | atRemaining _ ih => exact .atRemaining ih

theorem of_plain (h : Plain p) : Built E p := h.mono False.elim

theorem pure (a : α) : Built E (Parser.pure a) := .primitive (.pure a)

theorem fail (cause : Cause) : Built E (Parser.fail cause : Parser α) := .primitive (.fail cause)

theorem satisfy (accepts : Char → Bool) : Built E (Parser.satisfy accepts) :=
  .primitive (.satisfy accepts)

theorem string (expected : String) : Built E (Parser.string expected) :=
  .primitive (.string expected)

theorem map (h : Built E p) (f : α → β) : Built E (Parser.map f p) := by
  rw [map_eq_bind]
  exact .bind h fun a => pure (f a)

theorem result (h : Built E p) (b : β) : Built E (p.result b) := h.map _

theorem then_ (h : Built E p) (h' : Built E q) : Built E (p.then_ q) := .bind h fun _ => h'

theorem skip (h : Built E p) (h' : Built E q) : Built E (p.skip q) :=
  .bind h fun a => h'.result a

theorem between {r : Parser γ} (h : Built E p) (h' : Built E q) (h'' : Built E r) :
    Built E (Parser.between p q r) := (h.then_ h'').skip h'

theorem require (a : Option α) : Built E (Parser.require a) := by
  cases a with
  | some a => exact pure a
  | none => exact .primitive .stalled

theorem unexpected (what : String) : Built E (Parser.unexpected what : Parser α) := fail _

theorem label (h : Built E p) (name : String) : Built E (p.label name) := .alt h (fail _)

theorem option (h : Built E p) (default : α) : Built E (Parser.option default p) := .alt h (pure _)

theorem choice {ps : List (Parser α)} (h : ∀ p ∈ ps, Built E p) : Built E (Parser.choice ps) :=
  choice_induction (fail _) (fun _ _ => .alt) h

theorem some (h : Built E p) : Built E (Parser.some p) := .bind h fun _ => (Built.many h).map _

theorem skipMany (h : Built E p) : Built E (Parser.skipMany p) := (Built.many h).result ()

theorem sepBy1 (h : Built E p) (h' : Built E q) : Built E (Parser.sepBy1 p q) :=
  .bind h fun _ => (Built.many (h'.then_ h)).map _

theorem sepBy (h : Built E p) (h' : Built E q) : Built E (Parser.sepBy p q) :=
  (h.sepBy1 h').option []

theorem sequence {ps : List (Parser α)} (h : ∀ p ∈ ps, Built E p) :
    Built E (Parser.sequence ps) := by
  induction ps with
  | nil => exact pure _
  | cons p ps ih =>
    rw [List.forall_mem_cons] at h
    exact .bind h.1 fun _ => (ih h.2).map _

theorem char (c : Char) : Built E (Parser.char c) := label (satisfy _) _

theorem oneOf (chars : List Char) : Built E (Parser.oneOf chars) := satisfy _

theorem letter : Built E Parser.letter := label (satisfy _) _

theorem alphanumeric : Built E Parser.alphanumeric := label (satisfy _) _

theorem sameOrIndented : Built E Parser.sameOrIndented := .alt (.primitive .sameLine) (.primitive .indented)

theorem block (h : Built E p) : Built E (Parser.block p) :=
  .withPosition (.many ((Built.primitive .checkIndent).then_ h))

/-- A recursion is built when its body builds on what it is given. -/
theorem recurse {body : (ι → Parser α) → ι → Parser α} {limit : Nat} (i : ι)
    (h : ∀ self, (∀ j, Built E (self j)) → ∀ j, Built E (body self j)) :
    Built E (Parser.recurse limit body i) := by
  have entries : ∀ room budget i, Built E (recurseFrom limit body room budget i) := by
    intro room
    induction room using Nat.strongRecOn with
    | _ room ih =>
      intro budget
      induction budget with
      | zero =>
        intro i
        rw [recurseFrom_eq]
        refine h _ (fun j => .atRemaining (q := fun n t => if n < room then
          recurseFrom limit body n limit j t else .stalled) fun n => ?_) i
        by_cases hn : n < room
        · simpa only [hn, if_true] using ih n hn limit j
        · simpa only [hn, if_false] using .primitive .stalled
      | succ budget ih' =>
        intro i
        rw [recurseFrom_eq]
        refine h _ (fun j => .atRemaining (q := fun n t => if n < room then
          recurseFrom limit body n limit j t else recurseFrom limit body room budget j t)
          fun n => ?_) i
        by_cases hn : n < room
        · simpa only [hn, if_true] using ih n hn limit j
        · simpa only [hn, if_false] using ih' j
  exact .atRemaining (q := fun n => recurseFrom limit body n limit i) fun n => entries n limit i

end Built

end ContextRoles.Parsing.Parser
