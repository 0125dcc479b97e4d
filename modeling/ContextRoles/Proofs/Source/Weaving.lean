import ContextRoles.Proofs.Parsing.Location
import ContextRoles.Proofs.Parsing.Pairing
import ContextRoles.Proofs.Parsing.Steadiness
import ContextRoles.Proofs.Source.Accumulation
import ContextRoles.Proofs.Source.DocumentReading

/-! # Two readings of related texts

Two texts are read side by side. In front of a lexeme and inside of it the states of both runs
correspond, and behind it they do so again, or the first text has come to its end. When the characters
of lexemes, white space and strings respect such a correspondence, and the columns and lines that
indentation compares agree in it, then every rule of the grammar does the same on both sides.
-/

namespace ContextRoles.Source

open Parsing Parser Lexeme

section Endings

/-! Nothing is read at the end of a text. -/

theorem refuses_resourceName_nil : Refuses resourceName [] :=
  ((refuses_qualified (fails_joined_cons (Refuses.string (by simp)).fails)).alt
    (Refuses.attempt (fails_joined_cons (fails_namespaceMark (by simp) (by simp)))).bind).label _

theorem refuses_typeDeclaration_nil : Refuses typeDeclaration [] :=
  refuses_instanceName_nil.bind.withPosition

theorem refuses_role_nil : Refuses role [] := refuses_typeDeclaration_nil.bind.withPosition

theorem refuses_natural_nil : Refuses Number.natural [] :=
  .alt (Refuses.char (by simp)).bind ((Refuses.satisfy (by simp)).label _).bind.bind

theorem refuses_identifier_nil : Refuses language.identifier [] := by
  have letter : Refuses language.identifierStart [] :=
    ((Refuses.satisfy (by simp)).label "letter").map String.singleton
  exact (Refuses.attempt ((letter.bind.label "identifier").bind).fails).bind

theorem refuses_integer_nil : Refuses language.integer [] := by
  have sign : Reads Number.sign [] [] (1 : Int) :=
    Reads.choice (l := [(char '-').result (-1), (char '+').result 1]) (k := [])
      (by simpa using ⟨(Refuses.char (by simp)).map _, (Refuses.char (by simp)).map _⟩)
      (ReadsIf.pure (1 : Int))
  exact ((Refuses.bind_nil (gap_nil.lexeme sign) (refuses_natural_nil.map _)).bind).label _

theorem refuses_propertyValue_nil : Refuses propertyValue [] := by
  have string : Refuses language.stringLiteral [] :=
    (((Refuses.char (by simp)).bind.bind.map _).label _).bind
  have simple : Refuses simpleValue [] := (Refuses.choice (by
    simpa using ⟨string.map _, refuses_integer_nil.map _,
      (refuses_reserved (by simp)).map _, (refuses_reserved (by simp)).map _⟩)).label _
  exact ((simple.alt (((refuses_identifier_nil.bind).fails |> Refuses.attempt).label _ |>.map _)).label
    _).map _

theorem refuses_contextPropertyName_nil : Refuses contextPropertyName [] :=
  refuses_propertyName_nil.alt refuses_identifier_nil

theorem refuses_publicAssignment_nil : Refuses publicAssignment [] :=
  (refuses_reserved (by simp)).bind.withPosition

theorem refuses_privateAssignment_nil : Refuses privateAssignment [] :=
  (refuses_reserved (by simp)).bind.withPosition

variable (ids : Nat → String)

theorem refuses_document_nil : Refuses (.alt ((text ids).skip .endOfInput)
    ((definition ids).skip endOfDefinition)) [] :=
  (refuses_reserved (by simp)).bind.bind.withPosition.bind.alt refuses_definition_nil.bind

theorem refuses_sourceFile_nil : Refuses (sourceFile ids) [] :=
  Refuses.bind_nil gap_nil.reads (refuses_document_nil ids)

end Endings

section Laws

/-- A character that neither separates lexemes nor begins a comment, a string or a number with a
sign. -/
def isBare (c : Char) : Bool := !Text.isBlank c && !(['"', '\x7b', '-'].contains c)

theorem solid_of_all {w : List Char} (h : (w.all fun c => !Text.isBlank c) = true) :
    ∀ c ∈ w, Text.isBlank c = false := fun c hc => by simpa using List.all_eq_true.mp h c hc

theorem isBare_of {accepts : Char → Bool}
    (hb : ((Text.blankRanges.flatMap fun (first, last) => List.range' first (last + 1 - first)).all
      fun n => !accepts (Char.ofNat n)) = true)
    (hm : (['"', '\x7b', '-'].all fun c => !accepts c) = true) (c : Char) (h : accepts c = true) :
    isBare c = true := by
  have blank : Text.isBlank c = false := by
    cases hc : Text.isBlank c with
    | false => rfl
    | true => simp [eq_false_of_isBlank hc hb] at h
  simp only [isBare, blank, Bool.not_false, Bool.true_and, Bool.not_eq_true', List.contains_eq_mem,
    decide_eq_false_iff_not]
  intro hmem
  have := List.all_eq_true.mp hm c hmem
  simp [h] at this

def isLexical (c : Char) : Bool :=
  Text.isAlphanumeric c || Text.isLowercase c || Text.isUppercase c || isDecimalDigit c

theorem isBare_of_isLexical : ∀ c, isLexical c = true → isBare c = true :=
  isBare_of (by decide +kernel) (by decide +kernel)

theorem isBare_of_isAlphanumeric (c : Char) (h : Text.isAlphanumeric c = true) : isBare c = true :=
  isBare_of_isLexical c (by simp [isLexical, h])

theorem isBare_of_isLetter (c : Char) (h : Text.isLetter c = true) : isBare c = true :=
  isBare_of_isAlphanumeric c (by simp [Text.isAlphanumeric, h])

theorem isBare_of_isLowercase (c : Char) (h : Text.isLowercase c = true) : isBare c = true :=
  isBare_of_isLexical c (by simp [isLexical, h])

theorem isBare_of_isUppercase (c : Char) (h : Text.isUppercase c = true) : isBare c = true :=
  isBare_of_isLexical c (by simp [isLexical, h])

theorem isBare_of_isDecimalDigit (c : Char) (h : isDecimalDigit c = true) : isBare c = true :=
  isBare_of_isLexical c (by simp [isLexical, h])

abbrev Either (R S : State → State → Prop) (s t : State) : Prop := R s t ∨ S s t

/-- What a correspondence of states has to respect: `L` in front of a lexeme, `T` inside of it, `W`
behind its characters, where something was read or as much is left as before, and `B` where the first
text has come to its end and the second one perhaps goes on with `tail`, on a line of its own. -/
structure Weaving (tail : List Char) (E : ParseError → ParseError → Prop)
    (L T W B : State → State → Prop) : Prop where
  ahead : State.Aligns E L
  inside : State.Aligns E T
  behind : State.Aligns E B
  enters : ∀ ⦃s t⦄, L s t → T s t
  satisfy : ∀ ⦃accepts⦄, (∀ c, accepts c = true → isBare c = true) →
    Alike E T T (Parser.satisfy accepts)
  peek : ∀ ⦃accepts⦄, (∀ c, accepts c = true → Text.isBlank c = false) →
    Alike E T (fun s t => t.drawn = s.drawn) (Parser.satisfy accepts)
  string : ∀ ⦃expected⦄, expected ≠ "" → expected.toList.all isBare = true →
    Alike E T T (Parser.string expected)
  minus : Alike E L T (char '-')
  quoted : Alike E L T Literal.string
  spend : ∀ ⦃s t u v⦄, L s t → T u v → (u.rest = s.rest ∨ u.consumed = true) → W u v
  whiteSpace : Alike E W (Either L B) language.whiteSpace
  column : ∀ ⦃s t⦄, L s t → t.position.column = s.position.column
  referenceColumn : ∀ ⦃s t⦄, L s t → t.reference.column = s.reference.column
  line : ∀ ⦃s t⦄, L s t →
    (t.position.line = t.reference.line ↔ s.position.line = s.reference.line)
  atEnd : ∀ ⦃s t⦄, L s t → t.atEnd = s.atEnd
  enter : ∀ ⦃s t⦄, L s t → L (s.withReference s.position) (t.withReference t.position)
  opened : ∀ ⦃s t⦄, L s t → L (s.withReference ⟨s.position.line, s.reference.column⟩)
    (t.withReference ⟨t.position.line, t.reference.column⟩)
  restore : ∀ ⦃s t u v⦄, L s t → L u v →
    L (u.withReference s.reference) (v.withReference t.reference)
  restoreBehind : ∀ ⦃s t u v⦄, L s t → B u v →
    B (u.withReference s.reference) (v.withReference t.reference)
  margin : ∀ ⦃s t u v⦄, B u v → L s t → 1 ≤ t.reference.column
  lenient : ∀ ⦃s t⦄ (e e' : ParseError), B s t → E e e'
  ended : ∀ ⦃s t⦄, B s t → s.rest = []
  goesOn : ∀ ⦃s t⦄, B s t → t.rest = [] ∨ t.rest = tail ∧ t.reference.line < t.position.line ∧
    t.position.column = 1 ∧ 1 ≤ t.reference.column
  move : ∀ ⦃s t⦄ (r : Position), B s t → B (s.withReference r) t
  moveBoth : ∀ ⦃s t⦄ (r r' : Position), B s t → t.rest = [] →
    B (s.withReference r) (t.withReference r')

/-- Correspondences around a parser that moves the reference to the cursor: `S` in front of it and `S'`
behind it. They may know less of the references than those inside. -/
structure Lodges (E : ParseError → ParseError → Prop) (L B S S' : State → State → Prop) : Prop where
  ahead : State.Aligns E S
  after : State.Aligns E S'
  enter : ∀ ⦃s t⦄, S s t → L (s.withReference s.position) (t.withReference t.position)
  leave : ∀ ⦃s t u v⦄, S s t → Either L B u v →
    S' (u.withReference s.reference) (v.withReference t.reference)

theorem Lodges.withPosition {E : ParseError → ParseError → Prop} {L B S S' : State → State → Prop}
    {β : Type} {p : Parser β} (h : Lodges E L B S S') (hp : Alike E L (Either L B) p) :
    Alike E S S' (withPosition p) :=
  Paired.withPosition hp (fun _ _ hst => h.enter hst) fun _ _ _ _ _ _ hst ha =>
    ⟨ha.1, h.leave hst ha.2⟩

/-- A correspondence in which the references do not count. -/
def Loose (R : State → State → Prop) (s t : State) : Prop :=
  ∃ r r', R (s.withReference r) (t.withReference r')

theorem aligns_loose {E : ParseError → ParseError → Prop} {R : State → State → Prop}
    (h : State.Aligns E R) : State.Aligns E (Loose R) where
  sound _ _ := fun ⟨_, _, hst⟩ => (h.sound hst :)
  consumed _ _ := fun ⟨_, _, hst⟩ => (h.consumed hst :)
  drawn _ _ := fun ⟨_, _, hst⟩ => (h.drawn hst :)
  withConsumed _ _ b := fun ⟨r, r', hst⟩ => ⟨r, r', h.withConsumed b hst⟩
  rewindFrom _ _ u v := fun ⟨r, r', hst⟩ hd => ⟨r, r', h.rewindFrom u v hst hd⟩
  error _ _ cause := fun ⟨_, _, hst⟩ => (h.error cause hst :)

section Checks

variable {s : State}

theorem indented_cases (s : State) : (∃ r, indented s = .success () (s.withReference r)) ∨
    ∃ e t, indented s = .failure e t ∧ t.consumed = s.consumed ∧ t.drawn = s.drawn := by
  unfold indented
  split
  · exact .inr ⟨_, s, rfl, rfl, rfl⟩
  · exact .inl ⟨_, rfl⟩

theorem checkIndent_cases (s : State) : (∃ r, checkIndent s = .success () (s.withReference r)) ∨
    ∃ e t, checkIndent s = .failure e t ∧ t.consumed = s.consumed ∧ t.drawn = s.drawn := by
  unfold checkIndent
  split
  · exact .inl ⟨s.reference, rfl⟩
  · exact .inr ⟨_, s, rfl, rfl, rfl⟩

theorem refusesAt_indented (h : s.position.column ≤ s.reference.column) : RefusesAt indented s :=
  ⟨_, s, if_pos h, rfl, rfl⟩

theorem refusesAt_checkIndent (h : s.position.column ≠ s.reference.column) :
    RefusesAt checkIndent s := ⟨_, s, if_neg h, rfl, rfl⟩

theorem refusesAt_sameOrIndented (hl : s.position.line ≠ s.reference.line)
    (hc : s.position.column ≤ s.reference.column) : RefusesAt sameOrIndented s := by
  rcases Refuses.sameOrIndented_cases s with ⟨r, hr⟩ | hr
  · simp [Parser.sameOrIndented, Parser.alt, Parser.sameLine, Parser.indented, State.checkpoint,
      State.withConsumed, State.rewindFrom, hl, hc, Outcome.merge, Outcome.mapState] at hr
  · exact hr

variable {β : Type} {p : Parser β}

/-- What becomes of the rounds of a block that opened in column `k`. -/
def checkEnd (k : Nat) : Outcome (List β) → Outcome (List β)
  | .success values t =>
    if !t.atEnd && t.reference.column < t.position.column && t.position.column != k then
      .failure ⟨.indentationMismatch, t.position⟩ t
    else .success values t
  | r => r

theorem indentedBlock_eq (hopen : s.reference.column < s.position.column) :
    Parser.indentedBlock p s = checkEnd s.position.column ((rounds p
      (s.withReference s.position)).mapState
        (·.withReference ⟨s.position.line, s.reference.column⟩)) := by
  simp only [Parser.indentedBlock, indented_eq hopen]
  change checkEnd s.position.column (block p _) = _
  rfl

theorem indentedBlock_nil (hs : s.Sound) (hr : s.rest = []) (hnil : Refuses p []) :
    ∃ r, Parser.indentedBlock p s = .success [] (s.withReference r) := by
  rcases Nat.lt_or_ge s.reference.column s.position.column with hopen | hclosed
  · have hend : s.atEnd = true := by rw [hs.atEnd, hr]; rfl
    have none : Reads (rounds p) [] [] [] := .many_nil (hnil.check_then checkIndent_cases)
    have hread := none (s.withReference s.position) hs hr trivial
    rw [State.pass_nil] at hread
    refine ⟨⟨s.position.line, s.reference.column⟩, ?_⟩
    rw [indentedBlock_eq hopen, hread]
    exact if_neg (by simp [State.atEnd, State.withReference] at hend ⊢)
  · exact ⟨s.reference, by simp only [Parser.indentedBlock, Parser.indented, if_pos hclosed]; rfl⟩

end Checks

/-- What is not read behind the first text although the grammar asks for it there, without a look at
the layout: digits, a closing bracket, and a property behind its keyword. -/
structure Resists (tail : List Char) : Prop where
  natural : Refuses Number.natural tail
  closing : Refuses (language.symbol ")") tail
  property : Fails (assignment contextPropertyName) tail

theorem resists_nil : Resists [] where
  natural := refuses_natural_nil
  closing := (Refuses.string (by simp)).bind
  property := refuses_contextPropertyName_nil.bind.fails

theorem Alike.flagged {E : ParseError → ParseError → Prop} {S R : State → State → Prop} {α : Type}
    {p : Parser α} (hS : State.Tracks S) (hh : Honest p) (hc : Consuming p) (h : Alike E S R p) :
    Alike E S (fun s t => R s t ∧ s.consumed = true) p := by
  intro s t hst
  rcases (h hst).kinds with ⟨a, b, u, v, hu, hv, hb, huv⟩ | ⟨e, e', u, v, hu, hv, hm⟩ | ⟨hu, hv⟩
  · rw [hu, hv]
    refine .success ⟨hb, huv, ?_⟩
    by_contra hflag
    have hlt := hc (hS.sound hst).1 hu
    rw [hh.still hu (by simpa using hflag)] at hlt
    exact Nat.lt_irrefl _ hlt
  · rw [hu, hv]
    exact .failure hm.1 hm.2.1 hm.2.2
  · rw [hu, hv]
    exact .stalled

section Headers

variable {α β γ : Type} {p : Parser α} {f : α → Parser β} {ids : Nat → String}

theorem level_header {g : α → Parser β} (hp : Plain p) (hc : Consuming p)
    (hf : ∀ a, Accumulates (f a)) (hg : ∀ a, Accumulates (g a)) :
    Level (Parser.withPosition (p.bind f)) (Parser.withPosition (p.bind g)) := by
  intro s e u e' w hs hfirst hsecond
  obtain ⟨u, hu, rfl⟩ := FailsInPlace.of_mapState hfirst
  obtain ⟨w, hw, rfl⟩ := FailsInPlace.of_mapState hsecond
  have again := hp.steady (s.withReference s.position) u.drawn
  change Parser.bind p g ((s.withReference s.position).redrawn u.drawn) = _ at hw
  simp only [Parser.bind] at hu hw
  cases hr : p (s.withReference s.position) with
  | success a v =>
    have hset : v.consumed = true := by
      by_contra hflag
      have hlt := hc (s := s.withReference s.position) hs hr
      rw [hp.honest.still hr (by simpa using hflag)] at hlt
      exact Nat.lt_irrefl _ hlt
    simp only [hr, again, Outcome.redrawn_success] at hu hw
    exact ((hg a).keeps_failure hw hset).trans ((hf a).keeps_failure hu hset).symm
  | failure e'' v =>
    simp only [hr, again, Outcome.redrawn_failure] at hu hw
    cases hu
    cases hw
    rfl
  | stalled => simp [hr] at hu

theorem level_definition (ids : Nat → String) : Level (context ids) role := by
  intro s e u f w hs hu hw
  have body (declaration : TypeDeclaration) :
      Accumulates (contextBody ids (context ids) declaration) :=
    (built_contextBody (E := Special ids) .freshId declaration
      (built_context .freshId)).accumulates Special.accumulates
  have properties (declaration : TypeDeclaration) : Accumulates
      ((Parser.indentedBlock rolePropertyAssignment).bind fun properties =>
        Parser.pure (buildRole declaration properties)) :=
    (Built.bind advancing_rolePropertyAssignment.plain_indentedBlock fun _ =>
      .pure _).accumulates (E := fun _ => False) False.elim
  rw [context_eq ids hs] at hu
  exact level_header advancing_typeDeclaration.plain advancing_typeDeclaration.consuming body
    properties hs hu hw

end Headers

namespace Weaving

variable {tail : List Char} {E : ParseError → ParseError → Prop} {L T W B : State → State → Prop}
  {α β : Type}

/-- A correspondence may be restricted to states with little text left. -/
theorem short (h : Weaving tail E L T W B) (n : Nat) :
    Weaving tail E (fun s t => L s t ∧ Short n s t) (fun s t => T s t ∧ Short n s t)
      (fun s t => W s t ∧ Short n s t) fun s t => B s t ∧ Short n s t := by
  have kept : ∀ s t u v, Short n s t → s.Reaches u → t.Reaches v → Short n u v :=
    fun _ _ _ _ hst hu hv => hst.reaches hu hv
  have conserve {α : Type} {S R : State → State → Prop} {p : Parser α} (hp : Framed p)
      (ha : Alike E S R p) := ha.conserve hp kept
  have aligned {S : State → State → Prop} (ha : State.Aligns E S) :
      State.Aligns E fun s t => S s t ∧ Short n s t :=
    ha.and (fun _ _ _ => id) fun _ _ _ _ => id
  refine
    { ahead := aligned h.ahead
      inside := aligned h.inside
      behind := aligned h.behind
      enters := fun _ _ hst => ⟨h.enters hst.1, hst.2⟩
      satisfy := fun _ ha => conserve (.satisfy _) (h.satisfy ha)
      peek := fun _ ha => ((h.peek ha).start fun _ _ hst => hst.1)
      string := fun _ hn ha => conserve (.string _) (h.string hn ha)
      minus := conserve (Advancing.char _).framed h.minus
      quoted := conserve Literal.advancing_string.framed h.quoted
      spend := fun _ _ _ _ hst huv hu => ⟨h.spend hst.1 huv.1 hu, huv.2⟩
      whiteSpace := (conserve Language.plain_whiteSpace.framed_plain h.whiteSpace).mono
        (fun _ _ => id) fun _ _ _ _ ha => ⟨ha.1, ha.2.1.imp (⟨·, ha.2.2⟩) (⟨·, ha.2.2⟩)⟩
      column := fun _ _ hst => h.column hst.1
      referenceColumn := fun _ _ hst => h.referenceColumn hst.1
      line := fun _ _ hst => h.line hst.1
      atEnd := fun _ _ hst => h.atEnd hst.1
      enter := fun _ _ hst => ⟨h.enter hst.1, hst.2⟩
      opened := fun _ _ hst => ⟨h.opened hst.1, hst.2⟩
      restore := fun _ _ _ _ hst huv => ⟨h.restore hst.1 huv.1, huv.2⟩
      restoreBehind := fun _ _ _ _ hst huv => ⟨h.restoreBehind hst.1 huv.1, huv.2⟩
      margin := fun _ _ _ _ huv hst => h.margin huv.1 hst.1
      lenient := fun _ _ e e' hst => h.lenient e e' hst.1
      ended := fun _ _ hst => h.ended hst.1
      goesOn := fun _ _ hst => h.goesOn hst.1
      move := fun _ _ r hst => ⟨h.move r hst.1, hst.2⟩
      moveBoth := fun _ _ r r' hst hr => ⟨h.moveBoth r r' hst.1 hr, hst.2⟩ }

section Tokens

variable (h : Weaving tail E L T W B)
include h

theorem kind {accepts : Char → Bool} (ha : ∀ c, accepts c = true → isBare c = true)
    (name : String) : Alike E T T (label (Parser.satisfy accepts) name) :=
  (h.satisfy ha).label h.inside h.inside name

theorem char {c : Char} (hc : isBare c = true) : Alike E T T (char c) :=
  h.kind (fun d hd => by rwa [beq_iff_eq.mp hd]) _

theorem oneOf {chars : List Char} (hc : chars.all isBare = true) :
    Alike E T T (oneOf chars) :=
  h.satisfy fun c hm => List.all_eq_true.mp hc c (by simpa using hm)

omit h in
theorem joined {parts : List (Parser String)} (hp : ∀ p ∈ parts, Alike E T T p) :
    Alike E T T (joined parts) := (Alike.sequence hp).map _

theorem many {p : Parser α} (ha : Advancing p) (hp : Alike E T T p) : Alike E T T (many p) :=
  hp.many h.inside ha.framed ha.consuming

theorem identifierLetter : Alike E T T language.identifierLetter :=
  ((h.kind isBare_of_isAlphanumeric _).alt h.inside h.inside (h.oneOf (by decide))).map _

theorem nameRest : Alike E T T nameRest :=
  (h.many language_regular.identifierLetter h.identifierLetter).map _

theorem namespaceMark : Alike E T T namespaceMark := by
  have small : Alike E T T Parser.lower := h.kind isBare_of_isLowercase _
  have word : Alike E T T ((Parser.many .lower).map String.ofList) :=
    (h.many ((Advancing.satisfy _).label _) small).map _
  exact (joined (by simpa using ⟨word, (h.char (by decide)).map _⟩)).alt h.inside h.inside
    (h.string (by decide) (by decide))

theorem domainName : Alike E T T domainName :=
  joined (by simpa using ⟨h.string (by decide) (by decide),
    (h.kind isBare_of_isUppercase _).map _, h.nameRest, (h.char (by decide)).map _⟩)

theorem local_ {accepts : Char → Bool} (ha : ∀ c, accepts c = true → isBare c = true)
    (name : String) :
    Alike E T T (Source.joined [letters (label (Parser.satisfy accepts) name), Source.nameRest]) :=
  joined (by simpa using ⟨(h.kind ha name).map _, h.nameRest⟩)

theorem lexeme {p : Parser α} (hh : Plain p) (hp : Alike E L T p) :
    Alike E L (Either L B) (language.lexeme p) := by
  have closed : Alike E L W p := by
    intro s t hst
    rcases (hp hst).kinds with ⟨a, b, u, v, hu, hv, hb, huv⟩ | ⟨e, e', u, v, hu, hv, hm⟩ | ⟨hu, hv⟩
    · have hspent : u.rest = s.rest ∨ u.consumed = true := by
        cases hflag : u.consumed with
        | true => exact .inr rfl
        | false => exact .inl (hh.honest.still hu hflag)
      rw [hu, hv]
      exact .success ⟨hb, h.spend hst huv hspent⟩
    · rw [hu, hv]
      exact .failure hm.1 hm.2.1 hm.2.2
    · rw [hu, hv]
      exact .stalled
  exact closed.skip h.whiteSpace

theorem enter_ {p : Parser α} (hp : Alike E T T p) : Alike E L T p :=
  hp.start h.enters

theorem qualified {name : Parser String} (hh : Plain name) (hn : Alike E T T name) :
    Alike E L (Either L B) (qualified name) :=
  h.lexeme (plain_joined (by simpa using ⟨advancing_domainName.plain, hh⟩)).attempt
    ((h.enter_ (joined (by simpa using ⟨h.domainName, hn⟩))).attempt h.ahead)

theorem prefixed {name : Parser String} (hh : Plain name) (hn : Alike E T T name) :
    Alike E L (Either L B) (prefixed name) :=
  h.lexeme (plain_joined (by simpa using ⟨advancing_namespaceMark.plain, hh⟩)).attempt
    ((h.enter_ (joined (by simpa using ⟨h.namespaceMark, hn⟩))).attempt h.ahead)

theorem after : State.Aligns E (Either L B) := h.ahead.or h.behind

theorem propertyName : Alike E L (Either L B) propertyName :=
  have name := h.local_ isBare_of_isLowercase "lowercase letter"
  have plain := advancing_localPropertyName.plain
  (((h.qualified plain name).label h.ahead h.after _).alt h.ahead h.after
    ((h.prefixed plain name).label h.ahead h.after _)).label h.ahead h.after _

theorem resourceName : Alike E L (Either L B) resourceName :=
  have name := h.local_ isBare_of_isUppercase "uppercase letter"
  have plain := advancing_localResourceName.plain
  ((h.qualified plain name).alt h.ahead h.after (h.prefixed plain name)).label h.ahead h.after _

theorem instanceName : Alike E L (Either L B) instanceName :=
  have name := h.local_ isBare_of_isLetter "letter"
  have plain := advancing_localInstanceName.plain
  ((h.qualified plain name).alt h.ahead h.after (h.prefixed plain name)).label h.ahead h.after _

/-- A literal that is not followed by what would make it longer. -/
theorem spelled {name ending : String} {more : Parser String} (hn : name ≠ "")
    (hb : name.toList.all isBare = true) (hh : Plain more)
    (hm : Alike E T (fun s t => t.drawn = s.drawn) more) :
    Alike E L (Either L B) (language.lexeme (attempt ((Parser.string name).skip
      (label (notFollowedBy more) ending)))) :=
  h.lexeme ((Built.string _).skip (hh.notFollowedBy.label _)).attempt
    ((h.enter_ ((h.string hn hb).skip ((hm.notFollowedBy h.inside fun _ _ => id).label h.inside
      h.inside _))).attempt h.ahead)

theorem reserved {name : String} (hn : name ≠ "") (hb : name.toList.all isBare = true) :
    Alike E L (Either L B) (language.reserved name) :=
  h.spelled hn hb language_regular.identifierLetter.plain (h.identifierLetter.mono (fun _ _ => id)
    fun _ _ _ _ hst => ⟨hst.1, h.inside.drawn hst.2⟩)

theorem reservedOperator {name : String} (hn : name ≠ "")
    (hb : name.toList.all isBare = true) :
    Alike E L (Either L B) (language.reservedOperator name) := by
  have mark : ∀ c, defaultOperatorChars.contains c = true → Text.isBlank c = false :=
    fun c hc => solid_of_all (w := defaultOperatorChars) (by decide) c (by simpa using hc)
  exact h.spelled hn hb ((Built.satisfy _).map _) ((h.peek mark).map _)

theorem symbol {name : String} (hn : name ≠ "") (hb : name.toList.all isBare = true) :
    Alike E L (Either L B) (language.symbol name) :=
  h.lexeme (.string _) (h.enter_ (h.string hn hb))

theorem identifier : Alike E L (Either L B) language.identifier := by
  have word : Alike E T T (language.identifierStart.bind fun c =>
      (Parser.many language.identifierLetter).map fun cs => c ++ String.join cs) :=
    ((h.kind isBare_of_isLetter _).map _).bind fun _ =>
      (h.many language_regular.identifierLetter h.identifierLetter).map _
  have spelled := Language.advancing_word language_regular.identifierStart
    language_regular.identifierLetter
  refine h.lexeme (Built.attempt ((spelled.plain.label _).bind fun name => ?_))
    ((h.enter_ ((word.label h.inside h.inside _).bind fun name => ?_)).attempt h.ahead)
  · split
    · exact .unexpected _
    · exact .pure _
  · split
    · exact .fail h.inside _
    · exact .pure (fun _ _ => id) _

end Tokens

section Numbers

variable (h : Weaving tail E L T W B)
include h

theorem ofDigits {base : Nat} {digit : Parser Char} (ha : Advancing digit)
    (hd : Alike E T T digit) : Alike E T T (Number.ofDigits base digit) :=
  (hd.some h.inside ha.framed ha.consuming hd).bind fun _ => .require (fun _ _ => id) _

theorem decimal : Alike E T T Number.decimal :=
  h.ofDigits ((Advancing.satisfy _).label _) (h.kind isBare_of_isDecimalDigit _)

theorem natural : Alike E T T Number.natural := by
  have hex : Alike E T T Number.hexadecimal := (h.oneOf (by decide)).then_
    (h.ofDigits ((Advancing.satisfy _).label _) ((h.oneOf (by decide)).label h.inside h.inside _))
  have oct : Alike E T T Number.octal := (h.oneOf (by decide)).then_
    (h.ofDigits ((Advancing.satisfy _).label _) ((h.oneOf (by decide)).label h.inside h.inside _))
  have zero : Alike E T T Number.afterZero := .choice h.inside h.inside
    (by simpa using ⟨hex, oct, h.decimal, .pure (fun _ _ => id) 0⟩)
  exact ((h.char (by decide)).then_ zero).alt h.inside h.inside h.decimal

theorem sign : Alike E L T Number.sign :=
  .choice h.ahead h.inside (by simpa using
    ⟨h.minus.result _, (h.enter_ (h.char (by decide))).result _, .pure h.enters 1⟩)

end Numbers

section Layout

variable (h : Weaving tail E L T W B) {Q : β → β → State → State → Prop} {p : Parser β}
include h

theorem refused {s t : State} (hst : B s t) (hs : RefusesAt p s) (ht : RefusesAt p t) :
    (p s).Matches E Q (p t) := by
  obtain ⟨e, u, hu, hc, hd⟩ := hs
  obtain ⟨e', v, hv, hc', hd'⟩ := ht
  rw [hu, hv]
  refine .failure (h.lenient e e' hst) ?_ ?_
  · rw [hc, hc', h.behind.consumed hst]
  · rw [hd, hd', h.behind.drawn hst]

theorem resume (hp : Paired E L Q p p) (hnil : Refuses p []) (htail : Refuses p tail) :
    Paired E (Either L B) Q p p := by
  rintro s t (hst | hst)
  · exact hp hst
  · obtain ⟨hs, ht⟩ := h.behind.sound hst
    refine h.refused hst (hnil.refusesAt hs (h.ended hst)) ?_
    rcases h.goesOn hst with hr | ⟨hr, -⟩
    · exact hnil.refusesAt ht hr
    · exact htail.refusesAt ht hr

theorem guard_behind {check : Parser Unit} {s t : State}
    (hcases : ∀ s, (∃ r, check s = .success () (s.withReference r)) ∨
      ∃ e t, check s = .failure e t ∧ t.consumed = s.consumed ∧ t.drawn = s.drawn)
    (hgoes : ∀ t : State, t.reference.line < t.position.line → t.position.column = 1 →
      1 ≤ t.reference.column → RefusesAt check t)
    (hnil : Refuses p []) (hst : B s t) : (check.then_ p s).Matches E Q (check.then_ p t) := by
  obtain ⟨hs, ht⟩ := h.behind.sound hst
  have hrefuses : Refuses (check.then_ p) [] := hnil.check_then hcases
  refine h.refused hst (hrefuses.refusesAt hs (h.ended hst)) ?_
  rcases h.goesOn hst with hr | ⟨-, hline, hcolumn, hmargin⟩
  · exact hrefuses.refusesAt ht hr
  · exact (hgoes t hline hcolumn hmargin).bind

omit h in
theorem guard {check : Parser Unit} (hcheck : Alike E L L check)
    (hbehind : ∀ s t, B s t → (check.then_ p s).Matches E Q (check.then_ p t))
    (hp : Paired E L Q p p) : Paired E (Either L B) Q (check.then_ p) (check.then_ p) := by
  rintro s t (hst | hst)
  · exact Paired.bind hcheck (fun _ _ => hp.start fun _ _ hst => hst.2) hst
  · exact hbehind s t hst

theorem sameLine : Alike E L L sameLine := by
  intro s t hst
  simp only [Parser.sameLine, h.line hst]
  split
  · exact .success ⟨rfl, hst⟩
  · exact .failure (h.ahead.error _ hst) (h.ahead.consumed hst) (h.ahead.drawn hst)

theorem indented : Alike E L L indented := by
  intro s t hst
  have hiff : t.position.column ≤ t.reference.column ↔ s.position.column ≤ s.reference.column := by
    rw [h.column hst, h.referenceColumn hst]
  simp only [Parser.indented, hiff]
  split
  · exact .failure (h.ahead.error _ hst) (h.ahead.consumed hst) (h.ahead.drawn hst)
  · exact .success ⟨rfl, h.opened hst⟩

theorem sameOrIndented : Alike E L L sameOrIndented := h.sameLine.alt h.ahead h.ahead h.indented

theorem checkIndent : Alike E L L checkIndent := by
  intro s t hst
  have hiff : t.position.column = t.reference.column ↔ s.position.column = s.reference.column := by
    rw [h.column hst, h.referenceColumn hst]
  simp only [Parser.checkIndent, hiff]
  split
  · exact .success ⟨rfl, hst⟩
  · exact .failure (h.ahead.error _ hst) (h.ahead.consumed hst) (h.ahead.drawn hst)

theorem sameLine_behind (hnil : Refuses p []) (s t : State) (hst : B s t) :
    (Parser.sameLine.then_ p s).Matches E Q (Parser.sameLine.then_ p t) :=
  h.guard_behind Refuses.sameLine_cases
    (fun _ hline _ _ => refusesAt_sameLine (Nat.ne_of_gt hline)) hnil hst

theorem indented_behind (hnil : Refuses p []) (s t : State) (hst : B s t) :
    (Parser.indented.then_ p s).Matches E Q (Parser.indented.then_ p t) :=
  h.guard_behind indented_cases
    (fun _ _ hcolumn hmargin => refusesAt_indented (by omega)) hnil hst

theorem sameOrIndented_behind (hnil : Refuses p []) (s t : State) (hst : B s t) :
    (Parser.sameOrIndented.then_ p s).Matches E Q (Parser.sameOrIndented.then_ p t) :=
  h.guard_behind Refuses.sameOrIndented_cases
    (fun _ hline hcolumn hmargin =>
      refusesAt_sameOrIndented (Nat.ne_of_gt hline) (by omega)) hnil hst

theorem sameLine_then (hnil : Refuses p []) (hp : Paired E L Q p p) :
    Paired E (Either L B) Q (Parser.sameLine.then_ p) (Parser.sameLine.then_ p) :=
  guard h.sameLine (h.sameLine_behind hnil) hp

theorem indented_then (hnil : Refuses p []) (hp : Paired E L Q p p) :
    Paired E (Either L B) Q (Parser.indented.then_ p) (Parser.indented.then_ p) :=
  guard h.indented (h.indented_behind hnil) hp

theorem sameOrIndented_then (hnil : Refuses p []) (hp : Paired E L Q p p) :
    Paired E (Either L B) Q (Parser.sameOrIndented.then_ p) (Parser.sameOrIndented.then_ p) :=
  guard h.sameOrIndented (h.sameOrIndented_behind hnil) hp

theorem indentedBlock_behind {s t : State} (hst : B s t) (hnil : Refuses p []) :
    (Parser.indentedBlock p s).Matches E (Same (Either L B)) (Parser.indentedBlock p t) := by
  obtain ⟨hs, ht⟩ := h.behind.sound hst
  obtain ⟨r, hr⟩ := indentedBlock_nil hs (h.ended hst) hnil
  rw [hr]
  rcases h.goesOn hst with hrest | ⟨-, -, hcolumn, hmargin⟩
  · obtain ⟨r', hr'⟩ := indentedBlock_nil ht hrest hnil
    rw [hr']
    exact .success ⟨rfl, .inr (h.moveBoth r r' hst hrest)⟩
  · have hclosed : t.position.column ≤ t.reference.column := by omega
    simp only [Parser.indentedBlock, Parser.indented, if_pos hclosed]
    exact .success ⟨rfl, .inr (h.move r hst)⟩

theorem ends_alike {s t : State} (hst : Either L B s t) {k k' : Nat} (hk : k' = k) :
    (!t.atEnd && t.reference.column < t.position.column && t.position.column != k') =
      (!s.atEnd && s.reference.column < s.position.column && s.position.column != k) := by
  rcases hst with hst | hst
  · rw [h.atEnd hst, h.column hst, h.referenceColumn hst, hk]
  · obtain ⟨hs, ht⟩ := h.behind.sound hst
    have hend : s.atEnd = true := by rw [hs.atEnd, h.ended hst]; rfl
    rcases h.goesOn hst with hr | ⟨-, -, hcolumn, hmargin⟩
    · have hend' : t.atEnd = true := by rw [ht.atEnd, hr]; rfl
      simp [hend, hend']
    · have hclosed : ¬ t.reference.column < t.position.column := by omega
      simp [hend, hclosed]

/-- Where the second text goes on stands left of the rounds. -/
def Inset (tail : List Char) (B : State → State → Prop) (_s t : State) : Prop :=
  tail ≠ [] → ∀ u v, B u v → 1 < t.reference.column

omit h in
theorem Inset.reaches {s t u v : State} (hst : Inset tail B s t) (_ : s.Reaches u)
    (hv : t.Reaches v) : Inset tail B u v := fun hne w x hwx => hv.column_eq ▸ hst hne w x hwx

/-- Inside of a block every line starts right of the first column, so where the second text goes on
the block is over. -/
theorem round_behind {s t : State} (hnil : Refuses p []) (hst : B s t) (hinset : Inset tail B s t) :
    (Parser.checkIndent.then_ p s).Matches E Q (Parser.checkIndent.then_ p t) := by
  obtain ⟨hs, ht⟩ := h.behind.sound hst
  have hrefuses : Refuses (Parser.checkIndent.then_ p) [] := hnil.check_then checkIndent_cases
  refine h.refused hst (hrefuses.refusesAt hs (h.ended hst)) ?_
  rcases h.goesOn hst with hr | ⟨hr, -, hone, -⟩
  · exact hrefuses.refusesAt ht hr
  · by_cases htail : tail = []
    · exact hrefuses.refusesAt ht (hr.trans htail)
    · exact (refusesAt_checkIndent (by have := hinset htail s t hst; omega)).bind

theorem opens_alike {s t : State} (hst : L s t) (hopen : s.reference.column < s.position.column) :
    t.reference.column < t.position.column ∧
      Either L B (s.withReference s.position) (t.withReference t.position) ∧
      Inset tail B (s.withReference s.position) (t.withReference t.position) := by
  have hopen' : t.reference.column < t.position.column := by
    rw [h.column hst, h.referenceColumn hst]
    exact hopen
  exact ⟨hopen', .inl (h.enter hst), fun _ u v huv =>
    Nat.lt_of_le_of_lt (h.margin huv hst) hopen'⟩

theorem rounds (hf : Framed p) (hc : Consuming p) (hnil : Refuses p [])
    (hp : Alike E L (Either L B) p) :
    Alike E (fun s t => Either L B s t ∧ Inset tail B s t)
      (fun s t => Either L B s t ∧ Inset tail B s t) (rounds p) := by
  have kept : ∀ s t u v : State, Inset tail B s t → s.Reaches u → t.Reaches v →
      Inset tail B u v := fun _ _ _ _ hst hu hv => hst.reaches hu hv
  have check : Framed Parser.checkIndent := .primitive .checkIndent
  have round : Alike E (fun s t => Either L B s t ∧ Inset tail B s t)
      (fun s t => Either L B s t ∧ Inset tail B s t) (Parser.checkIndent.then_ p) := by
    rintro s t ⟨hst | hst, hinset⟩
    · exact ((h.checkIndent.conserve check kept).then_ (hp.conserve hf kept)) ⟨hst, hinset⟩
    · exact h.round_behind hnil hst hinset
  exact round.many (h.after.and (fun _ _ _ => id) fun _ _ _ _ => id) (check.bind fun _ => hf)
    (.bind_right check fun _ => hc)

theorem indentedBlock (hf : Framed p) (hc : Consuming p) (hnil : Refuses p [])
    (hp : Alike E L (Either L B) p) :
    Alike E (Either L B) (Either L B) (Parser.indentedBlock p) := by
  rintro s t (hst | hst)
  swap
  · exact h.indentedBlock_behind hst hnil
  rcases Nat.lt_or_ge s.reference.column s.position.column with hopen | hclosed
  swap
  · have hclosed' : t.position.column ≤ t.reference.column := by
      rw [h.column hst, h.referenceColumn hst]; exact hclosed
    simp only [Parser.indentedBlock, Parser.indented, if_pos hclosed, if_pos hclosed']
    exact .success ⟨rfl, .inl hst⟩
  have hopened := h.opened hst
  obtain ⟨hopen', started⟩ := h.opens_alike hst hopen
  rcases (h.rounds hf hc hnil hp started).kinds with
    ⟨as, bs, u, v, hu, hv, has, huv, -⟩ | ⟨e, e', u, v, hu, hv, he, hcons, hd⟩ | ⟨hu, hv⟩
  · have hback : Either L B (u.withReference ⟨s.position.line, s.reference.column⟩)
        (v.withReference ⟨t.position.line, t.reference.column⟩) :=
      huv.imp (fun huv => h.restore hopened huv) fun huv => h.restoreBehind hopened huv
    rw [indentedBlock_eq hopen, indentedBlock_eq hopen', hu, hv]
    simp only [Outcome.mapState, checkEnd, h.ends_alike hback (h.column hst)]
    split
    · exact .failure (h.after.error _ hback) (h.after.consumed hback) (h.after.drawn hback)
    · exact .success ⟨has, hback⟩
  · rw [indentedBlock_eq hopen, indentedBlock_eq hopen', hu, hv]
    exact .failure he hcons hd
  · rw [indentedBlock_eq hopen, indentedBlock_eq hopen', hu, hv]
    exact .stalled

end Layout

section Values

variable (h : Weaving tail E L T W B) (hr : Resists tail)
include h

theorem stringLiteral : Alike E L (Either L B) language.stringLiteral :=
  h.lexeme (Literal.advancing_string.plain.label _) (h.quoted.label h.ahead h.inside _)

include hr

theorem integer : Alike E L (Either L B) language.integer := by
  have natural : Alike E (Either L B) T Number.natural :=
    h.resume (h.enter_ h.natural) refuses_natural_nil hr.natural
  have sign := Number.plain_sign
  have spelled : Plain (Number.integer (language.lexeme Number.sign)) :=
    (Language.plain_lexeme sign).bind fun _ => Number.advancing_natural.plain.map _
  exact (h.lexeme spelled ((h.lexeme sign h.sign).bind fun _ => natural.map _)).label h.ahead h.after _

theorem simpleValue : Alike E L (Either L B) simpleValue :=
  (Alike.choice h.ahead h.after (by simpa using ⟨h.stringLiteral.map _, (h.integer hr).map _,
    (h.reserved (by decide) (by decide)).map _,
    (h.reserved (by decide) (by decide)).map _⟩)).label h.ahead h.after _

omit hr in
theorem dataType : Alike E L (Either L B) dataType := by
  refine (Alike.attempt h.ahead (h.identifier.bind fun name => ?_)).label h.ahead h.after _
  unfold checkDataType
  split
  · exact .pure (fun _ _ => id) _
  · exact .fail h.after _

theorem propertyValue : Alike E L (Either L B) propertyValue :=
  (((h.simpleValue hr).alt h.ahead h.after (h.dataType.map _)).label h.ahead h.after _).map _

theorem assignment {name : Parser String} (hn : Alike E L (Either L B) name) :
    Alike E L (Either L B) (assignment name) :=
  hn.bind fun _ => Alike.bind (h.sameOrIndented_then (refuses_reservedOperator (by simp))
    (h.reservedOperator (by decide) (by decide))) fun _ => Alike.bind
      (h.sameOrIndented_then refuses_propertyValue_nil (h.propertyValue hr)) fun _ =>
      .pure (fun _ _ => id) _

omit hr in
theorem lodges : Lodges E L B L (Either L B) where
  ahead := h.ahead
  after := h.after
  enter := h.enter
  leave _ _ _ _ hst huv := huv.imp (fun huv => h.restore hst huv) fun huv => h.restoreBehind hst huv

omit hr in
theorem lodges_loose : Lodges E L B (Loose L) (Loose (Either L B)) where
  ahead := aligns_loose h.ahead
  after := aligns_loose h.after
  enter _ _ := fun ⟨_, _, hst⟩ => (h.enter hst :)
  leave _ _ u v _ huv := ⟨u.reference, v.reference, huv⟩

omit hr in
theorem withPosition {p : Parser β} (hp : Alike E L (Either L B) p) :
    Alike E L (Either L B) (withPosition p) := h.lodges.withPosition hp

theorem rolePropertyAssignment : Alike E L (Either L B) rolePropertyAssignment :=
  h.withPosition (h.assignment hr h.propertyName)

omit hr in
theorem contextPropertyName : Alike E L (Either L B) contextPropertyName :=
  h.propertyName.alt h.ahead h.after h.identifier

omit hr in
theorem keyword_then {name : String} {q : Parser β} (hn : name ≠ "")
    (hb : name.toList.all isBare = true) (hq : Alike E L (Either L B) q) (hh : Honest q)
    (hnil : Refuses q []) (htail : Fails q tail) :
    Alike E L (Either L B) ((language.reserved name).then_ q) := by
  have word := advancing_reserved hn
  refine (Alike.flagged h.ahead.toTracks word.plain.honest word.consuming
    (h.reserved hn hb)).then_ ?_
  rintro s t ⟨hst | hst, hflag⟩
  · exact hq hst
  · obtain ⟨hs, ht⟩ := h.behind.sound hst
    obtain ⟨e, u, hu, hc, hd⟩ := hnil s hs (h.ended hst)
    have hflag' : t.consumed = true := (h.behind.consumed hst).trans hflag
    have hfails : ∃ e v, q t = .failure e v ∧ v.drawn = t.drawn := by
      rcases h.goesOn hst with hrest | ⟨hrest, -⟩
      · exact hnil.fails t ht hrest
      · exact htail t ht hrest
    obtain ⟨e', v, hv, hd'⟩ := hfails
    rw [hu, hv]
    refine .failure (h.lenient e e' hst) ?_ ?_
    · rw [hh.keeps_failure hv hflag', hc, hflag]
    · rw [hd, hd', h.behind.drawn hst]

theorem keywordAssignment {name : String} (hn : name ≠ "")
    (hb : name.toList.all isBare = true) :
    Alike E L (Either L B) (Parser.withPosition ((language.reserved name).then_
      (Source.assignment Source.contextPropertyName))) :=
  h.withPosition (h.keyword_then hn hb (h.assignment hr h.contextPropertyName)
    (advancing_assignment advancing_contextPropertyName).plain.honest
    refuses_contextPropertyName_nil.bind hr.property)

theorem roleOccurrence : Alike E (Either L B) (Either L B) roleOccurrence := by
  have number : Alike E (Either L B) (Either L B) language.natural :=
    h.resume ((h.lexeme Number.advancing_natural.plain (h.enter_ h.natural)).label h.ahead h.after _)
      (refuses_natural_nil.bind.label _) (hr.natural.bind.label _)
  have closing : Alike E (Either L B) (Either L B) (language.symbol ")") :=
    h.resume (h.symbol (by decide) (by decide)) (Refuses.string (by simp)).bind hr.closing
  exact h.sameLine_then (Refuses.string (by simp)).bind.bind.bind
    (Alike.between (h.symbol (by decide) (by decide)) closing number)

end Values

section Rules

variable (h : Weaving tail E L T W B) (hr : Resists tail) {ids : Nat → String}
  {self : Parser Collection} {S S' : State → State → Prop}
include h

theorem typeDeclaration : Alike E L (Either L B) typeDeclaration :=
  h.withPosition (h.instanceName.bind fun _ => Alike.bind
    (h.sameLine_then refuses_resourceName_nil h.resourceName) fun _ => .pure (fun _ _ => id) _)

theorem freshId : Alike E (Either L B) (Either L B) (freshId ids) := by
  intro s t hst
  have hd := h.after.drawn hst
  simp only [Source.freshId, hd]
  exact .success ⟨rfl, h.after.rewindFrom { s with drawn := s.drawn + 1 }
    { t with drawn := s.drawn + 1 } hst rfl⟩

include hr

theorem roleProperties :
    Alike E (Either L B) (Either L B) (Parser.indentedBlock Source.rolePropertyAssignment) :=
  h.indentedBlock advancing_rolePropertyAssignment.framed
    advancing_rolePropertyAssignment.consuming refuses_rolePropertyAssignment_nil
    (h.rolePropertyAssignment hr)

theorem roleFrom (ho : Lodges E L B S S') : Alike E S S' role :=
  ho.withPosition (h.typeDeclaration.bind fun _ => Alike.bind (h.roleProperties hr) fun _ =>
    .pure (fun _ _ => id) _)

theorem role : Alike E L (Either L B) role := h.roleFrom hr h.lodges

theorem bindingTarget (hself : Alike E L (Either L B) self) (hnil : Refuses self []) :
    Alike E (Either L B) (Either L B) (bindingTarget self) := by
  have named := h.sameLine_then refuses_instanceName_nil h.instanceName
  have defined := h.indented_then (Refuses.alt (.attempt hnil.fails) refuses_role_nil)
    ((hself.attempt h.ahead).alt h.ahead h.after (h.role hr))
  exact (Alike.map named _).alt h.after h.after
    (Alike.bind defined fun _ => .require (fun _ _ => id) _)

theorem bindingWith (hself : Alike E L (Either L B) self) (hnil : Refuses self []) :
    Alike E L (Either L B) (bindingWith self) :=
  h.withPosition (h.propertyName.bind fun _ =>
    Alike.bind (((h.roleOccurrence hr).map _).option h.after h.after (fun _ _ => id) _) fun _ =>
    Alike.bind (Alike.then_ (h.sameOrIndented_then (refuses_reservedOperator (by simp))
      (h.reservedOperator (by decide) (by decide))) (h.bindingTarget hr hself hnil)) fun _ =>
    Alike.bind (h.roleProperties hr) fun _ => .pure (fun _ _ => id) _)

theorem roleBindingWith (hself : Alike E L (Either L B) self) (hnil : Refuses self [])
    (contextId : String) : Alike E L (Either L B) (roleBindingWith ids self contextId) :=
  (h.bindingWith hr hself hnil).bind fun _ => Alike.bind h.freshId fun _ =>
    .pure (fun _ _ => id) _

theorem contextBody (hself : Alike E L (Either L B) self) (hnil : Refuses self [])
    (hf : Framed self) (declaration : TypeDeclaration) :
    Alike E (Either L B) (Either L B) (contextBody ids self declaration) :=
  Alike.bind (h.indentedBlock advancing_publicAssignment.framed
    advancing_publicAssignment.consuming refuses_publicAssignment_nil
    (h.keywordAssignment hr (by decide) (by decide))) fun _ =>
  Alike.bind (h.indentedBlock advancing_privateAssignment.framed
    advancing_privateAssignment.consuming refuses_privateAssignment_nil
    (h.keywordAssignment hr (by decide) (by decide))) fun _ =>
  Alike.bind (h.indentedBlock (framed_roleBindingWith hf _) (consuming_roleBindingWith hf _)
    (refuses_bindingWith_nil self).bind (h.roleBindingWith hr hself hnil _)) fun _ =>
  .pure (fun _ _ => id) _

/-- Contexts are read alike, because the contexts inside of them are. -/
theorem context : Alike E L (Either L B) (Source.context ids) := by
  refine Paired.of_short fun n ih => ?_
  have hf := framed_context ids
  have kept : ∀ s t u v, Short n s t → s.Reaches u → t.Reaches v → Short n u v :=
    fun _ _ _ _ hst hu hv => hst.reaches hu hv
  have inner : Alike E (fun s t => L s t ∧ Short n s t)
      (Either (fun s t => L s t ∧ Short n s t) fun s t => B s t ∧ Short n s t)
      (Source.context ids) :=
    (ih.conserve hf hf kept).mono (fun _ _ hst => ⟨hst, hst.2⟩)
      fun _ _ _ _ ha => ⟨ha.1.1, ha.1.2.imp (⟨·, ha.2⟩) (⟨·, ha.2⟩)⟩
  have body (declaration : TypeDeclaration) : Alike E (fun s t => Either L B s t ∧ Short n s t)
      (Either L B) (Source.contextBody ids (Source.context ids) declaration) :=
    ((h.short n).contextBody hr inner refuses_context_nil hf declaration).mono
      (fun _ _ hst => hst.1.imp (⟨·, hst.2⟩) (⟨·, hst.2⟩))
      fun _ _ _ _ ha => ⟨ha.1, ha.2.imp (·.1) (·.1)⟩
  have header := h.typeDeclaration.shorten (n := n) h.ahead.toTracks
    advancing_typeDeclaration.consuming
  have unfolded : Alike E (fun s t => L s t ∧ Short (n + 1) s t) (Either L B)
      (contextWith ids (Source.context ids)) :=
    Paired.withPosition (header.bind body) (fun _ _ hst => ⟨h.enter hst.1, hst.2⟩)
      fun _ _ _ _ _ _ hst ha => ⟨ha.1, ha.2.imp (fun huv => h.restore hst.1 huv)
        fun huv => h.restoreBehind hst.1 huv⟩
  rintro s t hst
  obtain ⟨hs, ht⟩ := h.ahead.sound hst.1
  rw [context_eq ids hs, context_eq ids ht]
  exact unfolded hst

theorem contextFrom (ho : Lodges E L B S S') : Alike E S S' (Source.context ids) := by
  intro s t hst
  obtain ⟨hs, ht⟩ := ho.ahead.sound hst
  rw [context_eq ids hs, context_eq ids ht]
  exact ho.withPosition (h.typeDeclaration.bind fun _ => h.contextBody hr (h.context hr)
    refuses_context_nil (framed_context ids) _) hst

omit hr in
/-- A block in which nothing follows the first text on either side. -/
theorem block {p : Parser β} (htail : tail = []) (hf : Framed p) (hc : Consuming p)
    (hnil : Refuses p []) (hp : Alike E L (Either L B) p) :
    Alike E (Either L B) (Either L B) (block p) := by
  rintro s t (hst | hst)
  · have rounds := (h.rounds hf hc hnil hp).mono
      (fun _ _ hst => (⟨.inl hst, fun hne => absurd htail hne⟩ :
        Either L B _ _ ∧ Inset tail B _ _)) fun _ _ _ _ ha => (⟨ha.1, ha.2.1⟩ : Same (Either L B) _ _ _ _)
    exact h.withPosition rounds hst
  · obtain ⟨hs, ht⟩ := h.behind.sound hst
    have none : Reads (Parser.block p) [] [] [] := by
      refine ReadsIf.withPosition (Reads.readsIf (.many_nil (hnil.check_then checkIndent_cases)))
    have hrest : t.rest = [] := (h.goesOn hst).elim id fun hgoes => hgoes.1.trans htail
    rw [none s hs (h.ended hst) trivial, none t ht hrest trivial, State.pass_nil, State.pass_nil]
    exact .success ⟨rfl, .inr hst⟩

theorem definitionFrom (ho : Lodges E L B S S') (hE : ∀ e₁ e₁' e₂ e₂', E e₁ e₁' → E e₂ e₂' →
      e₂'.position.before e₁'.position = e₂.position.before e₁.position) :
    Alike E S S' (Source.definition ids) :=
  Paired.furthest_pair ho.ahead.toTracks (rewinds_of_free ho.ahead.toFree)
    (rewinds_of_free ho.ahead.toFree) (tracks_same ho.after.toTracks) hE (h.contextFrom hr ho)
    (h.roleFrom hr ho)

/-- The header is read alike by both rules, so neither fails with a flag that the other one has not
set. -/
theorem definitionFrom_of_all (ho : Lodges E L B S S') (hE : ∀ e e', E e e') :
    Alike E S S' (Source.definition ids) :=
  Paired.furthest_level ho.ahead.toTracks (rewinds_of_free ho.ahead.toFree)
    (rewinds_of_free ho.ahead.toFree) (tracks_same ho.after.toTracks) hE (level_definition ids)
    (level_definition ids) (h.contextFrom hr ho) (h.roleFrom hr ho)

variable (ids) in
theorem definition (hE : ∀ e₁ e₁' e₂ e₂', E e₁ e₁' → E e₂ e₂' →
      e₂'.position.before e₁'.position = e₂.position.before e₁.position) :
    Alike E L (Either L B) (Source.definition ids) := h.definitionFrom hr h.lodges hE

variable (ids) in
theorem definition_of_all (hE : ∀ e e', E e e') :
    Alike E L (Either L B) (Source.definition ids) := h.definitionFrom_of_all hr h.lodges hE

omit hr in
theorem textFrom (ho : Lodges E L B S S') (htail : tail = [])
    (hd : Alike E L (Either L B) (Source.definition ids)) : Alike E S S' (Source.text ids) := by
  have name : Alike E (Either L B) (Either L B) Source.instanceName :=
    h.resume h.instanceName refuses_instanceName_nil (htail ▸ refuses_instanceName_nil)
  exact ho.withPosition (Alike.bind ((h.reserved (by decide) (by decide)).then_ name) fun _ =>
    Alike.bind (h.block htail (framed_definition ids) (consuming_definition ids)
      refuses_definition_nil hd) fun _ => .pure (fun _ _ => id) _)

omit hr in
theorem text (htail : tail = []) (hd : Alike E L (Either L B) (Source.definition ids)) :
    Alike E L (Either L B) (Source.text ids) := h.textFrom h.lodges htail hd

omit hr in
theorem endOfInput (htail : tail = []) : Alike E (Either L B) (Either L B) endOfInput := by
  rintro s t (hst | hst)
  · simp only [Parser.endOfInput, h.atEnd hst]
    split
    · exact .success ⟨rfl, .inl hst⟩
    · exact .failure (h.ahead.error _ hst) (h.ahead.consumed hst) (h.ahead.drawn hst)
  · obtain ⟨hs, ht⟩ := h.behind.sound hst
    have hrest : t.rest = [] := (h.goesOn hst).elim id fun hgoes => hgoes.1.trans htail
    rw [reads_endOfInput s hs (h.ended hst) trivial, reads_endOfInput t ht hrest trivial,
      State.pass_nil, State.pass_nil]
    exact .success ⟨rfl, .inr hst⟩

omit hr in
theorem endOfDefinition (htail : tail = []) :
    Alike E (Either L B) (Either L B) endOfDefinition := by
  have ends := h.endOfInput htail
  rintro s t (hst | hst)
  · exact (Alike.alt h.ahead h.after (ends.start fun _ _ => .inl)
      (h.indented.then_ (ends.start fun _ _ => .inl))) hst
  · obtain ⟨hs, ht⟩ := h.behind.sound hst
    have hrest : t.rest = [] := (h.goesOn hst).elim id fun hgoes => hgoes.1.trans htail
    rw [reads_endOfDefinition s hs (h.ended hst) trivial,
      reads_endOfDefinition t ht hrest trivial, State.pass_nil, State.pass_nil]
    exact .success ⟨rfl, .inr hst⟩

omit hr in
theorem document (htail : tail = []) (hd : Alike E L (Either L B) (Source.definition ids)) :
    Alike E L (Either L B) (.alt ((Source.text ids).skip .endOfInput)
      ((Source.definition ids).skip Source.endOfDefinition)) :=
  ((h.text htail hd).skip (h.endOfInput htail)).alt h.ahead h.after
    (hd.skip (h.endOfDefinition htail))

omit hr in
theorem sourceFile (htail : tail = []) (hd : Alike E L (Either L B) (Source.definition ids)) :
    Alike E W (Either L B) (sourceFile ids) := by
  exact h.whiteSpace.then_ (h.resume (h.document htail hd) (refuses_document_nil ids)
    (htail ▸ refuses_document_nil ids))

end Rules

end Weaving

end Laws

end ContextRoles.Source
