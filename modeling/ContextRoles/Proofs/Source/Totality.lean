import ContextRoles.Proofs.Lexeme.Totality
import ContextRoles.Proofs.Parsing.Recursion
import ContextRoles.Source.Reading

/-! # Every source is read to a result

Reading a source ends with a collection or with a parse error. No rule of the grammar stalls on any
text: names and assignments read something, contexts read their header before they recur, and the
entity that a definition is named for is always in its collection.
-/

namespace ContextRoles.Source

open Parsing Parser Lexeme

theorem language_regular : language.Regular where
  identifierStart := advancing_letters ((Advancing.satisfy _).label _)
  identifierLetter := advancing_letters (((Advancing.satisfy _).label _).alt (.satisfy _))
  operatorStart := advancing_letters (.satisfy _)
  operatorLetter := advancing_letters (.satisfy _)

section Names

theorem plain_joined {parts : List (Parser String)} (h : ∀ p ∈ parts, Plain p) :
    Plain (joined parts) := (Built.sequence h).map _

theorem advancing_joined {p : Parser String} {parts : List (Parser String)} (h : Advancing p)
    (hp : ∀ q ∈ parts, Plain q) (ht : ∀ q ∈ parts, Total q) : Advancing (joined (p :: parts)) :=
  (h.bind (fun _ => (Built.sequence hp).map _)
    fun _ => (Total.sequence ht fun q hq => (hp q hq).framed_plain).map _).map _

theorem plain_nameRest : Plain nameRest := language_regular.identifierLetter.plain_many.map _

theorem total_nameRest : Total nameRest := language_regular.identifierLetter.total_many.map _

theorem advancing_local {first : Parser Char} (h : Advancing first) :
    Advancing (joined [letters first, nameRest]) :=
  advancing_joined (advancing_letters h) (by simpa using plain_nameRest)
    (by simpa using total_nameRest)

theorem advancing_localPropertyName : Advancing localPropertyName :=
  advancing_local ((Advancing.satisfy _).label _)

theorem advancing_localResourceName : Advancing localResourceName :=
  advancing_local ((Advancing.satisfy _).label _)

theorem advancing_localInstanceName : Advancing localInstanceName :=
  advancing_local ((Advancing.satisfy _).label _)

theorem advancing_domainName : Advancing domainName := by
  have capital : Advancing (letters .upper) := advancing_letters ((Advancing.satisfy _).label _)
  have mark : Advancing (letters (.char '#')) := advancing_letters (.char '#')
  refine advancing_joined ⟨.string _, .string _, .string (by decide)⟩ ?_ ?_
  · simpa using ⟨capital.plain, plain_nameRest, mark.plain⟩
  · simpa using ⟨capital.total, total_nameRest, mark.total⟩

theorem advancing_namespaceMark : Advancing namespaceMark := by
  have small : Advancing Parser.lower := (Advancing.satisfy _).label _
  have word := small.plain_many.map (E := fun _ => False) String.ofList
  have colon : Advancing (joined [letters (.char ':')]) :=
    advancing_joined (advancing_letters (.char ':')) (by simp) (by simp)
  refine Advancing.alt ⟨?_, ?_, ?_⟩ ⟨.string _, .string _, .string (by decide)⟩
  · exact plain_joined (by simpa using ⟨word, (advancing_letters (.char ':')).plain⟩)
  · refine (Total.sequence ?_ ?_).map _
    · simpa using ⟨small.total_many.map _, (advancing_letters (.char ':')).total⟩
    · simpa using ⟨word.framed_plain, (advancing_letters (.char ':')).framed⟩
  · refine Consuming.map (.bind_right word.framed_plain fun _ => Consuming.map ?_ _) _
    exact (advancing_letters (.char ':')).consuming.bind_left fun _ =>
      ((Built.pure _).map _).framed_plain

theorem advancing_qualified {name : Parser String} (h : Advancing name) :
    Advancing (qualified name) :=
  Language.advancing_lexeme (.attempt (advancing_joined advancing_domainName
    (by simpa using h.plain) (by simpa using h.total)))

theorem advancing_prefixed {name : Parser String} (h : Advancing name) :
    Advancing (prefixed name) :=
  Language.advancing_lexeme (.attempt (advancing_joined advancing_namespaceMark
    (by simpa using h.plain) (by simpa using h.total)))

theorem advancing_propertyName : Advancing propertyName :=
  (((advancing_qualified advancing_localPropertyName).label _).alt
    ((advancing_prefixed advancing_localPropertyName).label _)).label _

theorem advancing_resourceName : Advancing resourceName :=
  ((advancing_qualified advancing_localResourceName).alt
    (advancing_prefixed advancing_localResourceName)).label _

theorem advancing_instanceName : Advancing instanceName :=
  ((advancing_qualified advancing_localInstanceName).alt
    (advancing_prefixed advancing_localInstanceName)).label _

theorem advancing_typeDeclaration : Advancing typeDeclaration :=
  Advancing.withPosition (advancing_instanceName.bind
    (fun _ => .bind ((Built.primitive .sameLine).then_ advancing_resourceName.plain) fun _ => .pure _)
    fun _ => Total.bind (Total.sameLine.then_ (.primitive .sameLine) advancing_resourceName.total)
      (Built.framed_plain ((Built.primitive .sameLine).then_ advancing_resourceName.plain))
      fun _ => .pure _)

end Names

section Assignments

theorem advancing_reserved {name : String} (h : name ≠ "") : Advancing (language.reserved name) :=
  Language.advancing_reserved language_regular rfl h

theorem advancing_simpleValue : Advancing simpleValue :=
  (Advancing.choice (by simpa using
    ⟨Language.advancing_stringLiteral.map _, Language.advancing_integerLexeme.map _,
      (advancing_reserved (by decide)).map _, (advancing_reserved (by decide)).map _⟩)).label _

theorem advancing_dataType : Advancing dataType := by
  refine ((Language.advancing_identifier language_regular).bind (fun name => ?_)
    fun name => ?_).attempt.label _
  · unfold checkDataType
    split
    · exact .pure _
    · exact .fail _
  · unfold checkDataType
    split
    · exact .pure _
    · exact .fail _

theorem advancing_propertyValue : Advancing propertyValue :=
  ((advancing_simpleValue.alt (advancing_dataType.map _)).label _).map _

theorem advancing_assignment {name : Parser String} (h : Advancing name) :
    Advancing (assignment name) := by
  have equals : Advancing (language.reservedOperator "=") :=
    Language.advancing_reservedOperator language_regular (by decide)
  have sign := Built.sameOrIndented.then_ equals.plain
  have value := Built.sameOrIndented.then_ advancing_propertyValue.plain
  have place : Framed sameOrIndented := Built.sameOrIndented.framed_plain
  refine h.bind (fun _ => .bind sign fun _ => .bind value fun _ => .pure _) fun _ => ?_
  exact (Total.sameOrIndented.then_ place equals.total).bind sign.framed_plain fun _ =>
    (Total.sameOrIndented.then_ place advancing_propertyValue.total).bind value.framed_plain
      fun _ => .pure _

theorem advancing_rolePropertyAssignment : Advancing rolePropertyAssignment :=
  (advancing_assignment advancing_propertyName).withPosition

theorem advancing_contextPropertyName : Advancing contextPropertyName :=
  advancing_propertyName.alt (Language.advancing_identifier language_regular)

theorem advancing_publicAssignment : Advancing publicAssignment :=
  have h := advancing_assignment advancing_contextPropertyName
  ((advancing_reserved (by decide)).then_ h.plain h.total).withPosition

theorem advancing_privateAssignment : Advancing privateAssignment :=
  have h := advancing_assignment advancing_contextPropertyName
  ((advancing_reserved (by decide)).then_ h.plain h.total).withPosition

end Assignments

section Definitions

theorem advancing_role : Advancing role :=
  have body := advancing_rolePropertyAssignment
  (advancing_typeDeclaration.bind
    (fun _ => .bind body.plain_indentedBlock fun _ => .pure _)
    fun _ => body.total_indentedBlock.bind body.plain_indentedBlock.framed_plain
      fun _ => .pure _).withPosition

theorem plain_roleOccurrence : Plain roleOccurrence :=
  (Built.primitive .sameLine).then_ (Language.advancing_parens
    Language.advancing_naturalLexeme.plain Language.advancing_naturalLexeme.total).plain

theorem total_roleOccurrence : Total roleOccurrence :=
  Total.sameLine.then_ (.primitive .sameLine) (Language.advancing_parens
    Language.advancing_naturalLexeme.plain Language.advancing_naturalLexeme.total).total

end Definitions

section Recursive

variable {E : ∀ {α : Type}, Parser α → Prop} {ids : Nat → String} {self : Parser Collection}

theorem framed_freshId (ids : Nat → String) : Framed (freshId ids) := fun _ =>
  ⟨⟨[], rfl, rfl, rfl⟩, rfl, Nat.le_succ _, rfl⟩

theorem total_freshId (ids : Nat → String) : Total (freshId ids) := by
  intro s _
  simp [freshId]

theorem advancing_arrow : Advancing (language.reservedOperator "=>") :=
  Language.advancing_reservedOperator language_regular (by decide)

theorem built_bindingTarget (h : Built E self) : Built E (bindingTarget self) :=
  .alt (((Built.primitive .sameLine).then_ advancing_instanceName.plain.of_plain).map _)
    (.bind ((Built.primitive .indented).then_ (.alt (.attempt h) advancing_role.plain.of_plain))
      fun _ => .require _)

theorem built_bindingWith (h : Built E self) : Built E (bindingWith self) :=
  .withPosition (.bind advancing_propertyName.plain.of_plain fun _ =>
    .bind ((plain_roleOccurrence.map _).option _).of_plain fun _ =>
    .bind ((Built.sameOrIndented.then_ advancing_arrow.plain.of_plain).then_
      (built_bindingTarget h)) fun _ =>
    .bind advancing_rolePropertyAssignment.plain_indentedBlock.of_plain fun _ => .pure _)

theorem built_roleBindingWith (hd : E (freshId ids)) (contextId : String) (h : Built E self) :
    Built E (roleBindingWith ids self contextId) :=
  .bind (built_bindingWith h) fun _ => .bind (.extra hd) fun _ => .pure _

theorem built_contextBody (hd : E (freshId ids)) (declaration : TypeDeclaration)
    (h : Built E self) : Built E (contextBody ids self declaration) :=
  .bind advancing_publicAssignment.plain_indentedBlock.of_plain fun _ =>
    .bind advancing_privateAssignment.plain_indentedBlock.of_plain fun _ =>
    .bind (.indentedBlock (built_roleBindingWith hd _ h).block) fun _ => .pure _

theorem built_contextWith (hd : E (freshId ids)) (h : Built E self) :
    Built E (contextWith ids self) :=
  .withPosition (.bind advancing_typeDeclaration.plain.of_plain fun declaration =>
    built_contextBody hd declaration h)

theorem built_context (hd : E (freshId ids)) : Built E (context ids) :=
  .recurse () fun _ h _ => built_contextWith hd (h ())

/-- Whether a collection holds the entity that it is named for. -/
def Named (c : Collection) : Prop := (c.entities.get? c.name).isSome = true

theorem yields_role : Yields role Named :=
  .withPosition (.bind fun _ => .bind fun _ => .pure (by
    rw [Named, buildRole, OrderedMap.get?_insert, if_pos rfl]
    rfl))

theorem yields_contextWith (ids : Nat → String) (self : Parser Collection) :
    Yields (contextWith ids self) Named :=
  .withPosition (.bind fun _ => .bind fun _ => .bind fun _ => .bind fun _ => .pure (by
    rw [Named, buildContext, OrderedMap.get?_insert, if_pos rfl]
    rfl))

section Framed

variable (hf : Framed self)

include hf

theorem framed_bindingTarget : Framed (bindingTarget self) :=
  (built_bindingTarget (E := Framed) (.extra hf)).framed id

theorem framed_bindingWith : Framed (bindingWith self) :=
  (built_bindingWith (E := Framed) (.extra hf)).framed id

theorem framed_roleBindingWith (contextId : String) :
    Framed (roleBindingWith ids self contextId) :=
  (built_roleBindingWith (E := Framed) (framed_freshId ids) contextId (.extra hf)).framed id

theorem total_bindingTarget (ht : Total self) (hn : Yields self Named) :
    Total (bindingTarget self) := by
  have place : Framed Parser.indented := .indented
  refine Total.alt ((Total.sameLine.then_ (.primitive .sameLine) advancing_instanceName.total).map _)
    (Total.bind_of_yields (Total.indented.then_ place (ht.attempt.alt advancing_role.total))
      (place.bind fun _ => hf.attempt.alt advancing_role.framed)
      (.bind fun _ => hn.attempt.alt yields_role) fun c hc => .require ?_)
  simpa [Target.defined?, Named] using hc

theorem total_bindingWith (ht : Total self) (hn : Yields self Named) :
    Total (bindingWith self) := by
  have body := advancing_rolePropertyAssignment
  have occurrence := (plain_roleOccurrence.map some).option none
  have arrow := (Built.sameOrIndented.then_ advancing_arrow.plain).framed_plain
  refine Total.withPosition (advancing_propertyName.total.bind advancing_propertyName.framed fun _ =>
    ((total_roleOccurrence.map _).option _).bind occurrence.framed_plain fun _ =>
    Total.bind (Total.then_ ?_ arrow (total_bindingTarget hf ht hn))
      (arrow.bind fun _ => framed_bindingTarget hf) fun _ =>
    body.total_indentedBlock.bind body.plain_indentedBlock.framed_plain fun _ => .pure _)
  exact Total.sameOrIndented.then_ Built.sameOrIndented.framed_plain advancing_arrow.total

theorem consuming_bindingWith : Consuming (bindingWith self) := by
  have body := advancing_rolePropertyAssignment.plain_indentedBlock
  have occurrence := (plain_roleOccurrence.map some).option none
  have arrow := (Built.sameOrIndented.then_ advancing_arrow.plain).framed_plain
  exact Consuming.withPosition (advancing_propertyName.consuming.bind_left fun _ =>
    occurrence.framed_plain.bind fun _ => (arrow.bind fun _ => framed_bindingTarget hf).bind fun _ =>
    body.framed_plain.bind fun _ => .primitive (.pure _))

theorem total_roleBindingWith (contextId : String) (ht : Total self) (hn : Yields self Named) :
    Total (roleBindingWith ids self contextId) :=
  (total_bindingWith hf ht hn).bind (framed_bindingWith hf) fun _ =>
    (total_freshId ids).bind (framed_freshId ids) fun _ => .pure _

theorem consuming_roleBindingWith (contextId : String) :
    Consuming (roleBindingWith ids self contextId) :=
  (consuming_bindingWith hf).bind_left fun _ => (framed_freshId ids).bind fun _ =>
    .primitive (.pure _)

theorem framed_contextBody (declaration : TypeDeclaration) :
    Framed (contextBody ids self declaration) :=
  (built_contextBody (E := Framed) (framed_freshId ids) declaration (.extra hf)).framed id

theorem framed_bindings (contextId : String) :
    Framed (indentedBlock (roleBindingWith ids self contextId)) :=
  .indentedBlock ((Built.block (E := Framed) (.extra (framed_roleBindingWith hf _))).framed id)

theorem total_contextBody (declaration : TypeDeclaration) (ht : Total self)
    (hn : Yields self Named) : Total (contextBody ids self declaration) := by
  have hpub := advancing_publicAssignment
  have hpriv := advancing_privateAssignment
  refine hpub.total_indentedBlock.bind hpub.plain_indentedBlock.framed_plain fun _ =>
    hpriv.total_indentedBlock.bind hpriv.plain_indentedBlock.framed_plain fun _ => ?_
  exact Total.bind ((total_roleBindingWith hf _ ht hn).indentedBlock (framed_roleBindingWith hf _)
    (consuming_roleBindingWith hf _)) (framed_bindings hf _) fun _ => .pure _

theorem total_contextWith (ht : Total self) (hn : Yields self Named) :
    Total (contextWith ids self) :=
  (advancing_typeDeclaration.total.bind advancing_typeDeclaration.framed fun declaration =>
    total_contextBody hf declaration ht hn).withPosition

theorem consuming_contextWith : Consuming (contextWith ids self) :=
  (advancing_typeDeclaration.consuming.bind_left fun _ => framed_contextBody hf _).withPosition

variable {n : Nat} {self' : Parser Collection}

theorem agree_bindingWith (h : AgreeBelow n self self') :
    AgreeBelow n (bindingWith self) (bindingWith self') := by
  have occurrence := (plain_roleOccurrence.map some).option none
  have arrow := (Built.sameOrIndented.then_ advancing_arrow.plain).framed_plain
  have defined : AgreeBelow n (bindingTarget self) (bindingTarget self') :=
    .alt (.refl _) (.bind (.bind (.refl _) .indented fun _ => h.attempt.alt (.refl _))
      (Framed.indented.bind fun _ => hf.attempt.alt advancing_role.framed) fun _ => .refl _)
  exact .withPosition (.bind (.refl _) advancing_propertyName.framed fun _ =>
    .bind (.refl _) occurrence.framed_plain fun _ =>
    .bind (.bind (.refl _) arrow fun _ => defined)
      (arrow.bind fun _ => framed_bindingTarget hf) fun _ => .refl _)

theorem agree_contextWith (h : AgreeBelow n self self') :
    AgreeBelow (n + 1) (contextWith ids self) (contextWith ids self') := by
  have binding : ∀ contextId, AgreeBelow n (roleBindingWith ids self contextId)
      (roleBindingWith ids self' contextId) := fun _ =>
    (agree_bindingWith hf h).bind (framed_bindingWith hf) fun _ => .refl _
  refine .withPosition (.bind_consuming advancing_typeDeclaration.framed
    advancing_typeDeclaration.consuming fun _ => ?_)
  refine .bind (.refl _) advancing_publicAssignment.plain_indentedBlock.framed_plain fun _ => ?_
  refine .bind (.refl _) advancing_privateAssignment.plain_indentedBlock.framed_plain fun _ => ?_
  exact .bind ((binding _).indentedBlock (framed_roleBindingWith hf _)) (framed_bindings hf _)
    fun _ => .refl _

end Framed

theorem readsFirst_contextWith (ids : Nat → String) :
    ReadsFirst fun (self : Unit → Parser Collection) () => contextWith ids (self ()) :=
  fun _ _ _ hf h _ => agree_contextWith (hf ()) (h ())

theorem framed_context (ids : Nat → String) : Framed (context ids) :=
  (built_context (E := Framed) (framed_freshId ids)).framed id

/-- A context is read by its header and body alone: inside it, contexts are read the same way. -/
theorem context_eq (ids : Nat → String) {s : State} (hs : s.Sound) :
    context ids s = contextWith ids (context ids) s :=
  recurse_eq (readsFirst_contextWith ids) (fun _ => framed_context ids) () hs

theorem yields_context (ids : Nat → String) : Yields (context ids) Named :=
  .recurse fun _ => yields_contextWith ids _

theorem total_context (ids : Nat → String) : Total (context ids) :=
  .recurse (readsFirst_contextWith ids) (fun _ => framed_context ids) (fun _ => yields_context ids)
    (fun _ hf ht hv _ => total_contextWith (hf ()) (ht ()) (hv ())) ()

theorem consuming_context (ids : Nat → String) : Consuming (context ids) := fun _ _ _ hs hr =>
  consuming_contextWith (framed_context ids) hs (context_eq ids hs ▸ hr)

theorem built_definition (hd : E (freshId ids)) : Built E (definition ids) :=
  .furthest (by simpa using ⟨built_context hd, advancing_role.plain.of_plain⟩)

theorem framed_definition (ids : Nat → String) : Framed (definition ids) :=
  (built_definition (E := Framed) (framed_freshId ids)).framed id

theorem total_definition (ids : Nat → String) : Total (definition ids) :=
  .furthest (by simpa using ⟨total_context ids, advancing_role.total⟩)

theorem consuming_definition (ids : Nat → String) : Consuming (definition ids) :=
  .furthest (by simpa using ⟨consuming_context ids, advancing_role.consuming⟩)

theorem built_text (hd : E (freshId ids)) : Built E (text ids) :=
  .withPosition (.bind ((advancing_reserved (by decide)).plain.then_
    advancing_instanceName.plain).of_plain fun _ =>
    .bind (built_definition hd).block fun _ => .pure _)

theorem total_text (ids : Nat → String) : Total (text ids) := by
  have header : Advancing ((language.reserved "Text").then_ instanceName) :=
    (advancing_reserved (by decide)).then_ advancing_instanceName.plain advancing_instanceName.total
  exact (header.total.bind header.framed fun _ => Total.bind
    ((total_definition ids).block (framed_definition ids) (consuming_definition ids))
    ((Built.block (E := Framed) (.extra (framed_definition ids))).framed id)
    fun _ => .pure _).withPosition

theorem built_endOfDefinition : Built E endOfDefinition :=
  .alt (.primitive .endOfInput) ((Built.primitive .indented).then_ (.primitive .endOfInput))

theorem total_endOfDefinition : Total endOfDefinition :=
  Total.endOfInput.alt (Total.indented.then_ .indented .endOfInput)

theorem built_sourceFile (hd : E (freshId ids)) : Built E (sourceFile ids) :=
  Language.plain_whiteSpace.of_plain.then_ (.alt ((built_text hd).skip (.primitive .endOfInput))
    ((built_definition hd).skip built_endOfDefinition))

theorem total_sourceFile (ids : Nat → String) : Total (sourceFile ids) := by
  have text := (built_text (E := Framed) (framed_freshId ids)).framed id
  exact Language.total_whiteSpace.then_ Language.plain_whiteSpace.framed_plain
    (((total_text ids).skip text .endOfInput).alt
      ((total_definition ids).skip (framed_definition ids) total_endOfDefinition))

/-- The rules of the grammar. -/
inductive Rule where
  | domainName
  | namespaceMark
  | localPropertyName
  | localResourceName
  | localInstanceName
  | propertyName
  | resourceName
  | instanceName
  | typeDeclaration
  | simpleValue
  | dataType
  | propertyValue
  | rolePropertyAssignment
  | contextPropertyName
  | publicAssignment
  | privateAssignment
  | roleOccurrence
  | role
  | bindingTarget
  | roleBinding (contextId : String)
  | contextBody (declaration : TypeDeclaration)
  | context
  | definition
  | text
  | endOfDefinition
  | sourceFile

/-- The parser of a rule, with its value left out. -/
def Rule.parser (ids : Nat → String) : Rule → Parser Unit
  | domainName => Source.domainName.result ()
  | namespaceMark => Source.namespaceMark.result ()
  | localPropertyName => Source.localPropertyName.result ()
  | localResourceName => Source.localResourceName.result ()
  | localInstanceName => Source.localInstanceName.result ()
  | propertyName => Source.propertyName.result ()
  | resourceName => Source.resourceName.result ()
  | instanceName => Source.instanceName.result ()
  | typeDeclaration => Source.typeDeclaration.result ()
  | simpleValue => Source.simpleValue.result ()
  | dataType => Source.dataType.result ()
  | propertyValue => Source.propertyValue.result ()
  | rolePropertyAssignment => Source.rolePropertyAssignment.result ()
  | contextPropertyName => Source.contextPropertyName.result ()
  | publicAssignment => Source.publicAssignment.result ()
  | privateAssignment => Source.privateAssignment.result ()
  | roleOccurrence => Source.roleOccurrence.result ()
  | role => Source.role.result ()
  | bindingTarget => (Source.bindingTarget (Source.context ids)).result ()
  | roleBinding contextId => (Source.roleBinding ids contextId).result ()
  | contextBody declaration => (Source.contextBody ids (Source.context ids) declaration).result ()
  | context => (Source.context ids).result ()
  | definition => (Source.definition ids).result ()
  | text => (Source.text ids).result ()
  | endOfDefinition => Source.endOfDefinition
  | sourceFile => (Source.sourceFile ids).result ()

theorem total_rule (ids : Nat → String) (rule : Rule) : Total (rule.parser ids) := by
  have hf := framed_context ids
  have ht := total_context ids
  have hn := yields_context ids
  cases rule with
  | domainName => exact advancing_domainName.total.map _
  | namespaceMark => exact advancing_namespaceMark.total.map _
  | localPropertyName => exact advancing_localPropertyName.total.map _
  | localResourceName => exact advancing_localResourceName.total.map _
  | localInstanceName => exact advancing_localInstanceName.total.map _
  | propertyName => exact advancing_propertyName.total.map _
  | resourceName => exact advancing_resourceName.total.map _
  | instanceName => exact advancing_instanceName.total.map _
  | typeDeclaration => exact advancing_typeDeclaration.total.map _
  | simpleValue => exact advancing_simpleValue.total.map _
  | dataType => exact advancing_dataType.total.map _
  | propertyValue => exact advancing_propertyValue.total.map _
  | rolePropertyAssignment => exact advancing_rolePropertyAssignment.total.map _
  | contextPropertyName => exact advancing_contextPropertyName.total.map _
  | publicAssignment => exact advancing_publicAssignment.total.map _
  | privateAssignment => exact advancing_privateAssignment.total.map _
  | roleOccurrence => exact total_roleOccurrence.map _
  | role => exact advancing_role.total.map _
  | bindingTarget => exact (total_bindingTarget hf ht hn).map _
  | roleBinding contextId => exact (total_roleBindingWith hf contextId ht hn).map _
  | contextBody declaration => exact (total_contextBody hf declaration ht hn).map _
  | context => exact ht.map _
  | definition => exact (total_definition ids).map _
  | text => exact (total_text ids).map _
  | endOfDefinition => exact total_endOfDefinition
  | sourceFile => exact (total_sourceFile ids).map _

theorem yields_numeral {base : Nat} {digit : Parser Char} (h : Number.DigitsOf base digit) :
    Yields (Parser.some digit) fun digits => (numeral? base digits).isSome = true :=
  fun _ _ _ hr => (h.some hr).elim Number.isSome_numeral?

theorem yields_nested (ids : Nat → String) :
    Yields (alt (attempt (context ids)) role) fun c => (Target.defined? c).isSome = true := by
  intro s c t hr
  have hc : Named c := (yields_context ids).attempt.alt yields_role hr
  simpa [Target.defined?, Named] using hc

/-- Every source is read to a collection or to a parse error. No rule and no token stalls wherever it
is started, so no repetition repeats in place, digits convert to numbers, numbers to characters and
nested definitions to targets; and a context refers to itself without any limit. -/
theorem read_never_stalls (ids : Nat → String) :
    (∀ drawn source,
      (∃ c t, sourceFile ids { State.start source with drawn } = .success c t ∧
        read ids drawn source = ⟨.ok c.linkFilledRoles, t.drawn⟩) ∨
      ∃ e t, sourceFile ids { State.start source with drawn } = .failure e t ∧
        read ids drawn source = ⟨.error e, t.drawn⟩) ∧
    (∀ rule : Rule, Total (rule.parser ids)) ∧
    (∀ token : Token, Total (token.parser language)) ∧
    (∀ s : State, s.Sound → context ids s = contextWith ids (context ids) s) ∧
    (Yields (alt (attempt (context ids)) role) fun c => (Target.defined? c).isSome = true) ∧
    (Yields (Parser.some .digit) fun digits => (numeral? 10 digits).isSome = true) ∧
    (Yields (Parser.some .hexDigit) fun digits => (numeral? 16 digits).isSome = true) ∧
    (Yields (Parser.some .octalDigit) fun digits => (numeral? 8 digits).isSome = true) := by
  refine ⟨fun drawn source => ?_, total_rule ids, Token.total language_regular rfl,
    fun s hs => context_eq ids hs, yields_nested ids, yields_numeral Number.digitsOf_digit,
    yields_numeral Number.digitsOf_hexDigit, yields_numeral Number.digitsOf_octalDigit⟩
  have sound : ({ State.start source with drawn } : State).Sound := State.sound_start source
  cases hr : sourceFile ids { State.start source with drawn } with
  | success c t => exact .inl ⟨c, t, rfl, by simp [read, hr]⟩
  | failure e t => exact .inr ⟨e, t, rfl, by simp [read, hr]⟩
  | stalled => exact absurd hr (total_sourceFile ids _ sound)

end Recursive

end ContextRoles.Source
