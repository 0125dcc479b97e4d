import ContextRoles.Proofs.Parsing.Drawing
import ContextRoles.Proofs.Source.Naming
import ContextRoles.Proofs.Source.Totality

/-! # What the rules of the grammar draw

What a rule draws follows from what its parts draw, for every relation that holds when more draws are
added. What is left to show of a relation is that it holds of what is made of the parts: the target of a
definition, the context around bound roles, the text around definitions.
-/

namespace ContextRoles.Source

open Parsing Lexeme
open ContextRoles.Parsing.Parser hiding some

variable {ids : Nat → String} {self : Parser Collection}

theorem yields_declaration :
    Yields typeDeclaration fun d => Hyphenless (localName d.instanceName) :=
  .withPosition (yields_hyphenless.bind_left fun _ hx => .bind fun _ => .pure hx)

theorem framed_contextWith (hf : Framed self) : Framed (contextWith ids self) :=
  (built_contextWith (E := Framed) (framed_freshId ids) (.extra hf)).framed id

end ContextRoles.Source

namespace ContextRoles.Parsing.Parser.Draws

open Lexeme Source

variable {ids : Nat → String} {self : Parser Collection} {D T : Nat → Nat → Collection → Prop}
  {V : Nat → Nat → Target → Prop}

theorem bindingTarget (hD : Widening D) (hV : Widening V) (hf : Framed self) (h : Draws self D)
    (hrole : Draws role D)
    (named : ∀ lo hi name, Hyphenless (localName name) → V lo hi (.named name))
    (defined : ∀ {lo hi c target}, D lo hi c → Target.defined? c = Option.some target →
      V lo hi target) :
    Draws (Source.bindingTarget self) V := by
  have bare : Yields ((sameLine.then_ instanceName).map Target.named) fun target =>
      ∀ lo hi, V lo hi target :=
    Yields.map (.bind fun _ => yields_hyphenless) fun _ hx lo hi => named lo hi _ hx
  have framed : Framed ((sameLine.then_ instanceName).map Target.named) :=
    (((Built.primitive .sameLine).then_ advancing_instanceName.plain).map _).framed_plain
  have nested := (h.attempt.alt hD hf.attempt hrole).then_ hD Framed.indented
  refine .alt hV framed (.of_yields bare fun lo hi _ ht => ht lo hi)
    (nested.bind_left hV (fun _ => (Built.require _).framed_plain) ?_)
  intro lo hi c hc s target t hr
  exact defined hc (require_eq_success.mp hr).1

theorem bindingWith (hV : Widening V) (h : Draws (Source.bindingTarget self) V) :
    Draws (Source.bindingWith self) fun lo hi b => V lo hi b.target := by
  have wide : Widening fun lo hi (b : Binding) => V lo hi b.target := fun _ _ _ _ _ hlo hhi =>
    hV hlo hhi
  have occurrence := (plain_roleOccurrence.map Option.some).option none
  have arrow := (Built.sameOrIndented.then_ advancing_arrow.plain).framed_plain
  have body := advancing_rolePropertyAssignment.plain_indentedBlock.framed_plain
  refine .withPosition (.bind_right wide advancing_propertyName.framed (W := fun _ => True)
    (fun _ _ _ _ => trivial) fun _ _ => .bind_right wide occurrence.framed_plain
    (W := fun _ => True) (fun _ _ _ _ => trivial) fun _ _ => ?_)
  exact (h.then_ hV arrow).bind_left wide (fun _ => body.bind fun _ => .primitive (.pure _))
    fun _ _ _ ht => .bind fun _ => .pure ht

/-- A context is made of its header, its properties and the roles that are bound in it. -/
theorem contextWith {B : String → Nat → Nat → Collection → Prop} (hD : Widening D)
    (hB : ∀ contextId, Widening (B contextId)) (hf : Framed self)
    (h : ∀ contextId, Draws (roleBindingWith ids self contextId) (B contextId))
    (built : ∀ {d lo hi bindings} (publics privates : List (String × String)),
      Hyphenless (localName d.instanceName) →
        Rounds (B (localName d.instanceName)) lo hi bindings →
          D lo hi (buildContext d publics privates bindings)) :
    Draws (Source.contextWith ids self) D := by
  have hpub := advancing_publicAssignment.plain_indentedBlock.framed_plain
  have hpriv := advancing_privateAssignment.plain_indentedBlock.framed_plain
  refine .withPosition (.bind_right hD advancing_typeDeclaration.framed yields_declaration
    fun d hd => .bind_right hD hpub (W := fun _ => True) (fun _ _ _ _ => trivial) fun publics _ =>
    .bind_right hD hpriv (W := fun _ => True) (fun _ _ _ _ => trivial) fun privates _ => ?_)
  exact (indentedBlock (hB _) (framed_roleBindingWith hf _) (h _)).bind_left hD
    (fun _ => .primitive (.pure _)) fun _ _ _ hb => .pure (built publics privates hd hb)

/-- A context refers to itself, so it may be taken for granted of the contexts inside it. -/
theorem context (h : ∀ self, Framed self → Draws self D → Draws (Source.contextWith ids self) D) :
    Draws (Source.context ids) D :=
  .recurse (V := fun _ => D) (fun _ hf _ => framed_contextWith (hf ()))
    (fun self hf hself _ => h (self ()) (hf ()) (hself ())) ()

theorem definition (hD : Widening D) (hc : Draws (Source.context ids) D) (hr : Draws role D) :
    Draws (Source.definition ids) D :=
  .furthest hD (by simpa using ⟨framed_context ids, advancing_role.framed⟩) (by simpa using ⟨hc, hr⟩)

theorem text (hD : Widening D) (hT : Widening T) (h : Draws (Source.definition ids) D)
    (built : ∀ {lo hi cs} name, Rounds D lo hi cs → T lo hi (buildText name cs)) :
    Draws (Source.text ids) T := by
  have header : Framed ((language.reserved "Text").then_ instanceName) :=
    ((Language.plain_reserved language_regular rfl _).then_
      advancing_instanceName.plain).framed_plain
  refine .withPosition (.bind_right hT header (W := fun _ => True) (fun _ _ _ _ => trivial)
    fun name _ => ?_)
  exact (block hD (framed_definition ids) h).bind_left hT (fun _ => .primitive (.pure _))
    fun _ _ _ hcs => .pure (built name hcs)

theorem sourceFile (hT : Widening T) (h : Draws (Source.text ids) T)
    (h' : Draws (Source.definition ids) T) : Draws (Source.sourceFile ids) T := by
  have framed : Framed ((Source.text ids).skip .endOfInput) :=
    ((built_text (E := Framed) (framed_freshId ids)).skip (.primitive .endOfInput)).framed id
  have ending : Framed endOfDefinition := (built_endOfDefinition (E := Framed)).framed id
  exact then_ hT Language.plain_whiteSpace.framed_plain (.alt hT framed
    (h.skip hT (.primitive .endOfInput)) (h'.skip hT ending))

end ContextRoles.Parsing.Parser.Draws
