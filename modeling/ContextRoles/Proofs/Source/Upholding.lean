import ContextRoles.Proofs.Source.Bodies
import ContextRoles.Proofs.Source.Weaving

/-! # Readings that are upheld

A definition that comes to the end of its text is read in front of any other text, when that one starts
in the first column of a line of its own. Where the grammar asks for digits, a bracket or a property at
the end of the first text, something was read before, so the first reading fails for good and it does
not matter what the second one finds there. Only where a context was given up for a role, the second
reading might not give it up, and there both have the properties of the role to go by.
-/

namespace ContextRoles.Parsing.Parser

variable {α : Type} {p q : Parser α} {s t : State} {e : ParseError} {a : α}

theorem furthest_eq_success : furthest [p, q] s = .success a t ↔
    ∃ u, t = u.withConsumed (s.consumed || u.consumed) ∧ (p s.checkpoint = .success a u ∨
      ∃ e v, p s.checkpoint = .failure e v ∧ q (s.checkpoint.rewindFrom v) = .success a u) := by
  have hgo : ∀ u, furthest.go [p, q] none s.checkpoint = .success a u ↔
      p s.checkpoint = .success a u ∨
        ∃ e v, p s.checkpoint = .failure e v ∧ q (s.checkpoint.rewindFrom v) = .success a u := by
    intro u
    rw [furthest.go]
    cases p s.checkpoint with
    | success b v => simp
    | failure e v =>
      simp only [furthest.go]
      cases hq : q (s.checkpoint.rewindFrom v) <;> simp [hq]
    | stalled => simp
  rw [furthest, Outcome.merge, mapState_eq_success]
  exact exists_congr fun u => (and_congr_left fun _ => hgo u).trans (and_comm.trans
    (and_congr_left fun _ => eq_comm))

end ContextRoles.Parsing.Parser

namespace ContextRoles.Source

open Parsing Lexeme
open ContextRoles.Parsing.Parser hiding some
open Weaving (Inset)

section Blocks

variable {β : Type} {p : Parser β} {s t : State} {e : ParseError}

theorem indentedBlock_failure (hf : Framed p) (hr : Parser.indentedBlock p s = .failure e t) :
    t.consumed = true := by
  rcases Nat.lt_or_ge s.reference.column s.position.column with hopen | hclosed
  swap
  · rw [indentedBlock_of_le hclosed] at hr
    cases hr
  have honest : Honest (rounds p) := Honest.manyFrom _ []
  have framed : Framed (rounds p) := ((Framed.primitive .checkIndent).bind fun _ => hf).manyFrom []
  rw [indentedBlock_eq hopen] at hr
  cases hrounds : rounds p (s.withReference s.position) with
  | success values u =>
    simp only [hrounds, Outcome.mapState, checkEnd] at hr
    split at hr
    next hoff =>
      cases hr
      by_contra hflag
      have hclear : u.consumed = false := Bool.eq_false_iff.mpr hflag
      have hstill : u.rest = s.rest := (honest.still hrounds hclear :)
      obtain ⟨text, hrest, -, hposition⟩ := (framed.success hrounds).reads
      obtain rfl : text = [] := List.append_left_eq_self.mp (hrest.symm.trans hstill.symm)
      simp [hposition, State.withReference] at hoff
    · cases hr
  | failure e' u =>
    simp only [hrounds, Outcome.mapState, checkEnd] at hr
    cases hr
    exact (manyFrom_failure hrounds :)
  | stalled => simp [hrounds, Outcome.mapState, checkEnd] at hr

end Blocks

section Headers

variable {ids : Nat → String} {self : Parser Collection} {declaration : TypeDeclaration}
  {s t u : State} {e : ParseError}

theorem roleProperties_strays (h : ¬ Proceeds s) :
    (Parser.indentedBlock rolePropertyAssignment s).Strays Proceeds := by
  cases hblock : Parser.indentedBlock rolePropertyAssignment s with
  | success l t =>
    intro hproceeds
    apply h
    rcases Nat.lt_or_ge s.reference.column s.position.column with hopen | hclosed
    · obtain ⟨u, hitems, -, hplace, -⟩ := items_of_roleBlock hopen hblock
      cases hitems with
      | nil => exact positional_proceeds hplace hproceeds
      | cons _ hr _ =>
        have hplace : (s.withReference s.position).checkpoint.place = s.place := rfl
        exact positional_proceeds hplace (proceeds_of_success hr)
    · rw [indentedBlock_of_le hclosed] at hblock
      cases hblock
      exact hproceeds
  | failure e t => exact indentedBlock_failure advancing_rolePropertyAssignment.framed hblock
  | stalled => trivial

theorem proceeds_of_roleBinding {contextId : String} {c : Collection}
    (hr : roleBindingWith ids self contextId s = .success c t) : Proceeds s := by
  obtain ⟨binding, u, hu, -⟩ := bind_eq_success.mp hr
  exact proceeds_of_success hu

theorem exists_roleBlock (n : Nat)
    (hheader : typeDeclaration (s.withReference s.position) = .success declaration t)
    (hrole : ¬ (role (s.redrawn n)).Strays Proceeds) :
    ∃ l v, Parser.indentedBlock rolePropertyAssignment t = .success l v ∧ Proceeds v := by
  have properties := advancing_rolePropertyAssignment
  have header := advancing_typeDeclaration.plain.steady (s.withReference s.position) n
  have body := properties.plain_indentedBlock.steady t n
  have hrole' : ¬ ((Parser.bind typeDeclaration fun declaration =>
      (Parser.indentedBlock rolePropertyAssignment).bind fun l =>
        Parser.pure (buildRole declaration l)) ((s.withReference s.position).redrawn n)
      |>.mapState (·.withReference s.reference)).Strays Proceeds := hrole
  rw [hheader] at header
  simp only [Parser.bind, header, Outcome.redrawn_success, body] at hrole'
  cases hblock : Parser.indentedBlock rolePropertyAssignment t with
  | success l v =>
    rw [hblock] at hrole'
    exact ⟨l, v, rfl, positional_proceeds rfl (not_not.mp hrole')⟩
  | failure e v =>
    rw [hblock] at hrole'
    exact absurd (indentedBlock_failure properties.framed hblock) hrole'
  | stalled =>
    rw [hblock] at hrole'
    exact absurd trivial hrole'

theorem exists_others (hs : t.Sound)
    (hheader : typeDeclaration (s.withReference s.position) = .success declaration t)
    (hbody : contextBody ids self declaration t = .failure e u)
    (hrole : ¬ (role (s.redrawn u.drawn)).Strays Proceeds) :
    ∃ l v, Parser.indentedBlock rolePropertyAssignment t = .success l v ∧ others l ≠ [] ∧
      u.drawn = t.drawn := by
  obtain ⟨l, v, hblock, hproceeds⟩ := exists_roleBlock u.drawn hheader hrole
  obtain ⟨hfails, hreads⟩ := contextBody_of_roleBlock ids self declaration hs hblock
  have hothers : others l ≠ [] := by
    intro hnil
    obtain ⟨c, w, hw⟩ := hreads hnil hproceeds
    rw [hw] at hbody
    cases hbody
  obtain ⟨e', w, hw, hd⟩ := hfails hothers
  rw [hw] at hbody
  cases hbody
  exact ⟨l, v, hblock, hothers, hd⟩

end Headers

/-- A weaving where something is left of the first text in front of every lexeme. -/
structure Ample (tail : List Char) (E : ParseError → ParseError → Prop)
    (L T W B : State → State → Prop) : Prop extends Weaving tail E L T W B where
  left : ∀ ⦃s t⦄, L s t → s.rest ≠ []

def Flagged (L B : State → State → Prop) (s t : State) : Prop :=
  Either L B s t ∧ (s.rest = [] → s.consumed = true)

theorem positional_true : State.Positional fun _ => True := fun _ _ _ _ => trivial

namespace Ample

variable {tail : List Char} {E : ParseError → ParseError → Prop} {L T W B R : State → State → Prop}
  {C : State → Prop} {α β : Type} {p : Parser α}

section Tokens

variable (h : Ample tail E L T W B)
include h

theorem flagged (hh : Honest p) (hp : Firm L (Either L B) p) : Firm L (Flagged L B) p :=
  hp.strengthen fun s t a u v hst hr _ huv => ⟨huv, fun hnil => by
    by_contra hflag
    exact h.left hst ((hh.still hr (Bool.eq_false_iff.mpr hflag)).symm.trans hnil)⟩

theorem resumed (hnil : Refuses p []) (hp : Firm L R p) : Firm (Flagged L B) R p := by
  rintro s t ⟨hst | hst, hflag⟩
  · exact hp hst
  · obtain ⟨e, u, hu, hc, -⟩ := hnil s (h.behind.sound hst).1 (h.ended hst)
    rw [hu]
    exact .strays (hc.trans (hflag (h.ended hst)))

theorem lexeme (hh : Plain p) (hp : Firm L T p) : Firm L (Either L B) (language.lexeme p) := by
  have closed : Firm L W p := hp.strengthen fun s t a u v hst hr _ huv => by
    refine h.spend hst huv ?_
    cases hflag : u.consumed with
    | true => exact .inr rfl
    | false => exact .inl (hh.honest.still hr hflag)
  exact closed.firm_skip h.whiteSpace.upheld

theorem withPosition (hC : State.Positional C) (hp : Upheld C L (Either L B) p) :
    Upheld C L (Either L B) (Parser.withPosition p) :=
  hp.withPosition hC (fun _ _ hst => h.enter hst) fun _ _ _ _ hst huv =>
    huv.imp (fun huv => h.restore hst huv) fun huv => h.restoreBehind hst huv

omit h in
theorem guard {check : Parser Unit} (hcheck : Alike E L L check)
    (hbehind : ∀ s t, B s t → (check.then_ p s).Matches E (Same R) (check.then_ p t))
    (hp : Upheld C L R p) : Upheld C (Either L B) R (check.then_ p) := by
  rintro s t (hst | hst)
  · exact hcheck.upheld.firm_bind (fun _ => hp) hst
  · exact (hbehind s t hst).upholds

theorem label (hp : Firm L (Either L B) p) (name : String) :
    Firm L (Either L B) (p.label name) :=
  Upheld.label positional_true h.ahead.toFree h.after.toTracks hp name

end Tokens

section Values

variable (h : Ample tail E L T W B)
include h

theorem integer : Firm L (Either L B) language.integer := by
  have sign := Number.plain_sign
  have spelled : Plain (Number.integer (language.lexeme Number.sign)) :=
    (Language.plain_lexeme sign).bind fun _ => Number.advancing_natural.plain.map _
  have signed := h.flagged (Language.plain_lexeme sign).honest (h.toWeaving.lexeme sign h.sign).upheld
  have natural : Firm (Flagged L B) T Number.natural :=
    h.resumed refuses_natural_nil (h.enter_ h.natural).upheld
  exact h.label (h.lexeme spelled (signed.firm_bind fun _ => natural.map _)) _

theorem propertyValue : Firm L (Either L B) propertyValue := by
  have simple : Firm L (Either L B) simpleValue := h.label (Upheld.choice positional_true
    h.ahead.toFree h.after.toTracks (by simpa using ⟨(h.stringLiteral.map _).upheld, h.integer.map _,
      ((h.reserved (by decide) (by decide)).map _).upheld,
      ((h.reserved (by decide) (by decide)).map _).upheld⟩)) _
  exact (h.label (simple.alt positional_true h.ahead.toFree h.after.toTracks
    (h.dataType.map _).upheld) _).map _

theorem assignment {name : Parser String} (hn : Alike E L (Either L B) name) :
    Firm L (Either L B) (assignment name) := by
  have sign : Firm (Either L B) (Either L B)
      (Parser.sameOrIndented.then_ (language.reservedOperator "=")) :=
    Alike.upheld (h.sameOrIndented_then (refuses_reservedOperator (by simp))
      (h.reservedOperator (by decide) (by decide)))
  have value : Firm (Either L B) (Either L B) (Parser.sameOrIndented.then_ Source.propertyValue) :=
    guard h.sameOrIndented (h.sameOrIndented_behind refuses_propertyValue_nil) h.propertyValue
  exact hn.upheld.firm_bind fun _ => sign.firm_bind fun _ => value.firm_bind fun _ =>
    .pure (fun _ _ => id) _

theorem rolePropertyAssignment : Firm L (Either L B) rolePropertyAssignment :=
  h.withPosition positional_true (h.assignment h.propertyName)

theorem keyworded {word : String} (hk : Keyword word) (hb : word.toList.all isBare = true) :
    Firm L (Either L B) (keyworded word) := by
  have reserved := h.flagged (advancing_reserved hk.ne_empty).plain.honest
    (h.reserved hk.ne_empty hb).upheld
  exact h.withPosition positional_true (reserved.firm_bind fun _ =>
    h.resumed refuses_contextPropertyName_nil.bind (h.assignment h.contextPropertyName))

theorem roleOccurrence : Firm (Either L B) (Either L B) roleOccurrence := by
  have spelled {name : String} : Plain (language.symbol name) := Language.plain_lexeme (.string _)
  have opening := h.flagged spelled.honest (h.symbol (show "(" ≠ "" by decide) (by decide)).upheld
  have number : Firm (Flagged L B) (Either L B) language.natural :=
    h.resumed (refuses_natural_nil.bind.label _) (h.label (h.toWeaving.lexeme
      Number.advancing_natural.plain (h.enter_ h.natural)).upheld _)
  have numbered := h.flagged
    (spelled.then_ ((Language.plain_lexeme Number.advancing_natural.plain).label "natural")).honest
    (opening.firm_bind fun _ => number)
  have closing := h.resumed (Refuses.string (by simp)).bind
    (h.symbol (show ")" ≠ "" by decide) (by decide)).upheld
  exact guard h.sameLine (h.sameLine_behind (Refuses.string (by simp)).bind.bind.bind)
    (numbered.firm_skip closing)

end Values

section Blocks

variable (h : Ample tail E L T W B)
include h

/-- The rounds of a block are upheld, when nothing but the end of the text stops the first reading from
going on behind any of them. -/
theorem rounds (hC : State.Positional C) (hf : Framed p) (hc : Consuming p) (hnil : Refuses p [])
    (hstart : ∀ ⦃s a u⦄, p s = .success a u → C s) (hp : Upheld C L (Either L B) p) :
    Upheld C (fun s t => Either L B s t ∧ Inset tail B s t)
      (fun s t => Either L B s t ∧ Inset tail B s t) (rounds p) := by
  have kept : ∀ s t u v : State, Inset tail B s t → s.Reaches u → t.Reaches v →
      Inset tail B u v := fun _ _ _ _ hst hu hv => hst.reaches hu hv
  have check : Framed Parser.checkIndent := .primitive .checkIndent
  have round : Upheld C (fun s t => Either L B s t ∧ Inset tail B s t)
      (fun s t => Either L B s t ∧ Inset tail B s t) (Parser.checkIndent.then_ p) := by
    rintro s t ⟨hst | hst, hinset⟩
    · exact (h.checkIndent.conserve check kept).upheld.firm_bind (fun _ => hp.conserve hf kept)
        ⟨hst, hinset⟩
    · exact (h.round_behind hnil hst hinset).upholds
  refine round.many hC (h.after.and (fun _ _ _ => id) fun _ _ _ _ => id).toFree
    (check.bind fun _ => hf) (.bind_right check fun _ => hc) ?_
  intro s a u hr
  rw [checkIndent_then_eq] at hr
  split at hr
  · exact hstart hr
  · cases hr

theorem indentedBlock (hC : State.Positional C) (hf : Framed p) (hc : Consuming p)
    (hnil : Refuses p []) (hstart : ∀ ⦃s a u⦄, p s = .success a u → C s)
    (hp : Upheld C L (Either L B) p) :
    Upheld C (Either L B) (Either L B) (Parser.indentedBlock p) := by
  rintro s t (hst | hst)
  swap
  · exact (h.indentedBlock_behind hst hnil).upholds
  rcases Nat.lt_or_ge s.reference.column s.position.column with hopen | hclosed
  swap
  · have hclosed' : t.position.column ≤ t.reference.column := by
      rw [h.column hst, h.referenceColumn hst]; exact hclosed
    rw [indentedBlock_of_le hclosed, indentedBlock_of_le hclosed']
    exact .success (.inl hst)
  have hopened := h.opened hst
  obtain ⟨hopen', started⟩ := h.opens_alike hst hopen
  have both := h.rounds hC hf hc hnil hstart hp started
  have hfails := fun e u => indentedBlock_failure (s := s) (e := e) (t := u) hf
  rw [indentedBlock_eq hopen] at hfails ⊢
  rw [indentedBlock_eq hopen']
  generalize Parser.rounds p (s.withReference s.position) = r at both hfails ⊢
  generalize Parser.rounds p (t.withReference t.position) = r' at both
  cases both with
  | strays hstrays =>
    refine .strays ?_
    cases r with
    | success values u =>
      simp only [Outcome.mapState, checkEnd] at hfails ⊢
      split
      next hoff => exact hfails _ _ (if_pos hoff)
      · exact mt (hC (t := u) rfl) hstrays
    | failure e u => exact hstrays
    | stalled => trivial
  | @success values u v huv =>
    have hback : Either L B (u.withReference ⟨s.position.line, s.reference.column⟩)
        (v.withReference ⟨t.position.line, t.reference.column⟩) :=
      huv.1.imp (fun huv => h.restore hopened huv) fun huv => h.restoreBehind hopened huv
    simp only [Outcome.mapState, checkEnd, h.ends_alike hback (h.column hst)] at hfails ⊢
    split
    next hoff => exact .strays (hfails _ _ (if_pos hoff))
    · exact .success hback
  | refusal hflag hd => exact .refusal hflag hd

end Blocks

section Rules

variable (h : Ample tail E L T W B) {ids : Nat → String} {self : Parser Collection}
include h

theorem roleProperties :
    Firm (Either L B) (Either L B) (Parser.indentedBlock Source.rolePropertyAssignment) :=
  h.indentedBlock positional_true advancing_rolePropertyAssignment.framed
    advancing_rolePropertyAssignment.consuming refuses_rolePropertyAssignment_nil
    (fun _ _ _ _ => trivial) h.rolePropertyAssignment

theorem role : Firm L (Either L B) role :=
  h.withPosition positional_true (h.typeDeclaration.upheld.firm_bind fun _ =>
    h.roleProperties.firm_bind fun _ => .pure (fun _ _ => id) _)

theorem givenUp {s t u : State} {e : ParseError} (hst : L s t)
    (hr : contextWith ids self s = .failure e u)
    (hrole : ¬ (Source.role (s.rewindFrom u)).Strays Proceeds) :
    ∃ e' v, contextWith ids self t = .failure e' v ∧ v.drawn = u.drawn := by
  obtain ⟨w, hw, rfl⟩ := FailsInPlace.of_mapState hr
  simp only [contextWith, Parser.withPosition, Parser.bind] at hw ⊢
  rcases (h.typeDeclaration (h.enter hst)).kinds with
    ⟨a, b, u, v, hu, hv, ⟨rfl, huv⟩⟩ | ⟨e₁, e₂, u, v, hu, hv, -, -, hd⟩ | ⟨hu, -⟩
  -- the header is read: both readings then find the same properties, and one that is no context's
  · obtain ⟨hs, ht⟩ := h.after.sound huv
    simp only [hu, hv] at hw ⊢
    obtain ⟨l, x, hblock, hothers, hd⟩ := exists_others hs hu hw hrole
    obtain ⟨y, hblock', -⟩ := (hblock ▸ h.roleProperties huv).exists_success trivial
    obtain ⟨e', z, hz, hd'⟩ := (contextBody_of_roleBlock ids self b ht hblock').1 hothers
    exact ⟨e', _, congrArg (Outcome.mapState _) hz, (hd'.trans (h.after.drawn huv)).trans hd.symm⟩
  -- the header fails alike
  · simp only [hu, hv] at hw ⊢
    cases hw
    exact ⟨e₂, _, rfl, hd⟩
  · simp only [hu] at hw
    cases hw

theorem bindingTarget (hself : Upheld Proceeds L (Either L B) self) (hnil : Refuses self [])
    (hgiven : ∀ ⦃s t e u⦄, L s t → self s = .failure e u →
      ¬ (Source.role (s.rewindFrom u)).Strays Proceeds →
      ∃ e' v, self t = .failure e' v ∧ v.drawn = u.drawn) :
    Upheld Proceeds (Either L B) (Either L B) (bindingTarget self) := by
  have ahead := h.ahead.toFree
  have after := h.after.toFree
  have named : Alike E (Either L B) (Either L B)
      (Parser.map Target.named (Parser.sameLine.then_ instanceName)) :=
    Alike.map (h.sameLine_then refuses_instanceName_nil h.instanceName) _
  have inside : Upheld Proceeds L (Either L B) (.alt (.attempt self) Source.role) :=
    hself.attempt_alt positional_proceeds ahead after.toTracks
      (h.role.mono (fun _ _ => trivial) (fun _ _ => id) fun _ _ => id) hgiven
  have defined : Upheld Proceeds (Either L B) (Either L B)
      (Parser.indented.then_ (.alt (.attempt self) Source.role)) :=
    guard h.indented (h.indented_behind (.alt (.attempt hnil.fails) refuses_role_nil)) inside
  refine named.upheld.alt positional_proceeds after after.toTracks
    (defined.bind (fun _ => (Alike.require (E := E) (fun _ _ => id) _).upheld) ?_)
  intro s definition u _ hu
  cases Target.defined? definition with
  | some target => exact hu
  | none => trivial

/-- Behind a target the properties of a binding are read up to a binding again, or to none. -/
theorem bindingWith (htarget : Upheld Proceeds (Either L B) (Either L B) (Source.bindingTarget self)) :
    Upheld Proceeds L (Either L B) (bindingWith self) := by
  have occurrence : Firm (Either L B) (Either L B)
      (Parser.option none (Source.roleOccurrence.map some)) :=
    Upheld.option positional_true h.after.toFree h.after.toTracks (fun _ _ => id)
      (h.roleOccurrence.map _) _
  have arrow : Firm (Either L B) (Either L B)
      (Parser.sameOrIndented.then_ (language.reservedOperator "=>")) :=
    Alike.upheld (h.sameOrIndented_then (refuses_reservedOperator (by simp))
      (h.reservedOperator (by decide) (by decide)))
  -- only the target may stray, and then the properties behind it do
  refine h.withPosition positional_proceeds (h.propertyName.upheld.firm_bind fun _ =>
    occurrence.firm_bind fun _ => (arrow.firm_bind fun _ => htarget).bind
      (fun _ => h.roleProperties.firm_bind fun _ => .pure (fun _ _ => id) _) ?_)
  intro s target u _ hu
  exact (roleProperties_strays hu).bind_pure _

theorem roleBindingWith
    (htarget : Upheld Proceeds (Either L B) (Either L B) (Source.bindingTarget self))
    (contextId : String) :
    Upheld Proceeds L (Either L B) (roleBindingWith ids self contextId) :=
  (h.bindingWith htarget).bind (fun _ => Alike.upheld (h.freshId.bind fun _ => .pure (fun _ _ => id) _))
    fun _ _ _ _ hu => hu

theorem contextBody (hf : Framed self)
    (htarget : Upheld Proceeds (Either L B) (Either L B) (Source.bindingTarget self))
    (declaration : TypeDeclaration) :
    Upheld Proceeds (Either L B) (Either L B) (contextBody ids self declaration) := by
  have properties {word : String} (hk : Keyword word) (hb : word.toList.all isBare = true) :
      Firm (Either L B) (Either L B) (Parser.indentedBlock (Source.keyworded word)) :=
    h.indentedBlock positional_true (advancing_keyworded hk.ne_empty).framed
      (advancing_keyworded hk.ne_empty).consuming (refuses_keyworded_nil hk.ne_empty)
      (fun _ _ _ _ => trivial) (h.keyworded hk hb)
  have bindings : Upheld Proceeds (Either L B) (Either L B)
      (Parser.indentedBlock (Source.roleBindingWith ids self (localName declaration.instanceName))) :=
    h.indentedBlock positional_proceeds (framed_roleBindingWith hf _) (consuming_roleBindingWith hf _)
      (refuses_bindingWith_nil self).bind
      (fun _ _ _ hr => proceeds_of_roleBinding hr) (h.roleBindingWith htarget _)
  exact (properties keyword_public (by decide)).firm_bind fun _ =>
    (properties keyword_private (by decide)).firm_bind fun _ =>
    bindings.bind (fun _ => .pure (fun _ _ => id) _) fun _ _ _ _ hu => hu

/-- Contexts are upheld, because the contexts inside of them are. -/
theorem context : Upheld Proceeds L (Either L B) (context ids) := by
  refine Upheld.of_short fun n ih => ?_
  have hf := framed_context ids
  have hshort : Ample tail E (fun s t => L s t ∧ Short n s t) (fun s t => T s t ∧ Short n s t)
      (fun s t => W s t ∧ Short n s t) (fun s t => B s t ∧ Short n s t) :=
    ⟨h.short n, fun _ _ hst => h.left hst.1⟩
  have inner : Upheld Proceeds (fun s t => L s t ∧ Short n s t)
      (Either (fun s t => L s t ∧ Short n s t) fun s t => B s t ∧ Short n s t)
      (Source.context ids) :=
    (ih.conserve hf fun _ _ _ _ hst hu hv => hst.reaches hu hv).mono (fun _ => id)
      (fun _ _ hst => ⟨hst, hst.2⟩) fun _ _ ha => ha.1.imp (⟨·, ha.2⟩) (⟨·, ha.2⟩)
  have target := hshort.bindingTarget inner refuses_context_nil fun s t e u hst hu hrole => by
    obtain ⟨hs, ht⟩ := h.ahead.sound hst.1
    rw [context_eq ids hs] at hu
    rw [context_eq ids ht]
    exact h.givenUp hst.1 hu hrole
  have body (declaration : TypeDeclaration) : Upheld Proceeds
      (fun s t => Either L B s t ∧ Short n s t) (Either L B)
      (Source.contextBody ids (Source.context ids) declaration) :=
    (hshort.contextBody hf target declaration).mono (fun _ => id)
      (fun _ _ hst => hst.1.imp (⟨·, hst.2⟩) (⟨·, hst.2⟩)) fun _ _ ha => ha.imp (·.1) (·.1)
  have header : Firm (fun s t => L s t ∧ Short (n + 1) s t)
      (fun s t => Either L B s t ∧ Short n s t) typeDeclaration :=
    (h.typeDeclaration.shorten (n := n) h.ahead.toTracks
      advancing_typeDeclaration.consuming).upheld
  have unfolded : Upheld Proceeds (fun s t => L s t ∧ Short (n + 1) s t) (Either L B)
      (contextWith ids (Source.context ids)) :=
    (header.firm_bind body).withPosition positional_proceeds
      (fun _ _ hst => ⟨h.enter hst.1, hst.2⟩)
      fun _ _ _ _ hst huv => huv.imp (fun huv => h.restore hst.1 huv)
        fun huv => h.restoreBehind hst.1 huv
  rintro s t hst
  obtain ⟨hs, ht⟩ := h.ahead.sound hst.1
  rw [context_eq ids hs, context_eq ids ht]
  exact unfolded hst

theorem definition_success {s t u : State} {c : Collection} (hst : L s t)
    (hr : definition ids s = .success c u) (hu : Proceeds u) :
    ∃ v, definition ids t = .success c v ∧ Either L B u v := by
  have hchecked : L s.checkpoint t.checkpoint := h.ahead.withConsumed false hst
  obtain ⟨hs, ht⟩ := h.ahead.sound hchecked
  obtain ⟨u, rfl, hcases⟩ := furthest_eq_success.mp hr
  have hu' : Proceeds u := positional_proceeds rfl hu
  obtain ⟨v, hv, huv⟩ : ∃ v, (Source.context ids t.checkpoint = .success c v ∨
      ∃ e w, Source.context ids t.checkpoint = .failure e w ∧
        Source.role (t.checkpoint.rewindFrom w) = .success c v) ∧ Either L B u v := by
    rcases hcases with hcontext | ⟨e, w, hcontext, hrole⟩
    · obtain ⟨v, hv, huv⟩ := (hcontext ▸ h.context hchecked).exists_success hu'
      exact ⟨v, .inl hv, huv⟩
    · have hstands : ¬ (Source.role (s.checkpoint.rewindFrom w)).Strays Proceeds := by
        rw [hrole]
        exact not_not_intro hu'
      rw [context_eq ids hs] at hcontext
      obtain ⟨e', x, hx, hd⟩ := h.givenUp hchecked hcontext hstands
      rw [← context_eq ids ht] at hx
      obtain ⟨v, hv, huv⟩ := (hrole ▸ h.role (h.ahead.rewindFrom w x hchecked hd)).exists_success
        trivial
      exact ⟨v, .inr ⟨e', x, hx, hv⟩, huv⟩
  refine ⟨_, furthest_eq_success.mpr ⟨v, rfl, hv⟩, ?_⟩
  rw [h.ahead.consumed hst, h.after.consumed huv]
  exact h.after.withConsumed _ huv

end Rules

end Ample

end ContextRoles.Source
