import ContextRoles.Proofs.Model.Renaming
import ContextRoles.Proofs.Parsing.Agreement
import ContextRoles.Proofs.Source.Coherence

/-! # Reading under other ids

Nothing depends on which ids are generated as long as they are fresh: a source that is read with ids from
two supplies is refused with the same error, or read as collections that differ in the generated ids
alone. Abandoned branches draw from both supplies alike.
-/

namespace ContextRoles.Source

open Parsing Lexeme
open ContextRoles.Parsing.Parser hiding some

variable {ids ids' : Nat → String} {lo hi n : Nat}

section Reissue

/-- The id of the second supply in place of one that the first supply issued between `lo` and `hi`. -/
def reissue (ids ids' : Nat → String) (lo hi : Nat) (id : String) : String :=
  match (List.range hi).find? fun i => lo ≤ i ∧ ids i = id with
  | some i => ids' i
  | none => id

def Issued (ids : Nat → String) (lo hi : Nat) (id : String) : Prop :=
  Hyphenless id ∨ Generated ids lo hi id

theorem reissue_of_hyphenless (hf : FreshIds ids lo hi) {id : String} (h : Hyphenless id) :
    reissue ids ids' lo hi id = id := by
  have hnone : ((List.range hi).find? fun i => lo ≤ i ∧ ids i = id) = none := by
    rw [List.find?_eq_none]
    intro i hi hid
    obtain ⟨hlo, rfl⟩ := of_decide_eq_true hid
    exact hf.hyphen i (List.mem_range.mp hi) hlo h
  rw [reissue, hnone]

theorem reissue_ids (hf : FreshIds ids lo hi) {i : Nat} (hlo : lo ≤ i) (hhi : i < hi) :
    reissue ids ids' lo hi (ids i) = ids' i := by
  rw [reissue]
  cases hfind : (List.range hi).find? fun j => lo ≤ j ∧ ids j = ids i with
  | some j =>
    have hfound := List.find?_some hfind
    obtain ⟨hj, e⟩ := of_decide_eq_true hfound
    obtain rfl := hf.distinct j (List.mem_range.mp (List.mem_of_find?_eq_some hfind)) i hhi hj hlo e
    rfl
  | none =>
    rw [List.find?_eq_none] at hfind
    exact absurd (decide_eq_true ⟨hlo, rfl⟩) (hfind i (List.mem_range.mpr hhi))

theorem renaming_reissue (hf : FreshIds ids lo hi) (hf' : FreshIds ids' lo hi) :
    Renaming (reissue ids ids' lo hi) (Issued ids lo hi) Hyphenless where
  fixed _ := reissue_of_hyphenless hf
  known _ := .inl
  injective := by
    rintro k k' (hk | ⟨i, hi, hlo, rfl⟩) (hk' | ⟨j, hj, hlo', rfl⟩) he
    · rwa [reissue_of_hyphenless hf hk, reissue_of_hyphenless hf hk'] at he
    · rw [reissue_of_hyphenless hf hk, reissue_ids hf hlo' hj] at he
      exact absurd (he ▸ hk) (hf'.hyphen j hj hlo')
    · rw [reissue_of_hyphenless hf hk', reissue_ids hf hlo hi] at he
      exact absurd (he ▸ hk') (hf'.hyphen i hi hlo)
    · rw [reissue_ids hf hlo hi, reissue_ids hf hlo' hj] at he
      rw [hf'.distinct i hi j hj hlo hlo' he]

end Reissue

section Building

variable {ρ : String → String} {K N : String → Prop} {c c' : Collection}

/-- A definition under its name, before and after a renaming. -/
structure Defined (ρ : String → String) (K N : String → Prop) (c c' : Collection) : Prop where
  renamed : c.Renamed ρ K N c'
  name : N c.name

/-- A target by a name that the renaming leaves alone. -/
structure Targets (ρ : String → String) (K N : String → Prop) (t t' : Target) : Prop where
  same : t'.id = t.id
  name : N t.id
  known : OrderedMap.Known ρ K (Entity.rename ρ) t.entities t'.entities
  standing : t.entities.All (Entity.Standing K N)

theorem targets_named {name : String} (h : N (localName name)) :
    Targets ρ K N (.named name) (.named name) :=
  ⟨rfl, h, .empty, OrderedMap.all_empty⟩

variable (hρ : Renaming ρ K N)
include hρ

theorem Defined.target (h : Defined ρ K N c c') {e : Entity} (he : c.entities.get? c.name = some e) :
    ∃ e', c'.entities.get? c'.name = some e' ∧
      Targets ρ K N ⟨bindingId e, c.entities⟩ ⟨bindingId e', c'.entities⟩ := by
  have hname : c'.name = c.name := h.renamed.name.trans (hρ.fixed h.name)
  have hget := h.renamed.get?_name hρ h.name
  rw [he, ← hname] at hget
  refine ⟨_, hget, ?_, ?_, h.renamed.known, h.renamed.standing⟩
  all_goals have hstands := h.renamed.standing c.name e he
  · cases e with
    | role r =>
      change ρ r.id = r.id
      exact hρ.fixed (hstands.1 ▸ h.name)
    | context x => rfl
  · cases e with
    | role r =>
      change N r.id
      exact hstands.1 ▸ h.name
    | context x => exact hstands

theorem rename_bare {r : Role} (h : N r.id) (hf : r.filledRoles = .empty) :
    (Entity.role r).rename ρ = .role r := by
  obtain ⟨id, typeName, binding, context, properties, filledRoles, occurrence⟩ := r
  subst hf
  change Entity.role ⟨ρ id, _, _, _, _, .empty, _⟩ = _
  rw [hρ.fixed h]

theorem defined_buildRole {declaration : TypeDeclaration} (assignments : List (String × String))
    (h : N (localName declaration.instanceName)) :
    Defined ρ K N (buildRole declaration assignments) (buildRole declaration assignments) := by
  let role : Role :=
    { id := localName declaration.instanceName, typeName := declaration.typeName,
      properties := collect assignments }
  have hknown := (OrderedMap.Known.empty (f := Entity.rename ρ)).insert hρ (hρ.known h)
    (Entity.role role)
  have hrole : (Entity.role role).rename ρ = .role role := rename_bare hρ h rfl
  rw [hρ.fixed h, hrole] at hknown
  exact ⟨⟨(hρ.fixed h).symm, hknown, OrderedMap.all_empty.insert ⟨rfl, nofun, OrderedMap.all_empty⟩⟩, h⟩

theorem renamed_buildRoleBinding {id contextId typeName : String} {occurrence : Option Nat}
    {t t' : Target} {assignments : List (String × String)} (h : Targets ρ K N t t') (hid : K id) :
    (buildRoleBinding id contextId typeName occurrence t assignments).Renamed ρ K N
      (buildRoleBinding (ρ id) contextId typeName occurrence t' assignments) := by
  let role : Role :=
    { id, typeName, binding := t.id, context := contextId, properties := collect assignments,
      occurrence := occurrence.map Int.ofNat }
  have hknown := h.known.insert hρ hid (.role role)
  refine ⟨rfl, ?_, h.standing.insert ⟨rfl, ?_, OrderedMap.all_empty⟩⟩
  · unfold buildRoleBinding
    rw [h.same]
    exact hknown
  · rintro b ⟨⟩
    exact h.name

theorem renamed_mergeAll {cs cs' : List Collection}
    (h : List.Forall₂ (fun c c' : Collection => c.Renamed ρ K N c') cs cs') :
    OrderedMap.Known ρ K (Entity.rename ρ) (.mergeAll (cs.map Collection.entities))
        (.mergeAll (cs'.map Collection.entities)) ∧
      (OrderedMap.mergeAll (cs.map Collection.entities)).All (Entity.Standing K N) := by
  constructor
  · refine OrderedMap.known_mergeAll hρ ?_
    rw [List.forall₂_map_left_iff, List.forall₂_map_right_iff]
    exact h.imp fun _ _ hc => hc.known
  · refine OrderedMap.all_mergeAll (List.forall_mem_map.mpr fun c hc => ?_)
    induction h with
    | nil => cases hc
    | cons h _ ih =>
      rcases List.mem_cons.mp hc with rfl | hc
      · exact h.standing
      · exact ih hc

theorem defined_buildContext {declaration : TypeDeclaration}
    {publicAssignments privateAssignments : List (String × String)} {cs cs' : List Collection}
    (hid : N (localName declaration.instanceName))
    (houter : N (outerRoleId (localName declaration.instanceName)))
    (h : List.Forall₂ (fun c c' : Collection => c.Renamed ρ K N c') cs cs') :
    Defined ρ K N (buildContext declaration publicAssignments privateAssignments cs)
      (buildContext declaration publicAssignments privateAssignments cs') := by
  have hroles : cs'.map Collection.name = (cs.map Collection.name).map ρ := by
    induction h with
    | nil => rfl
    | cons h _ ih => rw [List.map_cons, List.map_cons, List.map_cons, h.name, ih]
  obtain ⟨hknown, hstanding⟩ := renamed_mergeAll hρ h
  let outer : Role :=
    { id := outerRoleId (localName declaration.instanceName), typeName := outerRoleType,
      context := localName declaration.instanceName, properties := collect publicAssignments }
  let inner : InnerRole :=
    { id := innerRoleId (localName declaration.instanceName), binding := outer.id,
      properties := collect privateAssignments }
  let context (cs : List Collection) : Context :=
    { id := localName declaration.instanceName, typeName := declaration.typeName,
      innerRole := inner, outerRole := outer.id, roles := cs.map Collection.name }
  have hcontext : (Entity.context (context cs)).rename ρ = .context (context cs') := by
    simp only [Entity.rename, context, hroles]
  have hrole : (Entity.role outer).rename ρ = .role outer := rename_bare hρ houter rfl
  have hbuilt := (hknown.insert hρ (hρ.known houter) (.role outer)).insert hρ (hρ.known hid)
    (.context (context cs))
  rw [hρ.fixed houter, hρ.fixed hid, hcontext, hrole] at hbuilt
  refine ⟨⟨(hρ.fixed hid).symm, hbuilt, (hstanding.insert ?_).insert ?_⟩, hid⟩
  · exact ⟨rfl, by simp, OrderedMap.all_empty⟩
  · exact houter

theorem defined_buildText {name : String} {cs cs' : List Collection} (hid : N (localName name))
    (h : List.Forall₂ (fun c c' : Collection => c.Renamed ρ K N c') cs cs') :
    Defined ρ K N (buildText name cs) (buildText name cs') :=
  have ⟨hknown, hstanding⟩ := renamed_mergeAll hρ h
  ⟨⟨(hρ.fixed hid).symm, hknown, hstanding⟩, hid⟩

end Building

section Grammar

variable {self self' : Parser Collection}

abbrev Redefined (ids ids' : Nat → String) (lo hi : Nat) : Collection → Collection → Prop :=
  Defined (reissue ids ids' lo hi) (Issued ids lo hi) Hyphenless

abbrev Retargeted (ids ids' : Nat → String) (lo hi : Nat) : Target → Target → Prop :=
  Targets (reissue ids ids' lo hi) (Issued ids lo hi) Hyphenless

def Rebound (ids ids' : Nat → String) (lo hi : Nat) (b b' : Binding) : Prop :=
  ∃ target, b' = { b with target } ∧ Retargeted ids ids' lo hi b.target target

theorem reissues_freshId (hf : FreshIds ids lo hi) :
    Agree lo n hi (fun id id' => Generated ids lo hi id ∧ id' = reissue ids ids' lo hi id)
      (freshId ids) (freshId ids') := by
  rintro s t hst
  obtain rfl := hst.same
  refine .success ⟨hst.reaches ((framed_freshId ids).success (s := t) rfl), fun hhi => ?_⟩
  exact ⟨⟨t.drawn, hhi, hst.drawn_le, rfl⟩, (reissue_ids hf hst.drawn_le hhi).symm⟩

variable (hf : FreshIds ids lo hi) (hf' : FreshIds ids' lo hi)
include hf hf'

theorem reissues_role : Agree lo n hi (Redefined ids ids' lo hi) role role := by
  have hρ := renaming_reissue hf hf'
  have hrole : Yields role fun c => Redefined ids ids' lo hi c c :=
    .withPosition (yields_declaration.bind_left fun _ hd => .bind fun _ =>
      .pure (defined_buildRole hρ _ hd))
  exact .of_yields advancing_role.framed hrole fun _ => id

theorem reissues_bindingTarget (h : Agree lo n hi (Redefined ids ids' lo hi) self self')
    (hframed : Framed self) (hnamed : Yields self Named) (hnamed' : Yields self' Named) :
    Agree lo n hi (Retargeted ids ids' lo hi) (bindingTarget self) (bindingTarget self') := by
  have hρ := renaming_reissue hf hf'
  have framed : Framed ((Parser.sameLine.then_ instanceName).map Target.named) :=
    (((Built.primitive .sameLine).then_ advancing_instanceName.plain).map _).framed_plain
  have named : Yields ((Parser.sameLine.then_ instanceName).map Target.named) fun target =>
      Retargeted ids ids' lo hi target target :=
    Yields.map (.bind fun _ => yields_hyphenless) fun _ hx => targets_named hx
  have nested := (h.attempt.alt hframed.attempt (reissues_role hf hf')).then_ Framed.indented
  refine .alt framed (.of_yields framed named fun _ => id) (.bind_of_yields (P := Named)
    (Q := Named) (.bind fun _ => hnamed.attempt.alt yields_role)
    (.bind fun _ => hnamed'.attempt.alt yields_role) (fun _ => (Built.require _).framed_plain) nested
    fun c c' hc hc' => ?_)
  obtain ⟨e, he⟩ := Option.isSome_iff_exists.mp hc
  obtain ⟨e', he'⟩ := Option.isSome_iff_exists.mp hc'
  simp only [Target.defined?, he, he', Option.map_some]
  refine .pure fun hcc => ?_
  obtain ⟨e'', hget, htarget⟩ := hcc.target hρ he
  cases he'.symm.trans hget
  exact htarget

theorem reissues_bindingWith (h : Agree lo n hi (Redefined ids ids' lo hi) self self')
    (hframed : Framed self) (hnamed : Yields self Named) (hnamed' : Yields self' Named) :
    Agree lo n hi (Rebound ids ids' lo hi) (bindingWith self) (bindingWith self') := by
  have occurrence := (plain_roleOccurrence.map some).option none
  have arrow := (Built.sameOrIndented.then_ advancing_arrow.plain).framed_plain
  have body := advancing_rolePropertyAssignment.plain_indentedBlock.framed_plain
  refine .withPosition (.bind_left advancing_propertyName.framed fun _ =>
    .bind_left occurrence.framed_plain fun _ => ?_)
  refine .bind (fun _ => body.bind fun _ => .primitive (.pure _))
    ((reissues_bindingTarget hf hf' h hframed hnamed hnamed').then_ arrow) fun target target' => ?_
  exact .bind_left body fun _ => .pure fun htarget => ⟨target', rfl, htarget⟩

theorem reissues_roleBindingWith (contextId : String)
    (h : Agree lo n hi (Redefined ids ids' lo hi) self self') (hframed : Framed self)
    (hnamed : Yields self Named) (hnamed' : Yields self' Named) :
    Agree lo n hi
      (fun c c' => c.Renamed (reissue ids ids' lo hi) (Issued ids lo hi) Hyphenless c')
      (roleBindingWith ids self contextId) (roleBindingWith ids' self' contextId) := by
  have hρ := renaming_reissue hf hf'
  refine .bind (fun _ => (framed_freshId ids).bind fun _ => .primitive (.pure _))
    (reissues_bindingWith hf hf' h hframed hnamed hnamed') fun b b' => ?_
  refine .bind (fun _ => .primitive (.pure _)) (reissues_freshId hf) fun id id' => ?_
  refine .pure fun hid hb => ?_
  obtain ⟨hgenerated, rfl⟩ := hid
  obtain ⟨target, rfl, htarget⟩ := hb
  exact renamed_buildRoleBinding hρ htarget (.inr hgenerated)

theorem reissues_contextBody {declaration : TypeDeclaration}
    (hd : Hyphenless (localName declaration.instanceName))
    (h : Agree lo n hi (Redefined ids ids' lo hi) self self') (hframed : Framed self)
    (hframed' : Framed self') (hnamed : Yields self Named) (hnamed' : Yields self' Named) :
    Agree lo n hi (Redefined ids ids' lo hi) (contextBody ids self declaration)
      (contextBody ids' self' declaration) := by
  have hρ := renaming_reissue hf hf'
  have houter : Hyphenless (outerRoleId (localName declaration.instanceName)) :=
    hd.append (by decide)
  refine .bind_left advancing_publicAssignment.plain_indentedBlock.framed_plain fun _ =>
    .bind_left advancing_privateAssignment.plain_indentedBlock.framed_plain fun _ => ?_
  refine .bind (fun _ => .primitive (.pure _))
    ((reissues_roleBindingWith hf hf' _ h hframed hnamed hnamed').indentedBlock
      (framed_roleBindingWith hframed _) (framed_roleBindingWith hframed' _)
      (consuming_roleBindingWith hframed _) (consuming_roleBindingWith hframed' _))
    fun cs cs' => .pure fun hcs => ?_
  exact defined_buildContext hρ hd houter hcs

theorem reissues_context (n : Nat) :
    Agree lo n hi (Redefined ids ids' lo hi) (context ids) (context ids') := by
  refine .of_body (fun _ => context_eq ids) (fun _ => context_eq ids') (fun n h => ?_) n
  exact .withPosition (.bind_header advancing_typeDeclaration.framed
    advancing_typeDeclaration.consuming yields_declaration fun _ hd =>
    reissues_contextBody hf hf' hd h (framed_context ids) (framed_context ids') (yields_context ids)
      (yields_context ids'))

theorem reissues_definition :
    Agree lo n hi (Redefined ids ids' lo hi) (definition ids) (definition ids') :=
  .furthest (framed_context ids) advancing_role.framed (reissues_context hf hf' n)
    (reissues_role hf hf')

theorem reissues_text : Agree lo n hi (Redefined ids ids' lo hi) (text ids) (text ids') := by
  have hρ := renaming_reissue hf hf'
  have header : Framed ((language.reserved "Text").then_ instanceName) :=
    ((advancing_reserved (by decide)).plain.then_ advancing_instanceName.plain).framed_plain
  refine .withPosition (.bind_left_of_yields header (.bind fun _ => yields_hyphenless)
    fun name hname => ?_)
  refine .bind (fun _ => .primitive (.pure _))
    ((reissues_definition hf hf').block (framed_definition ids) (framed_definition ids')
      (consuming_definition ids) (consuming_definition ids')) fun cs cs' => .pure fun hcs => ?_
  exact defined_buildText hρ hname (hcs.imp fun _ _ hc => hc.renamed)

theorem reissues_sourceFile :
    Agree lo n hi (Redefined ids ids' lo hi) (sourceFile ids) (sourceFile ids') := by
  have ending : Framed endOfDefinition := (built_endOfDefinition (E := Framed)).framed id
  have framed : Framed ((text ids).skip .endOfInput) :=
    ((built_text (E := Framed) (framed_freshId ids)).skip (.primitive .endOfInput)).framed id
  exact .then_ Language.plain_whiteSpace.framed_plain (.alt framed
    ((reissues_text hf hf').skip (.primitive .endOfInput)) ((reissues_definition hf hf').skip ending))

end Grammar

section Reading

/-- A source is refused with one error under both supplies, or read as collections with the same entities
in the same order, but for the ids that were generated. As many ids are drawn from one supply as from the
other. -/
theorem read_reissued {drawn : Nat} {source : String}
    (hf : FreshIds ids drawn (read ids drawn source).drawn)
    (hf' : FreshIds ids' drawn (read ids drawn source).drawn) :
    (read ids' drawn source).drawn = (read ids drawn source).drawn ∧
    (read ids' drawn source).result.map (fun c => (c.name, c.entities.entries)) =
      (read ids drawn source).result.map fun c =>
        (c.name, c.entities.entries.map fun (key, entity) =>
          (reissue ids ids' drawn (read ids drawn source).drawn key,
            entity.rename (reissue ids ids' drawn (read ids drawn source).drawn))) := by
  have hρ := renaming_reissue hf hf'
  generalize hhi : (read ids drawn source).drawn = hi at hf hf' hρ ⊢
  have start : Together drawn (source.toList.length + 1) { State.start source with drawn }
      { State.start source with drawn } :=
    ⟨rfl, State.sound_start source, Nat.le_refl _, Nat.lt_succ_self _⟩
  unfold read at hhi ⊢
  rcases (reissues_sourceFile hf hf' start).kinds with
    ⟨c, c', t, t', hc, hc', htt, hV⟩ | ⟨e, e', t, t', he, he', heq, -, hd⟩ | ⟨hs, hs'⟩
  · simp only [hc] at hhi
    have hcc := hV (Nat.le_of_eq hhi)
    have hname : c'.name = c.name := hcc.renamed.name.trans (hρ.fixed hcc.name)
    have hentries := (hcc.renamed.linkFilledRoles hρ).known.renamed
    simp only [hc, hc', Except.map, Collection.name_linkFilledRoles, hname]
    exact ⟨(congrArg State.drawn htt.same).trans hhi, congrArg (fun x => Except.ok (c.name, x)) hentries⟩
  · simp only [he] at hhi
    simp only [he, he', heq]
    exact ⟨hd.trans hhi, rfl⟩
  · simp only [hs] at hhi
    simp only [hs, hs']
    exact ⟨hhi, rfl⟩

def trailing (n : Nat) : String := String.ofList (List.replicate n 'j' ++ ['-'])

theorem read_reissued_overwriting :
    FreshIds tally 0 (read tally 0 overwriting).drawn ∧
    FreshIds trailing 0 (read tally 0 overwriting).drawn ∧
    (read tally 0 overwriting).result = .ok overwritten ∧
    (read trailing 0 overwriting).result.map (fun c => (c.name, c.entities.entries)) =
      .ok ("A", overwritten.entities.entries.map fun (key, entity) =>
        (reissue tally trailing 0 3 key, entity.rename (reissue tally trailing 0 3))) := by
  have hdrawn := read_overwriting.2
  have hr := result_eq_ok read_overwriting.1
  have hf : FreshIds tally 0 (read tally 0 overwriting).drawn := hdrawn ▸ freshIds_tally
  have hf' : FreshIds trailing 0 (read tally 0 overwriting).drawn := by
    rw [hdrawn]
    exact ⟨by decide, by decide⟩
  have reissued := (read_reissued hf hf').2
  rw [hr, hdrawn] at reissued
  exact ⟨hf, hf', hr, reissued⟩

end Reading

end ContextRoles.Source
