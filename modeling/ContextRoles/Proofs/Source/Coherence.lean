import ContextRoles.Proofs.Source.Drawing
import ContextRoles.Proofs.Source.Formation

/-! # What is read refers to itself consistently

Every rule of the grammar yields well-formed entities under the ids that were drawn while it ran, also
in branches that were abandoned. So contexts list the bound roles that belong to them, and bound roles
are exactly those under generated ids.
-/

namespace ContextRoles.Source

open Parsing Lexeme
open ContextRoles.Parsing.Parser hiding some

variable {ids : Nat → String} {self : Parser Collection}

/-- Well-formed entities under the ids of some draws, if these are fresh. -/
def FormedBy (ids : Nat → String) (lo hi : Nat) (m : OrderedMap Entity) : Prop :=
  FreshIds ids lo hi → Formed (Generated ids lo hi) nobody m

/-- What a definition draws: well-formed entities under a name of its own. -/
def DefinedBy (ids : Nat → String) (lo hi : Nat) (c : Collection) : Prop :=
  Hyphenless c.name ∧ FormedBy ids lo hi c.entities

def TargetBy (ids : Nat → String) (lo hi : Nat) (target : Target) : Prop :=
  FreshIds ids lo hi → Hyphenless target.id ∧ Formed (Generated ids lo hi) nobody target.entities

/-- What a role binding draws: a bound role and the entities of its target. -/
def BoundBy (ids : Nat → String) (contextId : String) (lo hi : Nat) (c : Collection) : Prop :=
  FreshIds ids lo hi → Holds (Generated ids lo hi) (· = contextId) [c.name] c.entities

section Widening

theorem widening_formedBy (f : α → OrderedMap Entity) :
    Widening fun lo hi (a : α) => FormedBy ids lo hi (f a) := fun _ _ _ _ _ hlo hhi h hf =>
  (h (hf.mono hlo hhi)).mono (fun _ hg => hg.mono hlo hhi) fun _ => .inl

theorem widening_definedBy : Widening (DefinedBy ids) := fun _ _ _ _ c hlo hhi h =>
  ⟨h.1, widening_formedBy Collection.entities (a := c) hlo hhi h.2⟩

theorem widening_targetBy (f : α → Target) :
    Widening fun lo hi (a : α) => TargetBy ids lo hi (f a) := fun _ _ _ _ _ hlo hhi h hf =>
  have hd := h (hf.mono hlo hhi)
  ⟨hd.1, hd.2.mono (fun _ hg => hg.mono hlo hhi) fun _ => .inl⟩

theorem widening_boundBy {contextId : String} : Widening (BoundBy ids contextId) :=
  fun _ _ _ _ _ hlo hhi h hf =>
  have hb := h (hf.mono hlo hhi)
  ⟨hb.formed.mono (fun _ hg => hg.mono hlo hhi) fun _ => .inl, hb.listed⟩

end Widening

section Grammar

theorem yields_role_formed :
    Yields role fun c => Hyphenless c.name ∧ ∀ generated, Formed generated nobody c.entities := by
  refine .withPosition (yields_declaration.bind_left fun _ hd => .bind fun assignments => .pure ?_)
  exact ⟨hd, fun _ => formed_buildRole assignments hd⟩

theorem draws_role : Draws role (DefinedBy ids) :=
  .of_yields yields_role_formed fun _ _ _ h => ⟨h.1, fun _ => h.2 _⟩

theorem draws_bindingTarget (h : Draws self (DefinedBy ids)) (hf : Framed self) :
    Draws (bindingTarget self) (TargetBy ids) := by
  refine .bindingTarget widening_definedBy (widening_targetBy id) hf h draws_role ?_ ?_
  · exact fun lo hi name hname _ => ⟨hname, formed_empty⟩
  · intro lo hi c target hc htarget fresh
    obtain ⟨e, he, rfl⟩ := Option.map_eq_some_iff.mp htarget
    have formed := hc.2 fresh
    exact ⟨formed.hyphenless_bindingId hc.1 he, formed⟩

theorem draws_roleBindingWith (contextId : String) (h : Draws self (DefinedBy ids))
    (hf : Framed self) : Draws (roleBindingWith ids self contextId) (BoundBy ids contextId) := by
  intro s c t hr fresh
  obtain ⟨b, u, hb, hr⟩ := bind_eq_success.mp hr
  obtain ⟨id, v, ⟨⟩, ⟨⟩⟩ := bind_eq_success.mp hr
  have hle := ((framed_bindingWith hf).success hb).drawn_le
  have target := (draws_bindingTarget h hf).bindingWith (widening_targetBy id)
  obtain ⟨hy, formed⟩ := target hb (fresh.mono (Nat.le_refl _) (Nat.le_succ _))
  exact holds_buildRoleBinding fresh hle formed hy

variable {pending : String → Prop} {lo mid hi : Nat} {names : List String} {m : OrderedMap Entity}

theorem holds_merges {f : Collection → List String} {cs : List Collection}
    (h : Holds (Generated ids lo mid) pending names m) (hlo : lo ≤ mid)
    (hcs : Rounds (fun lo hi c => FreshIds ids lo hi →
      Holds (Generated ids lo hi) pending (f c) c.entities) mid hi cs) (hf : FreshIds ids lo hi) :
    Holds (Generated ids lo hi) pending (names ++ cs.flatMap f)
      ((cs.map Collection.entities).foldl .merge m) := by
  induction hcs generalizing names m with
  | nil hle =>
    simpa using ⟨h.formed.mono (fun _ hg => hg.mono (Nat.le_refl _) hle) fun _ => .inl, h.listed⟩
  | @cons mid mid' hi c cs hle hc hrest ih =>
    have merged := h.merge (hf.mono (Nat.le_refl _) hrest.le) hlo hle (hc (hf.mono hlo hrest.le))
    simpa using ih merged (Nat.le_trans hlo hle) hf

theorem holds_mergeAll {f : Collection → List String} {cs : List Collection} (hf : FreshIds ids lo hi)
    (hcs : Rounds (fun lo hi c => FreshIds ids lo hi →
      Holds (Generated ids lo hi) pending (f c) c.entities) lo hi cs) :
    Holds (Generated ids lo hi) pending (cs.flatMap f)
      (.mergeAll (cs.map Collection.entities)) := by
  have merged := holds_merges holds_empty (Nat.le_refl _) hcs hf
  rwa [List.nil_append] at merged

theorem draws_contextWith (hf : Framed self) (h : Draws self (DefinedBy ids)) :
    Draws (contextWith ids self) (DefinedBy ids) := by
  refine .contextWith widening_definedBy (fun _ => widening_boundBy) hf
    (fun contextId => draws_roleBindingWith contextId h hf) fun publics privates hd hb =>
    ⟨hd, fun fresh => ?_⟩
  have holds := holds_mergeAll (f := fun c => [c.name]) fresh hb
  rw [← List.map_eq_flatMap] at holds
  exact formed_buildContext hd holds

theorem draws_definition : Draws (definition ids) (DefinedBy ids) :=
  .definition widening_definedBy (.context fun _ => draws_contextWith) draws_role

theorem draws_text : Draws (text ids) fun lo hi c => FormedBy ids lo hi c.entities := by
  refine .text widening_definedBy (widening_formedBy Collection.entities) draws_definition
    fun name hcs fresh => ?_
  have rounds := hcs.mono fun lo hi c hc (hf : FreshIds ids lo hi) =>
    (⟨hc.2 hf, .nil, nofun⟩ : Holds (Generated ids lo hi) nobody [] c.entities)
  exact (holds_mergeAll fresh rounds).formed

theorem draws_sourceFile : Draws (sourceFile ids) fun lo hi c => FormedBy ids lo hi c.entities :=
  .sourceFile (widening_formedBy Collection.entities) draws_text
    (draws_definition.mono fun _ _ _ h => h.2)

end Grammar

section Reading

/-- Keys are ids, contexts have an outer and an inner role that go by their id and list the bound roles
that belong to them, and the roles that are bound are those under generated ids. -/
structure Coherent (generated : String → Prop) (c : Collection) : Prop where
  id_eq : ∀ k e, c.entities.get? k = some e → e.id = k
  outerRole : ∀ x ∈ c.contexts, x.outerRole = x.id ++ "_buitenRol"
  innerRole : ∀ x ∈ c.contexts,
    x.innerRole.id = x.id ++ "_binnenRol" ∧ x.innerRole.binding = some x.outerRole
  listed : ∀ x ∈ c.contexts, ∀ id ∈ x.roles,
    generated id ∧ ∃ r, c.entities.get? id = some (.role r) ∧ r.context = x.id
  nodup : ∀ x ∈ c.contexts, x.roles.Nodup
  disjoint : ∀ x ∈ c.contexts, ∀ y ∈ c.contexts, x ≠ y → ∀ id ∈ x.roles, id ∉ y.roles
  bound_iff : ∀ r ∈ c.roles, r.binding.isSome = true ↔ generated r.id
  owned : ∀ r ∈ c.roles, generated r.id → c.entities.contains r.context = true

variable {generated : String → Prop} {c : Collection}

theorem Formed.role {pending : String → Prop} (h : Formed generated pending c.entities) {r : Role}
    (hr : r ∈ c.roles) :
    c.entities.get? r.id = some (.role r) ∧ RoleFormed generated pending c.entities r := by
  obtain ⟨k, hk⟩ := Collection.mem_roles.mp hr
  obtain ⟨rfl, formed⟩ := h k _ hk
  exact ⟨hk, formed⟩

theorem Formed.context {pending : String → Prop} (h : Formed generated pending c.entities)
    {x : Context} (hx : x ∈ c.contexts) :
    c.entities.get? x.id = some (.context x) ∧ ContextFormed c.entities x := by
  obtain ⟨k, hk⟩ := Collection.mem_contexts.mp hx
  obtain ⟨rfl, formed⟩ := h k _ hk
  exact ⟨hk, formed⟩

theorem Formed.coherent (h : Formed generated nobody c.entities)
    (hg : ∀ id, generated id → ¬ Hyphenless id) : Coherent generated c where
  id_eq k e hk := (h k e hk).1
  outerRole x hx := (h.context hx).2.outerRole
  innerRole x hx := ⟨(h.context hx).2.innerRole, (h.context hx).2.innerBinding⟩
  listed x hx id hid := by
    obtain ⟨hy, r, hr, hc⟩ := (h.context hx).2.roles.role id hid
    exact ⟨h.generated_of_contains hy (OrderedMap.contains_iff.mpr ⟨_, hr⟩), r, hr, hc⟩
  nodup x hx := (h.context hx).2.roles.nodup
  disjoint x hx y hy hne id hid hid' := by
    obtain ⟨-, r, hr, hc⟩ := (h.context hx).2.roles.role id hid
    obtain ⟨-, r', hr', hc'⟩ := (h.context hy).2.roles.role id hid'
    obtain rfl : r = r' := by simpa [hr] using hr'
    have hget := (h.context hx).1
    rw [← hc, hc', (h.context hy).1] at hget
    exact hne (by simpa using hget.symm)
  bound_iff r hr := by
    have formed := (h.role hr).2
    exact formed.bound_iff.trans ⟨formed.generated, hg _⟩
  owned r hr hid := ((h.role hr).2.owned (hg _ hid)).elim False.elim id

variable {drawn : Nat} {source : String}

theorem formed_of_read (h : (read ids drawn source).result = .ok c)
    (hf : FreshIds ids drawn (read ids drawn source).drawn) :
    Formed (Generated ids drawn (read ids drawn source).drawn) nobody c.entities := by
  unfold read at h hf ⊢
  cases hr : sourceFile ids { State.start source with drawn } with
  | success d t =>
    simp only [hr, Except.ok.injEq] at h hf ⊢
    exact h ▸ formed_linkFilledRoles (draws_sourceFile hr hf)
  | failure e t => simp [hr] at h
  | stalled => simp [hr] at h

theorem read_coherent (h : (read ids drawn source).result = .ok c)
    (hf : FreshIds ids drawn (read ids drawn source).drawn) :
    Coherent (Generated ids drawn (read ids drawn source).drawn) c :=
  (formed_of_read h hf).coherent fun _ hg => hg.hyphen hf

/-- A context whose outer role goes by the id of a context that is defined inside it. -/
def overwriting : String :=
  ":A :B\n  :r => :X\n  :q =>\n    :A_buitenRol :C\n      :t => :Y\n"

def tally (n : Nat) : String := String.ofList ('-' :: List.replicate n 'i')

/-- What is left of it: the role bound in the inner context belongs to the outer role by now. -/
def overwritten : Collection where
  name := "A"
  entities := .ofList [("-", bound "-" ":r" "X" "A"), ("-i", bound "-i" ":t" "Y" "A_buitenRol"),
    ("A_buitenRol_buitenRol", outer "A_buitenRol" (.ofList [(":q", ["-ii"])])),
    ("A_buitenRol", outer "A" .empty), ("-ii", bound "-ii" ":q" "A_buitenRol_buitenRol" "A"),
    ("A", .context
      { id := "A", typeName := ":B", outerRole := "A_buitenRol", roles := ["-", "-ii"],
        innerRole := ⟨"A_binnenRol", some "A_buitenRol", .empty⟩ })]
where
  bound (id typeName filler contextId : String) : Entity :=
    .role ⟨id, typeName, some filler, contextId, .empty, .empty, none⟩
  outer (contextId : String) (filled : OrderedMap (List String)) : Entity :=
    .role ⟨outerRoleId contextId, outerRoleType, none, contextId, .empty, filled, none⟩

theorem read_overwriting : (read tally 0 overwriting).result.toOption = some overwritten ∧
    (read tally 0 overwriting).drawn = 3 := by decide +kernel

theorem result_eq_ok {ε α : Type} {r : Except ε α} {a : α} (h : r.toOption = some a) : r = .ok a := by
  cases r with
  | error e => cases h
  | ok b =>
    cases h
    rfl

theorem freshIds_tally : FreshIds tally 0 3 := ⟨by decide, by decide⟩

theorem read_coherent_overwriting :
    (read tally 0 overwriting).result = .ok overwritten ∧
      FreshIds tally 0 (read tally 0 overwriting).drawn ∧
      Coherent (Generated tally 0 (read tally 0 overwriting).drawn) overwritten := by
  have hr := result_eq_ok read_overwriting.1
  have hf : FreshIds tally 0 (read tally 0 overwriting).drawn := by
    rw [read_overwriting.2]
    exact freshIds_tally
  exact ⟨hr, hf, read_coherent hr hf⟩

end Reading

end ContextRoles.Source
