import ContextRoles.Proofs.Model.Linking
import ContextRoles.Proofs.Source.Naming
import ContextRoles.Source.Building

/-! # Well-formed entities

Roles under generated ids are bound and belong to a context, all others are not bound. Generated ids
have a hyphen and ids from names have none, so definitions that share a name replace each other but
never a bound role. The invariant is kept by every way to build, to merge and to link collections.
-/

namespace ContextRoles.Source

/-- The ids of a range are distinct and have a hyphen. -/
structure FreshIds (ids : Nat → String) (lo hi : Nat) : Prop where
  distinct : ∀ i < hi, ∀ j < hi, lo ≤ i → lo ≤ j → ids i = ids j → i = j
  hyphen : ∀ i < hi, lo ≤ i → ¬ Hyphenless (ids i)

def Generated (ids : Nat → String) (lo hi : Nat) (id : String) : Prop :=
  ∃ i < hi, lo ≤ i ∧ ids i = id

section Ranges

variable {ids : Nat → String} {lo lo' mid hi' hi : Nat} {id : String}

theorem FreshIds.mono (h : FreshIds ids lo hi) (hlo : lo ≤ lo') (hhi : hi' ≤ hi) :
    FreshIds ids lo' hi' where
  distinct i hi j hj hi' hj' := h.distinct i (by omega) j (by omega) (by omega) (by omega)
  hyphen i hi hi' := h.hyphen i (by omega) (by omega)

theorem Generated.mono (h : Generated ids lo' hi' id) (hlo : lo ≤ lo') (hhi : hi' ≤ hi) :
    Generated ids lo hi id := by
  obtain ⟨i, hi, hi', rfl⟩ := h
  exact ⟨i, by omega, by omega, rfl⟩

theorem Generated.hyphen (h : Generated ids lo hi id) (hf : FreshIds ids lo hi) :
    ¬ Hyphenless id := by
  obtain ⟨i, hi, hi', rfl⟩ := h
  exact hf.hyphen i hi hi'

theorem FreshIds.apart (h : FreshIds ids lo hi) (hl : Generated ids lo mid id)
    (hr : Generated ids mid hi id) : False := by
  obtain ⟨i, hi, hi', rfl⟩ := hl
  obtain ⟨j, hj, hj', e⟩ := hr
  have := h.distinct j hj i (by omega) (by omega) hi' e
  omega

end Ranges

section Entities

/-- Whether every key of `m` stays a key, and every bound role stays one of the same context. -/
structure Extends (m m' : OrderedMap Entity) : Prop where
  contains : ∀ k, m.contains k = true → m'.contains k = true
  role : ∀ k r, ¬ Hyphenless k → m.get? k = some (.role r) →
    ∃ r', m'.get? k = some (.role r') ∧ r'.context = r.context

/-- A role is bound when its id is generated. The context that it belongs to may be pending. -/
structure RoleFormed (generated pending : String → Prop) (m : OrderedMap Entity) (r : Role) :
    Prop where
  bound_iff : r.binding.isSome = true ↔ ¬ Hyphenless r.id
  filler : ∀ b ∈ r.binding, Hyphenless b
  generated : ¬ Hyphenless r.id → generated r.id
  owned : ¬ Hyphenless r.id → pending r.context ∨ m.contains r.context = true

/-- Different ids of bound roles whose contexts have a property. -/
structure Listed (P : String → Prop) (m : OrderedMap Entity) (ids : List String) : Prop where
  nodup : ids.Nodup
  role : ∀ id ∈ ids, ¬ Hyphenless id ∧ ∃ r, m.get? id = some (.role r) ∧ P r.context

structure ContextFormed (m : OrderedMap Entity) (x : Context) : Prop where
  hyphenless : Hyphenless x.id
  outerRole : x.outerRole = outerRoleId x.id
  innerRole : x.innerRole.id = innerRoleId x.id
  innerBinding : x.innerRole.binding = some x.outerRole
  contains : m.contains x.outerRole = true
  roles : Listed (· = x.id) m x.roles

def EntityFormed (generated pending : String → Prop) (m : OrderedMap Entity) : Entity → Prop
  | .role r => RoleFormed generated pending m r
  | .context x => ContextFormed m x

/-- Every entity stands under its id and refers to what it should. -/
def Formed (generated pending : String → Prop) (m : OrderedMap Entity) : Prop :=
  ∀ k e, m.get? k = some e → e.id = k ∧ EntityFormed generated pending m e

def nobody : String → Prop := fun _ => False

variable {generated generated' pending pending' : String → Prop} {m m' n : OrderedMap Entity}
  {k : String} {e : Entity} {names names' : List String}

theorem Extends.refl (m : OrderedMap Entity) : Extends m m :=
  ⟨fun _ h => h, fun _ r _ h => ⟨r, h, rfl⟩⟩

theorem Listed.mono (h : Listed pending m names) (hm : Extends m m') : Listed pending m' names where
  nodup := h.nodup
  role id hid := by
    obtain ⟨hyphen, r, hr, hc⟩ := h.role id hid
    obtain ⟨r', hr', e⟩ := hm.role id r hyphen hr
    exact ⟨hyphen, r', hr', e ▸ hc⟩

theorem EntityFormed.mono (h : EntityFormed generated pending m e) (hm : Extends m m')
    (hg : ∀ id, generated id → generated' id)
    (hp : ∀ id, pending id → pending' id ∨ m'.contains id = true) :
    EntityFormed generated' pending' m' e := by
  cases e with
  | role r =>
    have hr : RoleFormed generated pending m r := h
    exact ⟨hr.bound_iff, hr.filler, fun hy => hg _ (hr.generated hy), fun hy =>
      (hr.owned hy).elim (hp _) fun hc => .inr (hm.contains _ hc)⟩
  | context x =>
    have hx : ContextFormed m x := h
    exact ⟨hx.hyphenless, hx.outerRole, hx.innerRole, hx.innerBinding, hm.contains _ hx.contains,
      hx.roles.mono hm⟩

theorem Formed.mono (h : Formed generated pending m) (hg : ∀ id, generated id → generated' id)
    (hp : ∀ id, pending id → pending' id ∨ m.contains id = true) :
    Formed generated' pending' m := fun k e hk =>
  ⟨(h k e hk).1, (h k e hk).2.mono (.refl m) hg hp⟩

theorem Formed.generated_of_contains (h : Formed generated pending m) (hk : ¬ Hyphenless k)
    (hm : m.contains k = true) : generated k := by
  obtain ⟨e, he⟩ := OrderedMap.contains_iff.mp hm
  obtain ⟨rfl, hf⟩ := h k e he
  cases e with
  | role r => exact RoleFormed.generated hf hk
  | context x => exact absurd (ContextFormed.hyphenless hf) hk

theorem Formed.hyphenless_bindingId (h : Formed generated pending m) (hk : Hyphenless k)
    (he : m.get? k = some e) : Hyphenless (bindingId e) := by
  obtain ⟨rfl, hf⟩ := h k e he
  cases e with
  | role r => exact hk
  | context x =>
    have hx : ContextFormed m x := hf
    change Hyphenless x.outerRole
    rw [hx.outerRole]
    exact hk.append (by decide)

theorem formed_empty : Formed generated pending .empty := fun _ _ => nofun

theorem Formed.insert (h : Formed generated pending m) (hm : Extends m (m.insert e.id e))
    (he : EntityFormed generated pending (m.insert e.id e) e) :
    Formed generated pending (m.insert e.id e) := by
  intro k f hk
  rw [OrderedMap.get?_insert] at hk
  split at hk
  · cases hk
    exact ⟨by simp [*], he⟩
  · exact ⟨(h k f hk).1, (h k f hk).2.mono hm (fun _ => id) fun _ => .inl⟩

theorem Formed.insertRole {r : Role} (h : Formed generated pending m)
    (hm : Extends m (m.insert r.id (.role r)))
    (hr : RoleFormed generated pending (m.insert r.id (.role r)) r) :
    Formed generated pending (m.insert r.id (.role r)) := h.insert (e := .role r) hm hr

theorem Formed.insertContext {x : Context} (h : Formed generated pending m)
    (hm : Extends m (m.insert x.id (.context x)))
    (hx : ContextFormed (m.insert x.id (.context x)) x) :
    Formed generated pending (m.insert x.id (.context x)) := h.insert (e := .context x) hm hx

theorem extends_insert (hk : Hyphenless k ∨ m.get? k = none) : Extends m (m.insert k e) where
  contains _ h := OrderedMap.contains_insert.mpr (.inr h)
  role k' r hy hr := by
    have hne : k' ≠ k := by
      rintro rfl
      rcases hk with hk | hk
      · exact hy hk
      · simp [hk] at hr
    exact ⟨r, by rwa [OrderedMap.get?_insert_of_ne hne], rfl⟩

/-- Maps whose generated ids differ: a merge then replaces no bound role. -/
def Apart (m n : OrderedMap Entity) : Prop :=
  ∀ k, ¬ Hyphenless k → m.contains k = true → n.contains k = true → False

theorem extends_merge_left (h : Apart m n) : Extends m (m.merge n) where
  contains k hk := OrderedMap.contains_merge.mpr (.inl hk)
  role k r hy hr := by
    have hm : m.contains k = true := OrderedMap.contains_iff.mpr ⟨_, hr⟩
    have hn : n.get? k = none := by
      rw [Option.eq_none_iff_forall_ne_some]
      exact fun e he => h k hy hm (OrderedMap.contains_iff.mpr ⟨e, he⟩)
    exact ⟨r, by rwa [OrderedMap.get?_merge_left hn], rfl⟩

theorem extends_merge_right : Extends n (m.merge n) where
  contains _ hk := OrderedMap.contains_merge.mpr (.inr hk)
  role _ r _ hr := ⟨r, OrderedMap.get?_merge_right hr, rfl⟩

theorem Formed.merge (h : Formed generated pending m) (h' : Formed generated pending n)
    (ha : Apart m n) : Formed generated pending (m.merge n) := by
  intro k e hk
  rcases OrderedMap.get?_merge_eq_some hk with hn | ⟨-, hm⟩
  · exact ⟨(h' k e hn).1, (h' k e hn).2.mono extends_merge_right (fun _ => id) fun _ => .inl⟩
  · exact ⟨(h k e hm).1, (h k e hm).2.mono (extends_merge_left ha) (fun _ => id) fun _ => .inl⟩

/-- Well-formed entities with the bound roles of a context. -/
structure Holds (generated pending : String → Prop) (names : List String) (m : OrderedMap Entity) :
    Prop where
  formed : Formed generated pending m
  listed : Listed pending m names

theorem holds_empty : Holds generated pending [] .empty :=
  ⟨formed_empty, .nil, nofun⟩

theorem Listed.append (h : Listed pending m names) (h' : Listed pending n names')
    (ha : Apart m n) : Listed pending (m.merge n) (names ++ names') where
  nodup := by
    rw [List.nodup_append]
    refine ⟨h.nodup, h'.nodup, ?_⟩
    rintro id hid _ hid' rfl
    obtain ⟨hy, r, hr, -⟩ := h.role id hid
    obtain ⟨-, r', hr', -⟩ := h'.role id hid'
    exact ha id hy (OrderedMap.contains_iff.mpr ⟨_, hr⟩) (OrderedMap.contains_iff.mpr ⟨_, hr'⟩)
  role id hid := by
    rcases List.mem_append.mp hid with hid | hid
    · exact (h.mono (extends_merge_left ha)).role id hid
    · exact (h'.mono extends_merge_right).role id hid

theorem Holds.merge {ids : Nat → String} {lo mid hi : Nat} (hf : FreshIds ids lo hi)
    (hlo : lo ≤ mid) (hhi : mid ≤ hi) (h : Holds (Generated ids lo mid) pending names m)
    (h' : Holds (Generated ids mid hi) pending names' n) :
    Holds (Generated ids lo hi) pending (names ++ names') (m.merge n) := by
  have ha : Apart m n := fun k hy hm hn =>
    hf.apart (h.formed.generated_of_contains hy hm) (h'.formed.generated_of_contains hy hn)
  exact ⟨(h.formed.mono (fun _ hg => hg.mono (Nat.le_refl _) hhi) fun _ => .inl).merge
    (h'.formed.mono (fun _ hg => hg.mono hlo (Nat.le_refl _)) fun _ => .inl) ha,
    h.listed.append h'.listed ha⟩

end Entities

section Building

variable {generated : String → Prop} {ids : Nat → String} {lo hi : Nat}

theorem formed_buildRole {declaration : TypeDeclaration} (assignments : List (String × String))
    (h : Hyphenless (localName declaration.instanceName)) :
    Formed generated nobody (buildRole declaration assignments).entities := by
  let role : Role :=
    { id := localName declaration.instanceName, typeName := declaration.typeName,
      properties := collect assignments }
  exact formed_empty.insertRole (r := role) (extends_insert (.inl h))
    ⟨by simp [role, h], nofun, fun hy => absurd h hy, fun hy => absurd h hy⟩

theorem holds_buildRoleBinding {contextId typeName : String} {occurrence : Option Nat}
    {target : Target} {assignments : List (String × String)} (hf : FreshIds ids lo (hi + 1))
    (hle : lo ≤ hi) (h : Formed (Generated ids lo hi) nobody target.entities)
    (ht : Hyphenless target.id) :
    Holds (Generated ids lo (hi + 1)) (· = contextId) [ids hi]
      (buildRoleBinding (ids hi) contextId typeName occurrence target assignments).entities := by
  have hy : ¬ Hyphenless (ids hi) := hf.hyphen hi (Nat.lt_succ_self _) hle
  have unused : target.entities.get? (ids hi) = none := by
    rw [Option.eq_none_iff_forall_ne_some]
    intro e he
    obtain ⟨i, hi', hlo, e⟩ := h.generated_of_contains hy (OrderedMap.contains_iff.mpr ⟨e, he⟩)
    have := hf.distinct i (by omega) hi (by omega) hlo hle e
    omega
  have before : Formed (Generated ids lo (hi + 1)) (· = contextId) target.entities :=
    h.mono (fun _ hg => hg.mono (Nat.le_refl _) (Nat.le_succ hi)) fun _ => False.elim
  let role : Role :=
    { id := ids hi, typeName, binding := target.id, context := contextId,
      properties := collect assignments, occurrence := occurrence.map Int.ofNat }
  constructor
  · refine before.insertRole (r := role) (extends_insert (.inr unused)) ⟨?_, ?_, fun _ => ?_, ?_⟩
    · simp [role, hy]
    · rintro b ⟨⟩
      exact ht
    · exact ⟨hi, Nat.lt_succ_self _, hle, rfl⟩
    · exact fun _ => .inl rfl
  · refine ⟨by simp, fun id hid => ?_⟩
    obtain rfl := List.mem_singleton.mp hid
    exact ⟨hy, role, OrderedMap.get?_insert_self _ _ _, rfl⟩

/-- The outer role and the context replace nothing that is bound, and the context is no longer
pending. -/
theorem formed_buildContext {declaration : TypeDeclaration}
    {publicAssignments privateAssignments : List (String × String)} {bindings : List Collection}
    (hid : Hyphenless (localName declaration.instanceName))
    (h : Holds generated (· = localName declaration.instanceName) (bindings.map Collection.name)
      (.mergeAll (bindings.map Collection.entities))) :
    Formed generated nobody
      (buildContext declaration publicAssignments privateAssignments bindings).entities := by
  have houter : Hyphenless (outerRoleId (localName declaration.instanceName)) :=
    hid.append (by decide)
  let outer : Role :=
    { id := outerRoleId (localName declaration.instanceName), typeName := outerRoleType,
      context := localName declaration.instanceName, properties := collect publicAssignments }
  have hext := extends_insert (m := .mergeAll (bindings.map Collection.entities))
    (e := .role outer) (.inl houter)
  have formed := h.formed.insertRole (r := outer) hext
    ⟨by simp [outer, houter], nofun, fun hy => absurd houter hy, fun hy => absurd houter hy⟩
  let inner : InnerRole :=
    { id := innerRoleId (localName declaration.instanceName), binding := outer.id,
      properties := collect privateAssignments }
  let context : Context :=
    { id := localName declaration.instanceName, typeName := declaration.typeName,
      innerRole := inner, outerRole := outer.id, roles := bindings.map Collection.name }
  have hext' := extends_insert (m := (OrderedMap.mergeAll (bindings.map Collection.entities)).insert
    outer.id (.role outer)) (e := .context context) (.inl hid)
  have formed' := formed.insertContext (x := context) hext'
    ⟨hid, rfl, rfl, rfl, hext'.contains _ (OrderedMap.contains_insert.mpr (.inl rfl)),
      (h.listed.mono hext).mono hext'⟩
  refine formed'.mono (fun _ => id) ?_
  rintro _ rfl
  exact .inr (OrderedMap.contains_insert.mpr (.inl rfl))

end Building

section Linking

variable {generated pending : String → Prop} {c : Collection}

theorem formed_linkRole (h : Formed generated pending c.entities) (bound : Role) :
    Formed generated pending (c.linkRole bound).entities := by
  unfold Collection.linkRole
  cases hfill : c.filler? bound with
  | none => exact h
  | some found =>
    obtain ⟨key, filler⟩ := found
    have hget := Collection.get?_of_filler? hfill
    obtain ⟨rfl, hr⟩ := h key _ hget
    have hext : Extends c.entities
        (c.entities.insert filler.id (.role (filler.addFilled bound))) := by
      refine ⟨fun _ hk => OrderedMap.contains_insert.mpr (.inr hk), fun k r _ hk => ?_⟩
      by_cases hid : k = filler.id
      · subst hid
        have hk : some (Entity.role filler) = some (.role r) := hget.symm.trans hk
        cases hk
        exact ⟨_, OrderedMap.get?_insert_self _ _ _, rfl⟩
      · exact ⟨r, by rwa [OrderedMap.get?_insert_of_ne hid], rfl⟩
    have hr' : RoleFormed generated pending c.entities filler := hr
    exact h.insert (e := .role (filler.addFilled bound)) hext
      ⟨hr'.bound_iff, hr'.filler, hr'.generated, fun hy =>
        (hr'.owned hy).imp_right fun hc => hext.contains _ hc⟩

theorem formed_linkFilledRoles (h : Formed generated pending c.entities) :
    Formed generated pending c.linkFilledRoles.entities :=
  Collection.linkFilledRoles_keeps (P := fun c => Formed generated pending c.entities) h
    fun _ bound hc => formed_linkRole hc bound

end Linking

end ContextRoles.Source
