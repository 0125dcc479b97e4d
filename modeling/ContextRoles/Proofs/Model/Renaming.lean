import ContextRoles.Proofs.Model.Linking
import Mathlib.Data.List.Forall2

/-! # Other ids

The ids of a collection may be replaced by others. Where a renaming tells the ids apart that occur, and
leaves the names alone that bindings refer to, it makes no difference whether entities are renamed
before or after they are written to a map, looked up, merged or linked.
-/

namespace ContextRoles

variable {α β : Type} {ρ : String → String} {K N : String → Prop}

/-- The role under another id, with other ids in the lists of the roles that it fills. -/
def Role.rename (ρ : String → String) (r : Role) : Role :=
  { r with id := ρ r.id, filledRoles := r.filledRoles.mapValues (·.map ρ) }

/-- The entity with other ids of roles. The id of a context is a name. -/
def Entity.rename (ρ : String → String) : Entity → Entity
  | .role r => .role (r.rename ρ)
  | .context x => .context { x with roles := x.roles.map ρ }

/-- The renaming tells known ids apart and leaves names as they are. -/
structure Renaming (ρ : String → String) (K N : String → Prop) : Prop where
  fixed : ∀ ⦃k⦄, N k → ρ k = k
  known : ∀ ⦃k⦄, N k → K k
  injective : ∀ ⦃k k'⦄, K k → K k' → ρ k = ρ k' → k = k'

namespace OrderedMap

variable {f : α → β} {m m' : OrderedMap α} {n n' : OrderedMap β} {key : String} {a : α}

/-- The second map has the entries of the first one, under other keys and with other values. -/
def Renamed (ρ : String → String) (f : α → β) (m : OrderedMap α) (n : OrderedMap β) : Prop :=
  n.entries = m.entries.map fun (k, a) => (ρ k, f a)

theorem renamed_empty : Renamed ρ f empty empty := rfl

theorem Renamed.insert (h : Renamed ρ f m n) (hm : ∀ k ∈ m.keys, ρ k = ρ key → k = key) (a : α) :
    Renamed ρ f (m.insert key a) (n.insert (ρ key) (f a)) := by
  change setEntry (ρ key) (f a) n.entries = _
  rw [h]
  exact setEntry_map hm

theorem Renamed.get? (h : Renamed ρ f m n) (hm : ∀ k ∈ m.keys, ρ k = ρ key → k = key) :
    n.get? (ρ key) = (m.get? key).map f := by
  unfold OrderedMap.get?
  rw [h]
  exact lookup_map hm

/-- The renaming of known keys by one that tells them apart. -/
structure Known (ρ : String → String) (K : String → Prop) (f : α → β) (m : OrderedMap α)
    (n : OrderedMap β) : Prop where
  renamed : Renamed ρ f m n
  keys : ∀ k ∈ m.keys, K k

theorem mem_keys_insert {k : String} : k ∈ (m.insert key a).keys ↔ k = key ∨ k ∈ m.keys := by
  rw [keys_insert]
  split <;> simp_all [or_comm]

namespace Known

theorem empty : Known ρ K f OrderedMap.empty OrderedMap.empty := ⟨renamed_empty, nofun⟩

variable (h : Known ρ K f m n) (hρ : Renaming ρ K N)
include h hρ

theorem tells {key : String} (hk : K key) : ∀ k ∈ m.keys, ρ k = ρ key → k = key :=
  fun k hm => hρ.injective (h.keys k hm) hk

theorem insert {key : String} (hk : K key) (a : α) :
    Known ρ K f (m.insert key a) (n.insert (ρ key) (f a)) where
  renamed := h.renamed.insert (h.tells hρ hk) a
  keys k hm := by
    rcases mem_keys_insert.mp hm with rfl | hm
    · exact hk
    · exact h.keys k hm

theorem get? {key : String} (hk : K key) : n.get? (ρ key) = (m.get? key).map f :=
  h.renamed.get? (h.tells hρ hk)

theorem insertAll {entries : List (String × α)} (hk : ∀ entry ∈ entries, K entry.1) :
    Known ρ K f (m.insertAll entries) (n.insertAll (entries.map fun (k, a) => (ρ k, f a))) := by
  induction entries generalizing m n with
  | nil => exact h
  | cons entry entries ih =>
    rw [List.forall_mem_cons] at hk
    exact ih (h.insert hρ hk.1 entry.2) hk.2

theorem merge (h' : Known ρ K f m' n') : Known ρ K f (m.merge m') (n.merge n') := by
  rw [merge_eq, merge_eq, h'.renamed]
  exact h.insertAll hρ fun entry he => h'.keys entry.1 (List.mem_map_of_mem he)

end Known

theorem known_mergeAll (hρ : Renaming ρ K N) {ms : List (OrderedMap α)} {ns : List (OrderedMap β)}
    (h : List.Forall₂ (Known ρ K f) ms ns) : Known ρ K f (mergeAll ms) (mergeAll ns) := by
  have fold : ∀ m n, Known ρ K f m n → Known ρ K f (ms.foldl merge m) (ns.foldl merge n) := by
    induction h with
    | nil => exact fun _ _ => id
    | cons h _ ih => exact fun m n hmn => ih _ _ (hmn.merge hρ h)
  exact fold _ _ .empty

end OrderedMap

theorem addNew_map (hρ : Renaming ρ K N) {ids : List String} {id : String} (h : ∀ i ∈ ids, K i)
    (hid : K id) : addNew (ids.map ρ) (ρ id) = (addNew ids id).map ρ := by
  have hmem : ρ id ∈ ids.map ρ ↔ id ∈ ids := by
    refine ⟨fun hm => ?_, List.mem_map_of_mem⟩
    obtain ⟨i, hi, he⟩ := List.mem_map.mp hm
    exact hρ.injective (h i hi) hid he ▸ hi
  unfold addNew
  by_cases hc : id ∈ ids
  · simp [hc, hmem.mpr hc]
  · simp [hc, mt hmem.mp hc]

/-- What is asked of the entity under a key for its links to be renamed with it. -/
def Entity.Standing (K N : String → Prop) (key : String) : Entity → Prop
  | .role r => r.id = key ∧ (∀ b ∈ r.binding, N b) ∧
      r.filledRoles.All fun _ ids => ∀ id ∈ ids, K id
  | .context x => N x.outerRole

theorem Role.addFilled_rename (hρ : Renaming ρ K N) {filler bound : Role}
    (h : filler.filledRoles.All fun _ ids => ∀ id ∈ ids, K id) (hb : K bound.id) :
    (filler.rename ρ).addFilled (bound.rename ρ) = (filler.addFilled bound).rename ρ := by
  have hids : ∀ i ∈ (filler.filledRoles.get? bound.typeName).getD [], K i := by
    cases hget : filler.filledRoles.get? bound.typeName with
    | none => exact nofun
    | some ids => exact h _ _ hget
  have hmap : ((filler.filledRoles.mapValues (·.map ρ)).get? bound.typeName).getD [] =
      ((filler.filledRoles.get? bound.typeName).getD []).map ρ := by
    rw [OrderedMap.get?_mapValues]
    cases filler.filledRoles.get? bound.typeName <;> rfl
  simp only [Role.addFilled, Role.rename, hmap, addNew_map hρ hids hb, OrderedMap.mapValues_insert]

theorem Role.filled_addFilled {filler bound : Role}
    (h : filler.filledRoles.All fun _ ids => ∀ id ∈ ids, K id) (hb : K bound.id) :
    (filler.addFilled bound).filledRoles.All fun _ ids => ∀ id ∈ ids, K id := by
  refine h.insert fun i hi => ?_
  rcases mem_addNew.mp hi with rfl | hi
  · exact hb
  · cases hget : filler.filledRoles.get? bound.typeName with
    | none => simp [hget] at hi
    | some ids =>
      rw [hget] at hi
      exact h _ _ hget i hi

namespace Collection

variable {c c' : Collection}

/-- The second collection has the entities of the first one in order, under other ids. -/
structure Renamed (ρ : String → String) (K N : String → Prop) (c c' : Collection) : Prop where
  name : c'.name = ρ c.name
  known : OrderedMap.Known ρ K (Entity.rename ρ) c.entities c'.entities
  standing : c.entities.All (Entity.Standing K N)

namespace Renamed

theorem roles (h : c.Renamed ρ K N c') : c'.roles = c.roles.map (Role.rename ρ) := by
  have hentries : c'.entities.entries = c.entities.entries.map fun (k, e) => (ρ k, e.rename ρ) :=
    h.known.renamed
  have hrole : ∀ e : Entity, (e.rename ρ).role? = e.role?.map (Role.rename ρ) := by
    rintro (r | x) <;> rfl
  simp only [Collection.roles, OrderedMap.values, hentries, List.map_map, List.filterMap_map,
    List.map_filterMap, Function.comp_def, hrole]

variable (h : c.Renamed ρ K N c') (hρ : Renaming ρ K N)
include h hρ

theorem get?_name {k : String} (hk : N k) :
    c'.entities.get? k = (c.entities.get? k).map (Entity.rename ρ) := by
  have := h.known.get? hρ (hρ.known hk)
  rwa [hρ.fixed hk] at this

theorem resolve? {b : String} (hb : N b) :
    c'.resolve? b = (c.resolve? b).map (fun (k, r) => (k, r.rename ρ)) ∧
      ∀ k r, c.resolve? b = some (k, r) → N k := by
  unfold Collection.resolve?
  rw [h.get?_name hρ hb]
  cases hget : c.entities.get? b with
  | none => exact ⟨rfl, nofun⟩
  | some e =>
    cases e with
    | role r => exact ⟨rfl, by rintro k r ⟨⟩; exact hb⟩
    | context x =>
      have houter : N x.outerRole := h.standing b _ hget
      simp only [Option.map_some, Entity.rename, h.get?_name hρ houter]
      cases hget' : c.entities.get? x.outerRole with
      | none => exact ⟨rfl, nofun⟩
      | some e' =>
        cases e' with
        | role r => exact ⟨rfl, by rintro k r ⟨⟩; exact houter⟩
        | context y => exact ⟨rfl, nofun⟩

theorem linkRole {bound : Role} (hid : K bound.id) (hb : ∀ b ∈ bound.binding, N b) :
    (c.linkRole bound).Renamed ρ K N (c'.linkRole (bound.rename ρ)) := by
  have hfiller : c'.filler? (bound.rename ρ) =
        (c.filler? bound).map (fun (k, r) => (k, r.rename ρ)) ∧
      ∀ k r, c.filler? bound = some (k, r) → N k := by
    unfold Collection.filler?
    change bound.binding.bind c'.resolve? = _ ∧ _
    cases hbinding : bound.binding with
    | none => exact ⟨rfl, nofun⟩
    | some b => exact h.resolve? hρ (hb b hbinding)
  unfold Collection.linkRole
  rw [hfiller.1]
  cases hf : c.filler? bound with
  | none => exact h
  | some found =>
    obtain ⟨key, filler⟩ := found
    obtain ⟨hstands, hbinding, hfilled⟩ := h.standing key _ (get?_of_filler? hf)
    have hkey : N key := hfiller.2 key filler hf
    have hknown := h.known.insert hρ (hρ.known hkey) (.role (filler.addFilled bound))
    rw [hρ.fixed hkey] at hknown
    change Renamed ρ K N ⟨c.name, c.entities.insert key (.role (filler.addFilled bound))⟩
      ⟨c'.name, c'.entities.insert key (.role ((filler.rename ρ).addFilled (bound.rename ρ)))⟩
    rw [Role.addFilled_rename hρ hfilled hid]
    exact ⟨h.name, hknown, h.standing.insert ⟨hstands, hbinding, Role.filled_addFilled hfilled hid⟩⟩

theorem linkFilledRoles : c.linkFilledRoles.Renamed ρ K N c'.linkFilledRoles := by
  have fold : ∀ (rs : List Role) (c c' : Collection), c.Renamed ρ K N c' →
      (∀ r ∈ rs, K r.id ∧ ∀ b ∈ r.binding, N b) →
      (rs.foldl Collection.linkRole c).Renamed ρ K N
        ((rs.map (Role.rename ρ)).foldl Collection.linkRole c') := by
    intro rs
    induction rs with
    | nil => exact fun _ _ h _ => h
    | cons r rs ih =>
      intro c c' h hrs
      rw [List.forall_mem_cons] at hrs
      exact ih _ _ (h.linkRole hρ hrs.1.1 hrs.1.2) hrs.2
  unfold Collection.linkFilledRoles
  rw [h.roles]
  refine fold c.roles c c' h fun r hr => ?_
  obtain ⟨k, hk⟩ := mem_roles.mp hr
  obtain ⟨rfl, hbinding, -⟩ := h.standing k _ hk
  have hmem : r.id ∈ c.entities.keys :=
    List.mem_map_of_mem (OrderedMap.get?_eq_some_iff.mp hk)
  exact ⟨h.known.keys r.id hmem, hbinding⟩

end Renamed

end Collection

end ContextRoles
