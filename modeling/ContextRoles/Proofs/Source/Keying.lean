import ContextRoles.Proofs.Source.Coherence
import ContextRoles.Source.Reading

/-! # Entities stand under their ids

Whatever ids are generated, and whichever definitions replace each other, a source is read as a
collection whose keys are the ids of its entities.
-/

namespace ContextRoles.Source

open Parsing Lexeme
open ContextRoles.Parsing.Parser hiding some

variable {ids : Nat → String} {self : Parser Collection} {m n : OrderedMap Entity} {c : Collection}

/-- Every entity stands under its id. -/
def Keyed (m : OrderedMap Entity) : Prop := ∀ k e, m.get? k = some e → e.id = k

theorem keyed_iff : Keyed m ↔ ∀ entry ∈ m.entries, entry.1 = entry.2.id :=
  ⟨fun h entry he => (h entry.1 entry.2 (OrderedMap.get?_eq_some_iff.mpr he)).symm,
    fun h k e he => (h (k, e) (OrderedMap.get?_eq_some_iff.mp he)).symm⟩

section Building

def Fresh (m : OrderedMap Entity) : Prop := m.All fun k e => e.id = k ∧ e.unlinked = e

theorem Fresh.keyed (h : Fresh m) : Keyed m := fun k e he => (h k e he).1

theorem Fresh.unlinked (h : Fresh m) : m.mapValues Entity.unlinked = m :=
  OrderedMap.mapValues_of_all fun k e he => (h k e he).2

theorem fresh_empty : Fresh .empty := OrderedMap.all_empty

theorem Fresh.insert {key : String} {e : Entity} (h : Fresh m) (hid : e.id = key)
    (he : e.unlinked = e) : Fresh (m.insert key e) := OrderedMap.All.insert h ⟨hid, he⟩

theorem fresh_mergeAll {cs : List Collection} (h : ∀ c ∈ cs, Fresh c.entities) :
    Fresh (.mergeAll (cs.map Collection.entities)) :=
  OrderedMap.all_mergeAll (List.forall_mem_map.mpr h)

theorem fresh_buildContext (d : TypeDeclaration) (x y : List (String × String)) {cs : List Collection}
    (h : ∀ c ∈ cs, Fresh c.entities) : Fresh (buildContext d x y cs).entities :=
  ((fresh_mergeAll h).insert (e := .role _) rfl rfl).insert (e := .context _) rfl rfl

theorem Keyed.linkRole (h : Keyed c.entities) (bound : Role) : Keyed (c.linkRole bound).entities := by
  unfold Collection.linkRole
  split
  next key filler hf =>
    have hid : filler.id = key := h key _ (Collection.get?_of_filler? hf)
    exact OrderedMap.All.insert (P := fun k (e : Entity) => e.id = k) h hid
  · exact h

theorem Keyed.linkFilledRoles (h : Keyed c.entities) : Keyed c.linkFilledRoles.entities :=
  Collection.linkFilledRoles_keeps (P := fun c => Keyed c.entities) h fun _ bound hc =>
    hc.linkRole bound

end Building

section Grammar

theorem widening_const {α : Type} (V : α → Prop) : Widening fun _ _ a => V a := fun _ _ _ _ _ _ _ h => h

theorem all_of_rounds {α : Type} {V : α → Prop} {lo hi : Nat} {as : List α}
    (h : Rounds (fun _ _ a => V a) lo hi as) : ∀ a ∈ as, V a := by
  induction h with
  | nil => exact nofun
  | cons _ ha _ ih => exact List.forall_mem_cons.mpr ⟨ha, ih⟩

theorem fresh_role : Draws role fun _ _ c => Fresh c.entities := by
  refine .of_yields (.withPosition (.bind fun d => .bind fun a => .pure ?_)) fun _ _ _ h => h
  exact fresh_empty.insert rfl rfl

theorem fresh_bindingTarget (h : Draws self fun _ _ c => Fresh c.entities) (hf : Framed self) :
    Draws (bindingTarget self) fun _ _ target => Fresh target.entities := by
  refine .bindingTarget (widening_const _) (widening_const _) hf h fresh_role
    (fun _ _ _ _ => fresh_empty) fun hc htarget => ?_
  obtain ⟨e, -, rfl⟩ := Option.map_eq_some_iff.mp htarget
  exact hc

theorem fresh_roleBindingWith (contextId : String) (h : Draws self fun _ _ c => Fresh c.entities)
    (hf : Framed self) :
    Draws (roleBindingWith ids self contextId) fun _ _ c => Fresh c.entities := by
  intro s c t hr
  obtain ⟨b, u, hb, hr⟩ := bind_eq_success.mp hr
  obtain ⟨id, v, ⟨⟩, ⟨⟩⟩ := bind_eq_success.mp hr
  have target := (fresh_bindingTarget h hf).bindingWith (widening_const _)
  exact (target hb).insert rfl rfl

theorem fresh_definition : Draws (definition ids) fun _ _ c => Fresh c.entities :=
  .definition (widening_const _)
    (.context fun _ hf h => .contextWith (widening_const _)
      (fun _ => widening_const fun c : Collection => Fresh c.entities) hf
      (fun contextId => fresh_roleBindingWith contextId h hf) fun publics privates _ hb =>
      fresh_buildContext _ publics privates (all_of_rounds hb))
    fresh_role

theorem fresh_text : Draws (text ids) fun _ _ c => Fresh c.entities :=
  .text (widening_const _) (widening_const _) fresh_definition fun _ hcs =>
    fresh_mergeAll (all_of_rounds hcs)

theorem fresh_sourceFile : Draws (sourceFile ids) fun _ _ c => Fresh c.entities :=
  .sourceFile (widening_const _) fresh_text fresh_definition

end Grammar

theorem exists_fresh_of_read {drawn : Nat} {source : String}
    (h : (read ids drawn source).result = .ok c) :
    ∃ built : Collection, Fresh built.entities ∧ built.linkFilledRoles = c := by
  unfold read at h
  cases hr : sourceFile ids { State.start source with drawn } with
  | success d t =>
    simp only [hr, Except.ok.injEq] at h
    exact ⟨d, fresh_sourceFile hr, h⟩
  | failure e t => simp [hr] at h
  | stalled => simp [hr] at h

theorem keyed_of_read {drawn : Nat} {source : String} (h : (read ids drawn source).result = .ok c) :
    Keyed c.entities := by
  obtain ⟨built, hbuilt, rfl⟩ := exists_fresh_of_read h
  exact hbuilt.keyed.linkFilledRoles

theorem drawn_le_read (ids : Nat → String) (drawn : Nat) (source : String) :
    drawn ≤ (read ids drawn source).drawn := by
  have framed : Framed (sourceFile ids) := (built_sourceFile (E := Framed) (framed_freshId ids)).framed id
  unfold read
  cases hr : sourceFile ids { State.start source with drawn } with
  | success d t => exact (framed.success hr).drawn_le
  | failure e t => exact (framed.failure hr).drawn_le
  | stalled => exact Nat.le_refl _

end ContextRoles.Source
