import ContextRoles.Model.Linking
import ContextRoles.Proofs.Model.OrderedMap

/-! # What linking keeps

A link replaces the filler of a bound role in its place and changes nothing else, so what one link keeps
all links keep.
-/

namespace ContextRoles

/-- The entity without the roles that it fills. -/
def Entity.unlinked : Entity → Entity
  | .role r => .role { r with filledRoles := .empty }
  | .context x => .context x

theorem mem_addNew {ids : List String} {id i : String} : i ∈ addNew ids id ↔ i = id ∨ i ∈ ids := by
  unfold addNew
  split
  · simp_all
  · simp [or_comm]

end ContextRoles

namespace ContextRoles.Collection

variable {c : Collection} {P : Collection → Prop}

theorem linkFilledRoles_keeps (h : P c) (hlink : ∀ c bound, P c → P (c.linkRole bound)) :
    P c.linkFilledRoles := by
  have fold : ∀ (rs : List Role) (c : Collection), P c → P (rs.foldl linkRole c) := by
    intro rs
    induction rs with
    | nil => exact fun _ hc => hc
    | cons r rs ih => exact fun c hc => ih _ (hlink c r hc)
  exact fold c.roles c h

theorem name_linkRole (c : Collection) (bound : Role) : (c.linkRole bound).name = c.name := by
  unfold linkRole
  split <;> rfl

theorem name_linkFilledRoles (c : Collection) : c.linkFilledRoles.name = c.name :=
  linkFilledRoles_keeps (P := fun d => d.name = c.name) rfl fun d bound h =>
    (name_linkRole d bound).trans h

theorem unlinked_linkRole (c : Collection) (bound : Role) :
    (c.linkRole bound).entities.mapValues Entity.unlinked =
      c.entities.mapValues Entity.unlinked := by
  unfold linkRole
  split
  next key filler hf =>
    have hkey := get?_of_filler? hf
    rw [OrderedMap.mapValues_insert]
    exact OrderedMap.insert_of_get? (by rw [OrderedMap.get?_mapValues, hkey]; rfl)
  · rfl

theorem unlinked_linkFilledRoles (c : Collection) :
    c.linkFilledRoles.entities.mapValues Entity.unlinked =
      c.entities.mapValues Entity.unlinked :=
  linkFilledRoles_keeps
    (P := fun d => d.entities.mapValues Entity.unlinked = c.entities.mapValues Entity.unlinked)
    rfl fun d bound h => (unlinked_linkRole d bound).trans h

end ContextRoles.Collection
