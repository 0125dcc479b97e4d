import ContextRoles.Proofs.Model.Linking

/-! # What linking records

A link adds the bound role to what its filler lists, and the roles that fill are the same before and
after it. So linking all roles adds to the list of a role exactly those that it fills.
-/

namespace ContextRoles

/-- The role lists an id among the roles of a type that it fills. -/
def Role.Lists (filler : Role) (typeName id : String) : Prop :=
  id ∈ (filler.filledRoles.get? typeName).getD []

theorem Role.lists_addFilled {filler bound : Role} {typeName id : String} :
    (filler.addFilled bound).Lists typeName id ↔
      filler.Lists typeName id ∨ bound.typeName = typeName ∧ bound.id = id := by
  by_cases h : typeName = bound.typeName
  · subst h
    simp [Lists, addFilled, mem_addNew, or_comm, eq_comm]
  · simp [Lists, addFilled, OrderedMap.get?_insert_of_ne h, Ne.symm h]

namespace Collection

variable {c d : Collection} {key typeName id : String}

/-- The role under a key lists an id among the roles of a type that it fills. -/
def Records (c : Collection) (key typeName id : String) : Prop :=
  ∃ r, c.entities.get? key = some (.role r) ∧ r.Lists typeName id

def fillerKey? (c : Collection) (bound : Role) : Option String := (c.filler? bound).map Prod.fst

def HasRole (c : Collection) (key : String) : Prop := ∃ r, c.entities.get? key = some (.role r)

/-- A binding leads to a role: it names the role, or a context that the role is the outer one of. -/
def LeadsTo (c : Collection) (binding key : String) : Prop :=
  binding = key ∧ c.HasRole key ∨
    ∃ x, c.entities.get? binding = some (.context x) ∧ x.outerRole = key ∧ c.HasRole key

theorem resolve?_eq_some {binding : String} :
    (c.resolve? binding).map Prod.fst = some key ↔ c.LeadsTo binding key := by
  unfold resolve? LeadsTo HasRole
  cases hb : c.entities.get? binding with
  | none => simpa using fun e r => by simp [← e, hb]
  | some e =>
    cases e with
    | role r => simpa using fun e => ⟨r, e ▸ hb⟩
    | context x =>
      have named : ¬ (binding = key ∧ ∃ r, c.entities.get? key = some (.role r)) := by
        rintro ⟨rfl, r, hr⟩
        simp [hb] at hr
      simp only [named, false_or, Option.some.injEq, Entity.context.injEq, exists_eq_left']
      split
      next r hr => simpa using fun e => ⟨r, e ▸ hr⟩
      next hr => simpa using fun e r => e ▸ hr r

theorem fillerKey?_eq_some {bound : Role} :
    c.fillerKey? bound = some key ↔ ∃ b, bound.binding = some b ∧ c.LeadsTo b key := by
  cases hb : bound.binding <;> simp [fillerKey?, filler?, hb, ← resolve?_eq_some]

section Unlinked

variable (h : d.entities.mapValues Entity.unlinked = c.entities.mapValues Entity.unlinked)

include h

theorem get?_unlinked (key : String) :
    (d.entities.get? key).map Entity.unlinked = (c.entities.get? key).map Entity.unlinked := by
  rw [← OrderedMap.get?_mapValues, h, OrderedMap.get?_mapValues]

theorem hasRole_unlinked (key : String) : d.HasRole key ↔ c.HasRole key := by
  have role : ∀ e : Option Entity,
      (∃ r, e = some (.role r)) ↔ ∃ r, e.map Entity.unlinked = some (.role r) := by
    rintro (_ | _ | _) <;> simp [Entity.unlinked]
  rw [HasRole, role, get?_unlinked h, ← role, HasRole]

theorem context_unlinked (key : String) (x : Context) :
    d.entities.get? key = some (.context x) ↔ c.entities.get? key = some (.context x) := by
  have context : ∀ e : Option Entity,
      e = some (.context x) ↔ e.map Entity.unlinked = some (.context x) := by
    rintro (_ | _ | _) <;> simp [Entity.unlinked]
  rw [context, get?_unlinked h, ← context]

theorem exists_role_of_unlinked {r : Role} (hr : d.entities.get? key = some (.role r)) :
    ∃ filled, c.entities.get? key = some (.role { r with filledRoles := filled }) := by
  have unlinked := get?_unlinked h key
  rw [hr] at unlinked
  obtain ⟨e, he, same⟩ := Option.map_eq_some_iff.mp unlinked.symm
  cases e with
  | context x => cases same
  | role bare =>
    refine ⟨bare.filledRoles, he.trans ?_⟩
    cases bare
    cases r
    cases same
    rfl

theorem fillerKey?_of_unlinked (bound : Role) : d.fillerKey? bound = c.fillerKey? bound := by
  refine Option.ext fun key => ?_
  simp only [fillerKey?_eq_some, LeadsTo, hasRole_unlinked h, context_unlinked h]

end Unlinked

theorem records_linkRole (c : Collection) (bound : Role) :
    (c.linkRole bound).Records key typeName id ↔
      c.Records key typeName id ∨
        (bound.typeName = typeName ∧ bound.id = id) ∧ c.fillerKey? bound = some key := by
  unfold linkRole fillerKey?
  cases hf : c.filler? bound with
  | none => simp
  | some found =>
    obtain ⟨place, filler⟩ := found
    have hplace := get?_of_filler? hf
    by_cases h : key = place
    · subst h
      simp [Records, hplace, Role.lists_addFilled]
    · simp [Records, OrderedMap.get?_insert_of_ne h, Ne.symm h]

theorem records_foldl_linkRole (rs : List Role) (c : Collection) :
    (rs.foldl linkRole c).Records key typeName id ↔
      c.Records key typeName id ∨
        ∃ r ∈ rs, (r.typeName = typeName ∧ r.id = id) ∧ c.fillerKey? r = some key := by
  induction rs generalizing c with
  | nil => simp
  | cons r rs ih =>
    have same : ∀ bound, (c.linkRole r).fillerKey? bound = c.fillerKey? bound :=
      fillerKey?_of_unlinked (unlinked_linkRole c r)
    simp only [List.foldl_cons, ih, same, records_linkRole, List.mem_cons, or_and_right, exists_or,
      exists_eq_left, or_assoc]

variable (key) in
theorem records_linkFilledRoles {r : Role} (hr : r ∈ c.roles)
    (hids : ∀ r' ∈ c.roles, r'.id = r.id → r' = r) :
    c.linkFilledRoles.Records key r.typeName r.id ↔
      c.Records key r.typeName r.id ∨ c.fillerKey? r = some key := by
  rw [linkFilledRoles, records_foldl_linkRole]
  refine or_congr_right ⟨?_, fun h => ⟨r, hr, ⟨rfl, rfl⟩, h⟩⟩
  rintro ⟨r', hr', ⟨-, hid⟩, h⟩
  exact hids r' hr' hid ▸ h

end Collection

end ContextRoles
