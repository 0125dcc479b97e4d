import ContextRoles.Model.Entity

/-! # Links from fillers to the roles they fill

A bound role knows its filler. Linking records the other direction, under the type of the bound role.
-/

namespace ContextRoles

def addNew (ids : List String) (id : String) : List String :=
  if ids.contains id then ids else ids ++ [id]

def Role.addFilled (filler bound : Role) : Role :=
  let ids := (filler.filledRoles.get? bound.typeName).getD []
  { filler with filledRoles := filler.filledRoles.insert bound.typeName (addNew ids bound.id) }

namespace Collection

/-- Records the role `bound` on its filler, if the collection holds it. -/
def linkRole (c : Collection) (bound : Role) : Collection :=
  match c.filler? bound with
  | some (key, filler) =>
    { c with entities := c.entities.insert key (.role (filler.addFilled bound)) }
  | none => c

def linkFilledRoles (c : Collection) : Collection := c.roles.foldl linkRole c

end Collection

end ContextRoles
