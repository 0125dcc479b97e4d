import ContextRoles.Model.OrderedMap

/-! # Contexts and roles

A context has an inner role, which holds its private properties, an outer role, which holds the public
ones, and the roles bound in it. A role may be bound to another role or to a context, and lists the
roles that it fills.
-/

namespace ContextRoles

abbrev Properties := OrderedMap (List String)

structure Role where
  id : String
  typeName : String
  /-- The role or context that fills this role. -/
  binding : Option String := none
  /-- The context that the role belongs to, empty for a role that stands alone. -/
  context : String := ""
  properties : Properties := {}
  /-- The roles that are bound to this one, by their type. -/
  filledRoles : OrderedMap (List String) := {}
  occurrence : Option Int := none
  deriving DecidableEq, Repr

structure InnerRole where
  id : String
  binding : Option String := none
  properties : Properties := {}
  deriving DecidableEq, Repr

structure Context where
  id : String
  typeName : String
  innerRole : InnerRole
  outerRole : String
  /-- The roles that the body of the context binds. -/
  roles : List String := []
  deriving DecidableEq, Repr

inductive Entity where
  | role (role : Role)
  | context (context : Context)
  deriving DecidableEq, Repr

namespace Entity

def id : Entity → String
  | role r => r.id
  | context c => c.id

def role? : Entity → Option Role
  | role r => some r
  | context _ => none

def context? : Entity → Option Context
  | role _ => none
  | context c => some c

end Entity

/-- Entities by their id, and the name of the one that the text is about. -/
structure Collection where
  name : String
  entities : OrderedMap Entity := {}
  deriving DecidableEq, Repr

namespace Collection

def roles (c : Collection) : List Role := c.entities.values.filterMap Entity.role?

def contexts (c : Collection) : List Context := c.entities.values.filterMap Entity.context?

/-- The role that a binding leads to, with its key. A binding to a context leads to its outer role. -/
def resolve? (c : Collection) (binding : String) : Option (String × Role) :=
  match c.entities.get? binding with
  | some (.role r) => some (binding, r)
  | some (.context x) =>
    match c.entities.get? x.outerRole with
    | some (.role r) => some (x.outerRole, r)
    | _ => none
  | none => none

def filler? (c : Collection) (r : Role) : Option (String × Role) := r.binding.bind c.resolve?

end Collection

end ContextRoles
