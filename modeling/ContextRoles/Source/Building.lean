import ContextRoles.Model.Entity
import ContextRoles.Model.Name

/-! # Entities of definitions

Each definition yields a flat collection of everything defined in it. Where two definitions share an
id, the later one replaces the earlier one in its place.
-/

namespace ContextRoles.Source

def outerRoleType : String := "model:Perspectives#BuitenRol"

def outerRoleId (contextId : String) : String := contextId ++ "_buitenRol"

def innerRoleId (contextId : String) : String := contextId ++ "_binnenRol"

/-- The values of each property in the order of their assignments. -/
def collect (assignments : List (String × String)) : Properties :=
  assignments.foldl
    (fun properties (name, value) =>
      properties.insert name ((properties.get? name).getD [] ++ [value])) {}

/-- What a role is bound to, with the entities that its definition brings along. -/
structure Target where
  id : String
  entities : OrderedMap Entity := {}
  deriving DecidableEq, Repr

def Target.named (name : String) : Target := ⟨localName name, {}⟩

/-- The id under which a definition is bound: the outer role of a context, or the role itself. -/
def bindingId : Entity → String
  | .context c => c.outerRole
  | .role r => r.id

/-- A target that is defined in place. A collection without the entity it is named for is none. -/
def Target.defined? (definition : Collection) : Option Target :=
  (definition.entities.get? definition.name).map fun entity =>
    ⟨bindingId entity, definition.entities⟩

def buildRoleBinding (id contextId typeName : String) (occurrence : Option Nat) (target : Target)
    (assignments : List (String × String)) : Collection :=
  let role : Role :=
    { id, typeName, binding := target.id, context := contextId,
      properties := collect assignments, occurrence := occurrence.map Int.ofNat }
  ⟨id, target.entities.insert id (.role role)⟩

def buildContext (declaration : TypeDeclaration) (publicAssignments : List (String × String))
    (privateAssignments : List (String × String)) (bindings : List Collection) : Collection :=
  let id := localName declaration.instanceName
  let outer : Role :=
    { id := outerRoleId id, typeName := outerRoleType, context := id,
      properties := collect publicAssignments }
  let inner : InnerRole :=
    { id := innerRoleId id, binding := outerRoleId id, properties := collect privateAssignments }
  let context : Context :=
    { id, typeName := declaration.typeName, innerRole := inner, outerRole := outerRoleId id,
      roles := bindings.map Collection.name }
  let bound := OrderedMap.mergeAll (bindings.map Collection.entities)
  ⟨id, (bound.insert outer.id (.role outer)).insert id (.context context)⟩

def buildRole (declaration : TypeDeclaration) (assignments : List (String × String)) :
    Collection :=
  let id := localName declaration.instanceName
  let role : Role :=
    { id, typeName := declaration.typeName, properties := collect assignments }
  ⟨id, OrderedMap.empty.insert id (.role role)⟩

def buildText (name : String) (definitions : List Collection) : Collection :=
  ⟨localName name, OrderedMap.mergeAll (definitions.map Collection.entities)⟩

end ContextRoles.Source
