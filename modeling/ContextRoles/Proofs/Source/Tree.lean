import ContextRoles.Model.Value
import ContextRoles.Proofs.Model.OrderedMap
import ContextRoles.Source.Building

/-! # Definition trees

What a source says, without its layout: contexts with their properties and bound roles, and roles with
their properties. A tree lists the entities in the order in which a reader writes them down, inner
definitions before outer ones, and a later entity replaces an earlier one of the same id.
-/

namespace ContextRoles.Source

structure Property where
  name : String
  value : Value
  deriving DecidableEq, Repr

def Property.rendered (a : Property) : String × String := (a.name, a.value.render)

mutual

/-- A context, or a role, which has at least one property. -/
inductive Tree where
  | context (header : TypeDeclaration) (publics privates : List Property) (branches : List Branch)
  | role (header : TypeDeclaration) (first : Property) (others : List Property)

/-- A role that is bound in a context, to a name or to a definition in place. -/
inductive Branch where
  | named (roleName : String) (occurrence : Option Nat) (target : String)
      (properties : List Property)
  | defined (roleName : String) (occurrence : Option Nat) (target : Tree)
      (properties : List Property)

end

section Entities

variable (ids : Nat → String)

def Tree.name : Tree → String
  | .context header _ _ _ => localName header.instanceName
  | .role header _ _ => localName header.instanceName

/-- The id under which a tree is bound. -/
def Tree.target : Tree → String
  | .context header _ _ _ => outerRoleId (localName header.instanceName)
  | .role header _ _ => localName header.instanceName

mutual

/-- How many roles are bound in a tree. Each has a generated id. -/
def Tree.size : Tree → Nat
  | .context _ _ _ branches => Branch.sizes branches
  | .role _ _ _ => 0

def Branch.size : Branch → Nat
  | .named _ _ _ _ => 1
  | .defined _ _ tree _ => tree.size + 1

def Branch.sizes : List Branch → Nat
  | [] => 0
  | branch :: branches => branch.size + Branch.sizes branches

end

/-- The id of a bound role is drawn after the ids of what it is bound to. -/
def Branch.id (n : Nat) : Branch → String
  | .named _ _ _ _ => ids n
  | .defined _ _ tree _ => ids (n + tree.size)

def Branch.names (n : Nat) : List Branch → List String
  | [] => []
  | branch :: branches => branch.id ids n :: Branch.names (n + branch.size) branches

def boundRole (id contextId roleName target : String) (occurrence : Option Nat)
    (properties : List Property) : Role where
  id := id
  typeName := roleName
  binding := some target
  context := contextId
  properties := collect (properties.map Property.rendered)
  filledRoles := .empty
  occurrence := occurrence.map Int.ofNat

def outerRole (contextId : String) (publics : List Property) : Role where
  id := outerRoleId contextId
  typeName := outerRoleType
  binding := none
  context := contextId
  properties := collect (publics.map Property.rendered)
  filledRoles := .empty
  occurrence := none

def contextEntity (header : TypeDeclaration) (privates : List Property) (roles : List String) :
    Context where
  id := localName header.instanceName
  typeName := header.typeName
  innerRole :=
    { id := innerRoleId (localName header.instanceName)
      binding := some (outerRoleId (localName header.instanceName))
      properties := collect (privates.map Property.rendered) }
  outerRole := outerRoleId (localName header.instanceName)
  roles := roles

def loneRole (header : TypeDeclaration) (properties : List Property) : Role where
  id := localName header.instanceName
  typeName := header.typeName
  binding := none
  context := ""
  properties := collect (properties.map Property.rendered)
  filledRoles := .empty
  occurrence := none

mutual

/-- The entities of a tree by their ids, where `n` ids were drawn before. -/
def Tree.writes (n : Nat) : Tree → List (String × Entity)
  | .context header publics privates branches =>
    let id := localName header.instanceName
    Branch.allWrites n id branches ++
      [(outerRoleId id, .role (outerRole id publics)),
        (id, .context (contextEntity header privates (Branch.names ids n branches)))]
  | .role header first others =>
    [(localName header.instanceName, .role (loneRole header (first :: others)))]

def Branch.writes (n : Nat) (contextId : String) : Branch → List (String × Entity)
  | .named roleName occurrence target properties =>
    [(ids n, .role (boundRole (ids n) contextId roleName (localName target) occurrence properties))]
  | .defined roleName occurrence tree properties =>
    tree.writes n ++ [(ids (n + tree.size), .role
      (boundRole (ids (n + tree.size)) contextId roleName tree.target occurrence properties))]

def Branch.allWrites (n : Nat) (contextId : String) : List Branch → List (String × Entity)
  | [] => []
  | branch :: branches =>
    branch.writes n contextId ++ Branch.allWrites (n + branch.size) contextId branches

end

def Tree.collection (n : Nat) (tree : Tree) : Collection := ⟨tree.name, .ofList (tree.writes ids n)⟩

def Branch.collection (n : Nat) (contextId : String) (branch : Branch) : Collection :=
  ⟨branch.id ids n, .ofList (branch.writes ids n contextId)⟩

def Branch.collections (n : Nat) (contextId : String) : List Branch → List Collection
  | [] => []
  | branch :: branches =>
    branch.collection ids n contextId ::
      Branch.collections (n + branch.size) contextId branches

end Entities

section Building

variable {ids : Nat → String} {n : Nat} {contextId : String}

theorem Branch.map_name_collections (branches : List Branch) :
    (Branch.collections ids n contextId branches).map Collection.name =
      Branch.names ids n branches := by
  induction branches generalizing n with
  | nil => rfl
  | cons branch branches ih => exact congrArg (_ :: ·) ih

theorem Branch.mergeAll_collections (branches : List Branch) :
    OrderedMap.mergeAll ((Branch.collections ids n contextId branches).map Collection.entities) =
      .ofList (Branch.allWrites ids n contextId branches) := by
  have flat : ∃ xs : List (List (String × Entity)),
      (Branch.collections ids n contextId branches).map Collection.entities =
        xs.map OrderedMap.ofList ∧ xs.flatten = Branch.allWrites ids n contextId branches := by
    induction branches generalizing n with
    | nil => exact ⟨[], rfl, by simp [Branch.allWrites]⟩
    | cons branch branches ih =>
      obtain ⟨xs, hxs, hflat⟩ := ih (n := n + branch.size)
      exact ⟨branch.writes ids n contextId :: xs, congrArg (_ :: ·) hxs, by
        rw [List.flatten_cons, hflat, Branch.allWrites]⟩
  obtain ⟨xs, hxs, hflat⟩ := flat
  rw [hxs, OrderedMap.mergeAll_ofList, hflat]

theorem ofList_append_pair {α : Type} (x : List (String × α)) (k : String) (a : α) :
    OrderedMap.ofList (x ++ [(k, a)]) = (OrderedMap.ofList x).insert k a :=
  OrderedMap.insertAll_append .empty x [(k, a)]

theorem buildContext_eq (header : TypeDeclaration) (publics privates : List Property)
    (branches : List Branch) :
    buildContext header (publics.map Property.rendered) (privates.map Property.rendered)
        (Branch.collections ids n (localName header.instanceName) branches) =
      (Tree.context header publics privates branches).collection ids n := by
  have hwrites : (Tree.context header publics privates branches).writes ids n =
      Branch.allWrites ids n (localName header.instanceName) branches ++
        [(outerRoleId (localName header.instanceName),
          .role (outerRole (localName header.instanceName) publics))] ++
        [(localName header.instanceName, .context (contextEntity header privates
          (Branch.names ids n branches)))] := by
    rw [Tree.writes]
    simp
  rw [Tree.collection, hwrites, ofList_append_pair, ofList_append_pair,
    ← Branch.mergeAll_collections,
    ← @Branch.map_name_collections ids n (localName header.instanceName) branches]
  rfl

theorem buildRole_eq (header : TypeDeclaration) (first : Property) (others : List Property) :
    buildRole header ((first :: others).map Property.rendered) =
      (Tree.role header first others).collection ids n := by
  rw [Tree.collection, Tree.writes]
  rfl

theorem Tree.defined_collection (tree : Tree) :
    Target.defined? (tree.collection ids n) = some ⟨tree.target, .ofList (tree.writes ids n)⟩ := by
  have last : ∃ x e, tree.writes ids n = x ++ [(tree.name, e)] ∧ bindingId e = tree.target := by
    cases tree with
    | context header publics privates branches =>
      exact ⟨_ ++ [(outerRoleId (localName header.instanceName), _)], _, by
        rw [Tree.writes, List.append_assoc]
        rfl, rfl⟩
    | role header first others => exact ⟨[], _, by rw [Tree.writes]; rfl, rfl⟩
  obtain ⟨x, e, hx, he⟩ := last
  have hget : (OrderedMap.ofList (tree.writes ids n)).get? tree.name = some e := by
    rw [hx, ofList_append_pair, OrderedMap.get?_insert_self]
  simp only [Target.defined?, Tree.collection, hget, Option.map_some, he]

theorem buildRoleBinding_named (roleName target : String) (occurrence : Option Nat)
    (properties : List Property) :
    buildRoleBinding (ids n) contextId roleName occurrence (.named target)
        (properties.map Property.rendered) =
      (Branch.named roleName occurrence target properties).collection ids n contextId := by
  rw [Branch.collection, Branch.writes]
  rfl

theorem buildRoleBinding_defined (roleName : String) (tree : Tree) (occurrence : Option Nat)
    (properties : List Property) :
    buildRoleBinding (ids (n + tree.size)) contextId roleName occurrence
        ⟨tree.target, .ofList (tree.writes ids n)⟩ (properties.map Property.rendered) =
      (Branch.defined roleName occurrence tree properties).collection ids n contextId := by
  rw [Branch.collection, Branch.writes, ofList_append_pair]
  rfl

end Building

end ContextRoles.Source
