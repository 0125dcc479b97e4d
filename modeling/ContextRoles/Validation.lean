import ContextRoles.Model.Entity

/-! # Consistency of a collection

A role bound outside the collection and a context that holds nothing are worth a warning. A context
that refers to a missing role, and bindings that lead back to where they started, are errors.
-/

namespace ContextRoles

inductive Warning where
  | externalBinding (role : String) (typeName : String) (binding : String)
  | emptyContext (context : String)
  deriving DecidableEq, Repr

inductive Inconsistency where
  | missingOuterRole (context : String) (role : String)
  | missingRole (context : String) (role : String)
  /-- The ids on the way round; the last one is the first one again. -/
  | bindingCycle (ids : List String)
  deriving DecidableEq, Repr

def Warning.message : Warning → String
  | externalBinding role typeName binding =>
    s!"Role '{role}' ({typeName}) is bound to '{binding}', which is not defined here"
  | emptyContext context => s!"Context '{context}' has no roles and no properties"

def Inconsistency.message : Inconsistency → String
  | missingOuterRole context role =>
    s!"Context '{context}' refers to missing outer role '{role}'"
  | missingRole context role => s!"Context '{context}' refers to missing role '{role}'"
  | bindingCycle ids => "Binding cycle: " ++ String.intercalate " -> " ids

structure Report where
  warnings : List Warning
  errors : List Inconsistency
  deriving DecidableEq, Repr

namespace Collection

variable (c : Collection)

def externalBindings : List Warning :=
  c.roles.filterMap fun r => r.binding.bind fun binding =>
    if c.entities.contains binding then none
    else some (.externalBinding r.id r.typeName binding)

/-- Whether a context has a role, a public or a private property. -/
def holdsAnything (x : Context) : Bool :=
  let isPublic := match c.entities.get? x.outerRole with
    | some (.role outer) => !outer.properties.isEmpty
    | _ => false
  !x.roles.isEmpty || isPublic || !x.innerRole.properties.isEmpty

def emptyContexts : List Warning :=
  (c.contexts.filter fun x => !c.holdsAnything x).map fun x => .emptyContext x.id

def holdsRole (id : String) : Bool := ((c.entities.get? id).bind Entity.role?).isSome

def missingRoles : List Inconsistency :=
  c.contexts.flatMap fun x =>
    (if c.entities.contains x.outerRole then [] else [.missingOuterRole x.id x.outerRole]) ++
      (x.roles.filter fun id => !c.holdsRole id).map fun id => .missingRole x.id id

/-- The role that a role is bound to. A binding to a context leads to its outer role. -/
def next? (r : Role) : Option Role :=
  match r.binding.bind c.entities.get? with
  | some (.role t) => some t
  | some (.context x) => (c.entities.get? x.outerRole).bind Entity.role?
  | none => none

/-- Follows the bindings from a role until they end, reach a role that was followed before or come
back to the chain. Gives the chain, and the cycle if there is one. -/
def follow (finished : List String) : Nat → List String → Role → List String × Option (List String)
  | 0, chain, _ => (chain, none)
  | fuel + 1, chain, current =>
    if finished.contains current.id then (chain, none)
    else if chain.contains current.id then
      (chain, some (chain.dropWhile (· != current.id) ++ [current.id]))
    else
      let chain := chain ++ [current.id]
      match c.next? current with
      | some next => follow finished fuel chain next
      | none => (chain, none)

/-- Each cycle once, from the role of it that was reached first. A chain holds every role at most once,
so it is no longer than the number of roles. -/
def bindingCycles : List Inconsistency :=
  (c.roles.foldl step ([], [])).2
where
  step (state : List String × List Inconsistency) (start : Role) :=
    let (finished, errors) := state
    let (chain, cycle) := c.follow finished (c.roles.length + 1) [] start
    (finished ++ chain, errors ++ (cycle.map Inconsistency.bindingCycle).toList)

def validate : Report where
  warnings := c.externalBindings ++ c.emptyContexts
  errors := c.missingRoles ++ c.bindingCycles

end Collection

end ContextRoles
