import ContextRoles.Json.Value
import ContextRoles.Model.OrderedMap

/-! # Fields of records

The fields of a record are checked against the types that they should have. What a check lets pass, apart
from values of the type itself, is a matter of the library that checks them and a parameter here. All
faults of a record are collected, each with the path to the value at fault.
-/

namespace ContextRoles.Artifact

/-- A step into a value: to the field of a record, a key or an index. -/
inductive Step where
  | key (name : String)
  | index (position : Nat)
  deriving DecidableEq, Repr

inductive FieldFault where
  | notText
  | notMap
  | notList
  | notInteger
  | unreadableInteger
  | fractionalInteger
  | infiniteInteger
  | oversizedInteger
  deriving DecidableEq, Repr

structure FieldError where
  path : List Step
  fault : FieldFault
  deriving DecidableEq, Repr

/-- A checked value, or everything that is wrong with it. -/
abbrev Checked (α : Type) := Except (List FieldError) α

namespace Checked

variable {α β : Type}

def and (p : Checked α) (q : Checked β) : Checked (α × β) :=
  match p, q with
  | .ok a, .ok b => .ok (a, b)
  | .ok _, .error f => .error f
  | .error e, .ok _ => .error e
  | .error e, .error f => .error (e ++ f)

def within (step : Step) (p : Checked α) : Checked α :=
  p.mapError fun faults => faults.map fun e => { e with path := step :: e.path }

end Checked

inductive FieldType where
  | text
  | optionalText
  | optionalInteger
  | texts
  /-- A map from names to lists of texts. -/
  | textLists
  deriving DecidableEq, Repr

namespace FieldType

abbrev Value : FieldType → Type
  | text => String
  | optionalText => Option String
  | optionalInteger => Option Int
  | texts => List String
  | textLists => OrderedMap (List String)

def encode : (type : FieldType) → type.Value → JsonValue
  | text, s => .str s
  | optionalText, s => (s.map .str).getD .null
  | optionalInteger, n => (n.map .int).getD .null
  | texts, items => .arr (items.map .str)
  | textLists, lists => .obj (lists.entries.map fun (name, items) => (name, .arr (items.map .str)))

end FieldType

/-- What is made of the value of a field. -/
class FieldChecks where
  check (type : FieldType) : JsonValue → Checked type.Value

/-- A value of the type of its field passes, and stays as it is. -/
class LawfulFieldChecks [FieldChecks] : Prop where
  check_encode (type : FieldType) (a : type.Value) :
    FieldChecks.check type (type.encode a) = .ok a

end ContextRoles.Artifact
