import ContextRoles.Artifact.Encoding
import ContextRoles.Artifact.Field
import ContextRoles.Json.Reader

/-! # Decoding artifacts

A document is refused when it is not JSON, not a record of the known version, or when a record lacks a
field. A field of the wrong type is reported with the record that it belongs to.
-/

namespace ContextRoles

namespace Artifact

/-- A value that is no record, or a record without a field. -/
inductive Malformation where
  | missingField (name : String)
  /-- A field of something else than a record was asked for. -/
  | noFields (value : JsonValue)
  /-- The entities are no list. -/
  | noItems (value : JsonValue)

inductive Record where
  | role
  | context
  | innerRole
  | collection
  deriving DecidableEq, Repr

inductive DecodeError where
  | notJson (error : JsonError) (text : String)
  | notAnObject
  | unsupportedVersion (version : JsonValue)
  | unknownKind (kind : JsonValue)
  | malformed (what : Malformation)
  | wrongFields (record : Record) (fields : List FieldError)

def Malformation.message : Malformation → String
  | missingField name => Text.quote name
  | noFields (.str _) => "string indices must be integers, not 'str'"
  | noFields (.arr _) => "list indices must be integers or slices, not str"
  | noFields v => s!"'{v.kindName}' object is not subscriptable"
  | noItems v => s!"'{v.kindName}' object is not iterable"

def Record.name : Record → String
  | role => "Rol"
  | context => "Context"
  | innerRole => "BinnenRol"
  | collection => "NamedEntityCollection"

def DecodeError.message : DecodeError → String
  | notJson error text => s!"Invalid artifact: {error.describe text}"
  | notAnObject => "Invalid artifact: expected a JSON object"
  | unsupportedVersion v => s!"Unsupported artifact format version: {v.describe}"
  | unknownKind kind => s!"Unknown entity kind: {kind.describe}"
  | malformed what => s!"Malformed artifact entry: {what.message}"
  | wrongFields record fields => s!"{fields.length} wrong fields in {record.name}"

abbrev Decoded (α : Type) := Except DecodeError α

abbrev Members := List (String × JsonValue)

def fieldsOf : JsonValue → Decoded Members
  | .obj members => .ok members
  | v => .error (.malformed (.noFields v))

def required (members : Members) (name : String) : Decoded JsonValue :=
  match JsonValue.member? members name with
  | some v => .ok v
  | none => .error (.malformed (.missingField name))

def optionalField (members : Members) (name : String) (default : JsonValue) : JsonValue :=
  (JsonValue.member? members name).getD default

def build {α : Type} (record : Record) (fields : Checked α) : Decoded α :=
  fields.mapError (.wrongFields record)

/-- The items of a list. Of a text the items are its characters, of a record its keys. -/
def itemsOf : JsonValue → Decoded (List JsonValue)
  | .arr items => .ok items
  | .str s => .ok (s.toList.map fun c => .str (String.singleton c))
  | .obj members => .ok (members.map fun (key, _) => .str key)
  | v => .error (.malformed (.noItems v))

section Records

variable [FieldChecks]

/-- The check of a field of a record, under the name that the field is reported by. -/
def field (name : String) (type : FieldType) (value : JsonValue) : Checked type.Value :=
  (FieldChecks.check type value).within (.key name)

def decodeRole (members : Members) : Decoded Role := do
  let id ← required members "id"
  let typeName ← required members "type"
  let fields := (field "id" .text id).and <|
    (field "psp_type" .text typeName).and <|
    (field "binding" .optionalText (optionalField members "binding" .null)).and <|
    (field "context" .text (optionalField members "context" (.str ""))).and <|
    (field "properties" .textLists (optionalField members "properties" (.obj []))).and <|
    (field "filled_roles" .textLists (optionalField members "filled_roles" (.obj []))).and <|
    (field "occurrence" .optionalInteger (optionalField members "occurrence" .null))
  let (id, typeName, binding, context, properties, filledRoles, occurrence) ← build .role fields
  pure { id, typeName, binding, context, properties, filledRoles, occurrence }

def decodeInnerRole (value : JsonValue) : Decoded InnerRole := do
  let members ← fieldsOf value
  let id ← required members "id"
  let fields := (field "id" .text id).and <|
    (field "binding" .optionalText (optionalField members "binding" .null)).and <|
    (field "properties" .textLists (optionalField members "properties" (.obj [])))
  let (id, binding, properties) ← build .innerRole fields
  pure { id, binding, properties }

def decodeContext (members : Members) : Decoded Context := do
  let id ← required members "id"
  let typeName ← required members "type"
  let innerRole ← decodeInnerRole (← required members "inner_role")
  let outerRole ← required members "outer_role"
  let fields := (field "id" .text id).and <|
    (field "psp_type" .text typeName).and <|
    (field "outer_role" .text outerRole).and <|
    (field "roles_in_context" .texts (optionalField members "roles" (.arr [])))
  let (id, typeName, outerRole, roles) ← build .context fields
  pure { id, typeName, innerRole, outerRole, roles }

def decodeEntity (value : JsonValue) : Decoded Entity := do
  let members ← fieldsOf value
  let kind ← required members "kind"
  match kind with
  | .str "context" => (decodeContext members).map .context
  | .str "rol" => (decodeRole members).map .role
  | _ => .error (.unknownKind kind)

/-- The entities under their ids; of two with one id the last one stays, at the place of the first. -/
def decodeEntities : List JsonValue → OrderedMap Entity → Decoded (OrderedMap Entity)
  | [], entities => .ok entities
  | item :: items, entities => do
    let entity ← decodeEntity item
    decodeEntities items (entities.insert entity.id entity)

def decodeCollection (members : Members) : Decoded Collection := do
  let items ← itemsOf (optionalField members "entities" (.arr []))
  let entities ← decodeEntities items .empty
  let name ← required members "name"
  let name ← build .collection (field "name" .text name)
  pure { name, entities }

def decode (value : JsonValue) : Decoded Collection :=
  match value with
  | .obj members =>
    match optionalField members "v" .null with
    | .str version =>
      if version = formatVersion then decodeCollection members
      else .error (.unsupportedVersion (.str version))
    | version => .error (.unsupportedVersion version)
  | _ => .error .notAnObject

end Records

end Artifact

def Collection.deserialize [Artifact.FieldChecks] (text : String) :
    Except Artifact.DecodeError Collection :=
  match JsonValue.parse text with
  | .ok value => Artifact.decode value
  | .error e => .error (.notJson e text)

end ContextRoles
