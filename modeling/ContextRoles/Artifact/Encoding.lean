import ContextRoles.Json.Writer
import ContextRoles.Model.Entity

/-! # Artifacts

A collection is kept as a versioned JSON document, one record per entity. An absent binding or
occurrence is left out of its record.
-/

namespace ContextRoles

namespace Artifact

def formatVersion : String := "1"

def fileSuffix : String := ".psp.json"

def textItems (texts : List String) : JsonValue := .arr (texts.map .str)

def textLists (lists : OrderedMap (List String)) : JsonValue :=
  .obj (lists.entries.map fun (name, texts) => (name, textItems texts))

def optionalMember {α : Type} (name : String) (f : α → JsonValue) (value : Option α) :
    List (String × JsonValue) :=
  (value.map fun v => (name, f v)).toList

def encodeRole (r : Role) : JsonValue :=
  .obj ([("kind", .str "rol"), ("id", .str r.id), ("type", .str r.typeName),
      ("context", .str r.context), ("properties", textLists r.properties),
      ("filled_roles", textLists r.filledRoles)] ++
    optionalMember "binding" .str r.binding ++ optionalMember "occurrence" .int r.occurrence)

def encodeInnerRole (r : InnerRole) : JsonValue :=
  .obj ([("id", .str r.id), ("properties", textLists r.properties)] ++
    optionalMember "binding" .str r.binding)

def encodeContext (c : Context) : JsonValue :=
  .obj [("kind", .str "context"), ("id", .str c.id), ("type", .str c.typeName),
    ("inner_role", encodeInnerRole c.innerRole), ("outer_role", .str c.outerRole),
    ("roles", textItems c.roles)]

def encodeEntity : Entity → JsonValue
  | .role r => encodeRole r
  | .context c => encodeContext c

def encode (c : Collection) : JsonValue :=
  .obj [("v", .str formatVersion), ("name", .str c.name),
    ("entities", .arr (c.entities.values.map encodeEntity))]

end Artifact

def Collection.serialize (c : Collection) (layout : JsonLayout) : String :=
  (Artifact.encode c).render layout

end ContextRoles
