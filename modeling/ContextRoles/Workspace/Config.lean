import ContextRoles.Yaml.Format

/-! # The configuration of a workspace

A configuration names the directory for artifacts, the directory that remote sources are fetched into,
and the remote sources. It is kept as a YAML mapping; the fields are checked in this order.
-/

namespace ContextRoles.Workspace

def configFileName : String := ".psp-workspace.yaml"

def defaultSyncDirectory : String := ".psp-remotes"

def isUrl (location : String) : Bool :=
  "http://".toList.isPrefixOf location.toList || "https://".toList.isPrefixOf location.toList

structure RemoteSource where
  name : String
  url : String
  deriving DecidableEq, Repr

structure Config where
  buildDirectory : String
  remoteSyncDirectory : String := defaultSyncDirectory
  remoteSources : List RemoteSource := []
  deriving DecidableEq, Repr

inductive ConfigFault where
  | malformedYaml
  | badScalar (fault : Yaml.ScalarFault)
  | noMapping
  | missingField (name : String)
  | noText (name : String)
  | noSourceList
  | noSourceMapping (index : Nat)
  | missingSourceField (index : Nat) (name : String)
  | noSourceText (index : Nat) (name : String)
  | noSourceUrl (index : Nat) (name : String)
  | duplicateNames (names : List String)
  deriving DecidableEq, Repr

/-- The wording of a fault, with the label of the text that has it. -/
def ConfigFault.message (label : String) : ConfigFault → String
  | malformedYaml => s!"Invalid YAML in {label}"
  | badScalar fault => fault.message
  | noMapping => s!"{label}: workspace config must be a YAML mapping"
  | missingField name => s!"{label}: missing required field '{name}'"
  | noText name => s!"{label}: '{name}' must be a string"
  | noSourceList => s!"{label}: 'remote-sources' must be a list"
  | noSourceMapping index => s!"{label}: remote-sources[{index}] must be a YAML mapping"
  | missingSourceField index name =>
    s!"{label}: remote-sources[{index}]: missing required field '{name}'"
  | noSourceText index name => s!"{label}: remote-sources[{index}]: '{name}' must be a string"
  | noSourceUrl index name =>
    s!"{label}: remote-sources[{index}] '{name}': 'url' must be an http(s) URL"
  | duplicateNames names =>
    s!"{label}: duplicate remote source names: " ++ String.intercalate ", " names

namespace Config

def buildKey : String := "build-directory"

def syncKey : String := "remote-sync-directory"

def sourcesKey : String := "remote-sources"

def repeatedNames (sources : List RemoteSource) : List String :=
  let names := sources.map RemoteSource.name
  ((names.filter fun name => 1 < names.count name).eraseDups).mergeSort fun a b => decide (a ≤ b)

/-- A text that has to be there, with the faults for its absence and for another kind of value. -/
def requireText (members : List (Yaml × Yaml)) (name : String) (missing wrong : ConfigFault) :
    Except ConfigFault String :=
  match Yaml.member? members name with
  | none => .error missing
  | some (.str text) => .ok text
  | some _ => .error wrong

def readSource (index : Nat) (entry : Yaml) : Except ConfigFault RemoteSource :=
  match entry with
  | .map members => do
    let field (name : String) :=
      requireText members name (.missingSourceField index name) (.noSourceText index name)
    let name ← field "name"
    let url ← field "url"
    if isUrl url then pure { name, url } else throw (.noSourceUrl index name)
  | _ => .error (.noSourceMapping index)

def readSources (first : Nat) : List Yaml → Except ConfigFault (List RemoteSource)
  | [] => .ok []
  | entry :: entries => do
    let source ← readSource first entry
    let sources ← readSources (first + 1) entries
    pure (source :: sources)

def ofYaml (value : Yaml) : Except ConfigFault Config :=
  match value with
  | .map members => do
    let field (name : String) := requireText members name (.missingField name) (.noText name)
    let buildDirectory ← field buildKey
    let remoteSyncDirectory ←
      if (Yaml.member? members syncKey).isSome then field syncKey else pure defaultSyncDirectory
    let remoteSources ← match Yaml.member? members sourcesKey with
      | none => pure []
      | some (.seq entries) => readSources 0 entries
      | some _ => throw .noSourceList
    let repeated := repeatedNames remoteSources
    if repeated.isEmpty then pure { buildDirectory, remoteSyncDirectory, remoteSources }
    else throw (.duplicateNames repeated)
  | _ => .error .noMapping

def RemoteSource.toYaml (source : RemoteSource) : Yaml :=
  .map [(.str "name", .str source.name), (.str "url", .str source.url)]

/-- The YAML value of a configuration. What is as by default is left out. -/
def toYaml (config : Config) : Yaml :=
  .map ([(.str buildKey, .str config.buildDirectory)] ++
    (if config.remoteSyncDirectory = defaultSyncDirectory then []
      else [(.str syncKey, .str config.remoteSyncDirectory)]) ++
    (if config.remoteSources.isEmpty then []
      else [(.str sourcesKey, .seq (config.remoteSources.map RemoteSource.toYaml))]))

variable [YamlFormat]

def parse (text : String) : Except ConfigFault Config :=
  match YamlFormat.read text with
  | .ok value => ofYaml value
  | .error .malformed => .error .malformedYaml
  | .error (.badScalar fault) => .error (.badScalar fault)

def render (config : Config) : String := YamlFormat.render config.toYaml

end Config

end ContextRoles.Workspace
