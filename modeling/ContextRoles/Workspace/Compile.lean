import ContextRoles.Workspace.Key
import ContextRoles.Workspace.Session

/-! # Compiling

The collection of a source is kept as an artifact. An artifact that is strictly newer than its source
stands for it; one that cannot be read is replaced.
-/

namespace ContextRoles.Workspace

open Files

/-- Whether there is an artifact that was changed after its source. -/
def isUpToDate (t : FileTree) (file artifact : Path) : Except FileError Bool := do
  if ← t.exists? artifact then
    let artifactEntry ← t.status artifact
    let sourceEntry ← t.status file
    pure (decide (sourceEntry.modified < artifactEntry.modified))
  else pure false

variable [Artifact.FieldChecks]

def readArtifact (t : FileTree) (path : Path) : Except Failure Collection := do
  let text ← (t.readText path).mapError .files
  (Collection.deserialize text).mapError .artifact

def writeArtifact (c : Collection) (path : Path) : Action Unit :=
  Action.change .files fun t => t.store path (c.serialize .compact)

/-- The reason to discard an artifact, or nothing where reading it is a failure. -/
def Failure.reasonToDiscard? : Failure → Option String
  | files error => if error.isOfSystem then some error.message else none
  | artifact (.wrongFields _ _) => none
  | artifact error => some error.message
  | _ => none

def cached? (file artifact : Path) : Action (Option Collection) := do
  if ← Action.query fun t => isUpToDate t file artifact then
    match readArtifact (← get).files artifact with
    | .ok c =>
      Action.log (.upToDate file)
      pure (some c)
    | .error failure =>
      match failure.reasonToDiscard? with
      | some reason =>
        Action.log (.discarding artifact reason)
        pure none
      | none => throw failure
  else pure none

def readSourceFile (file : Path) : Action String := fun s =>
  match s.files.readText file with
  | .ok text => .ok text s
  | .error e => .error (if e.isOfSystem then .compile (.unreadable file e) else .files e) s

def compileSource (ids : Nat → String) (file artifact : Path) : Action Collection := do
  let text ← readSourceFile file
  Action.log (.parsing file)
  match ← Action.readSource ids text with
  | .error e => throw (.compile (.unparsable file e))
  | .ok c =>
    writeArtifact c artifact
    Action.log (.wrote artifact)
    pure c

def compileFile (ids : Nat → String) (file artifact : Path) : Action Collection := do
  match ← cached? file artifact with
  | some c => pure c
  | none => compileSource ids file artifact

/-- Compiles files into a map that has some collections by key already. Of files with one key the first
counts. -/
def compileInto (ids : Nat → String) (build root : Path) (compiled : OrderedMap Collection) :
    List Path → Action (OrderedMap Collection)
  | [] => pure compiled
  | file :: files => do
    match sourceKey (← get).files.working file root with
    | .error failure => throw failure
    | .ok key =>
      if compiled.contains key then compileInto ids build root compiled files
      else
        let c ← compileFile ids file (artifactPath key build)
        compileInto ids build root (compiled.insert key c) files

def compileFiles (ids : Nat → String) (files : List Path) (build root : Path) :
    Action (OrderedMap Collection) := compileInto ids build root .empty files

end ContextRoles.Workspace
