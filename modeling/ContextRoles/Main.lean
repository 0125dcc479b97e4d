import ContextRoles.CommandLine.Run
import ContextRoles.Uuid

/-! # The program

The places that the arguments lead to are read into a file tree, the command is run on it, and what it
changed is written. There is no way to the network from here, so every request fails.
-/

namespace ContextRoles

open Files Workspace CommandLine

def isRelevant (name : String) : Bool :=
  isSourceName name || Artifact.fileSuffix.toList.isSuffixOf name.toList || name = configFileName

def nanosecondsOf (time : IO.FS.SystemTime) : Int := time.sec * 1000000000 + time.nsec.toNat

/-- Adds what stands in a place, with all that is below it. -/
partial def loadPlace (relevant : Bool) (t : FileTree) (place : Location) : IO FileTree := do
  let path := (← IO.currentDir) / (Path.ofLocation place).render
  if !(← path.pathExists) then return t
  let modified := nanosecondsOf (← path.metadata).modified
  if ← path.isDir then
    let mut t := t.set place ⟨.directory, modified⟩
    for entry in ← path.readDir do
      if (← entry.path.symlinkMetadata).type != .symlink then
        t ← loadPlace (isRelevant entry.fileName) t (place ++ [entry.fileName])
    return t
  else
    let content ← if relevant then Content.ofBytes <$> IO.FS.readBinFile path
      else pure .undecodable
    return t.set place ⟨.file content, modified⟩

def loadWithAncestors (t : FileTree) (place : Location) : IO FileTree := do
  let mut t := t
  for size in [1:place.length] do
    let above := place.take size
    let path := (← IO.currentDir) / (Path.ofLocation above).render
    if (t.get? above).isNone && (← path.isDir) then
      t := t.set above ⟨.directory, nanosecondsOf (← path.metadata).modified⟩
  loadPlace true t place

def startingPaths : Command → List Path
  | .create directory => [(Path.ofString directory).child configFileName]
  | .parse source _ => [.ofString source]
  | .check directory => [.ofString directory]
  | .fetch directory => [.ofString directory]

/-- The directories that the configuration of a workspace leads to. -/
def configuredPaths (t : FileTree) (command : Command) : List Path :=
  (startingPaths command).flatMap fun directory =>
    match Config.load t (directory.child configFileName) with
    | .ok config => [directory.child config.buildDirectory, directory.child config.remoteSyncDirectory]
    | .error _ => []

def loadCommand (t : FileTree) (command : Command) : IO FileTree := do
  let load (t : FileTree) (path : Path) : IO FileTree :=
    if path.hasNull then pure t else loadWithAncestors t (path.resolve t.working)
  let t ← (startingPaths command).foldlM load t
  (configuredPaths t command).foldlM load t

/-- Writes the places in which the second tree differs from the first. -/
def writeChanges (old new : FileTree) : IO Unit := do
  for (place, entry) in new.entries do
    if (old.get? place).map Entry.node ≠ some entry.node then
      let path := Path.ofLocation place
      match entry.node with
      | .directory => IO.FS.createDirAll path.render
      | .file (.text text) =>
        IO.FS.createDirAll path.parent.render
        IO.FS.writeFile path.render text
      | .file .undecodable => pure ()

def randomIds : IO (Nat → String) := do
  let word (bytes : ByteArray) : UInt64 :=
    bytes.foldl (fun n byte => n * 256 + byte.toUInt64) 0
  let high ← IO.getRandomBytes 8
  let low ← IO.getRandomBytes 8
  return Uuid.supply (word high, word low)

def runProgram (arguments : List String) : IO UInt32 := do
  let working := (Path.ofString (← IO.currentDir).toString).parts
  let start : FileTree := { working }
  let files ← match Invocation.ofArguments arguments with
    | .ok ⟨_, some command⟩ => do
      let t ← loadWithAncestors start working
      loadCommand t command
    | _ => pure start
  let env : Surroundings := ⟨← randomIds, fun _ => .failure "no network"⟩
  match run env arguments ⟨files, 0, []⟩ with
  | .ok result s =>
    writeChanges files s.files
    (← IO.getStdout).putStr result.output
    (← IO.getStderr).putStr result.errors
    return result.status.toUInt32
  | .error failure s =>
    writeChanges files s.files
    (← IO.getStderr).putStrLn failure.message
    return 1

end ContextRoles

def main (arguments : List String) : IO UInt32 := ContextRoles.runProgram arguments
