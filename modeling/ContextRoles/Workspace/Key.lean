import ContextRoles.Artifact.Encoding
import ContextRoles.Workspace.Failure

/-! # Keys of sources

The key of a source is its path below the root without suffix, and it names the artifact below the
build directory.
-/

namespace ContextRoles.Workspace

open Files

def sourceSuffix : String := ".psp"

/-- The key of a source below a root, where paths start from a working directory. -/
def sourceKey (working : Location) (file root : Path) : Except Failure String :=
  if file.hasNull || root.hasNull then .error (.compile (.outsideRoot file root))
  else
    let place := Path.ofLocation (file.resolve working)
    match place.relativeTo? (Path.ofLocation (root.resolve working)) with
    | none => .error (.compile (.outsideRoot file root))
    | some path =>
      match path.withoutSuffix? with
      | none => .error .emptyName
      | some path =>
        .ok (String.ofList (path.render.toList.map fun c => if c = '\\' then '/' else c))

def artifactPath (key : String) (build : Path) : Path :=
  let parts := (Text.splitAt '/' key.toList).map String.ofList
  (parts.dropLast.foldl Path.child build).child (parts.getLast?.getD "" ++ Artifact.fileSuffix)

end ContextRoles.Workspace
