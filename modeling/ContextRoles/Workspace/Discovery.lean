import ContextRoles.Workspace.Key

/-! # Finding sources

Everything below a directory whose name has the suffix of sources is one, hidden or not, in the order of
the paths' names. Excluded directories are skipped, and so are those that may not be listed. A directory
with a path that is too long to list it is an error.
-/

namespace ContextRoles.Workspace

open Files

def isSourceName (name : String) : Bool := sourceSuffix.toList.isSuffixOf name.toList

/-- Whether a list of names comes before another or is the same, name by name. -/
def isOrdered : List String → List String → Bool
  | [], _ => true
  | _ :: _, [] => false
  | a :: as, b :: bs => decide (a < b) || (a == b && isOrdered as bs)

/-- Whether names below a root can be come to by listing one directory after the other. -/
def isListed (t : FileTree) (root : Path) (names : List String) : Bool :=
  (List.range names.length).all fun depth =>
    !t.denies .list ⟨root.anchor, root.parts ++ names.take depth⟩

def pathBelow (root : Path) (directory place : Location) : Path :=
  ⟨root.anchor, root.parts ++ place.drop directory.length⟩

/-- A directory that is come to below a root, by the first path on the way that is too long. -/
def tooDeep? (t : FileTree) (root : Path) (directory : Location) : Option Path :=
  (t.below directory).findSome? fun (place, entry) =>
    let path := pathBelow root directory place
    if entry.isDirectory && isListed t root (place.drop directory.length) &&
        decide (maxPathSize < path.render.utf8ByteSize) &&
        decide (path.parent.render.utf8ByteSize ≤ maxPathSize) then some path
    else none

def findSources (t : FileTree) (root : Path) (exclude : List Path) :
    Except FileError (List Path) :=
  if exclude.any Path.hasNull then .error .nullCharacter
  else
    match t.isDirectory? root with
    | .error e => .error e
    | .ok false => .ok []
    | .ok true =>
      match t.locate root with
      | .error e => .error e
      | .ok directory =>
        match tooDeep? t root directory with
        | some path => .error (.refused .nameTooLong path)
        | none =>
          let excluded := exclude.map (Path.resolve t.working)
          let found := (t.below directory).filterMap fun (place, _) =>
            let path := pathBelow root directory place
            let skipped := excluded.any fun excludedPlace =>
              Path.isBelow excludedPlace (path.resolve t.working)
            if isSourceName (place.getLast?.getD "") &&
                isListed t root (place.drop directory.length) && !skipped then some path
            else none
          .ok (found.mergeSort fun p q => isOrdered p.parts q.parts)

end ContextRoles.Workspace
