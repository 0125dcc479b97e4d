import ContextRoles.Workspace.Session

/-! # Configuration files -/

namespace ContextRoles.Workspace

open Files

/-- Reads the configuration in a file, whose path is the label of its faults. -/
def Config.load [YamlFormat] (t : FileTree) (file : Path) : Except Failure Config :=
  match t.readText file with
  | .error (.refused .missing _) => .error (.config (.missing file))
  | .error e => .error (if e.isOfSystem then .config (.unreadable e) else .files e)
  | .ok text =>
    match Config.parse text with
    | .ok config => .ok config
    | .error (.badScalar fault) => .error (.scalar fault)
    | .error fault => .error (.config (.invalid file.render fault))

end ContextRoles.Workspace
