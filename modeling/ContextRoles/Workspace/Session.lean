import ContextRoles.Source.Reading
import ContextRoles.Workspace.Failure

/-! # Sessions

What the library does to its surroundings is a change of a session: the file tree, the ids that were
drawn so far, and what was reported. An action keeps the changes that it made before it failed.
-/

namespace ContextRoles.Workspace

open Files

inductive Severity where
  | debug
  | info
  | warning
  deriving DecidableEq, Repr

/-- Something that is worth a line in the log. -/
inductive Event where
  | parsing (file : Path)
  | wrote (artifact : Path)
  | upToDate (file : Path)
  | discarding (artifact : Path) (reason : String)
  | requesting (url : String)
  | fetched (url : String) (file : Path)
  deriving DecidableEq, Repr

namespace Event

def severity : Event → Severity
  | parsing _ => .info
  | wrote _ => .debug
  | upToDate _ => .debug
  | discarding _ _ => .warning
  | requesting _ => .debug
  | fetched _ _ => .info

def origin : Event → String
  | requesting _ => "perspectives.compiler.sources"
  | fetched _ _ => "perspectives.compiler.sources"
  | _ => "perspectives.compiler.build"

def message : Event → String
  | parsing file => s!"Parsing {file.render}"
  | wrote artifact => s!"Wrote {artifact.render}"
  | upToDate file => s!"Up to date: {file.render}"
  | discarding artifact reason => s!"Discarding unreadable artifact {artifact.render}: {reason}"
  | requesting url => s!"GET {url}"
  | fetched url file => s!"Fetched {url} -> {file.render}"

end Event

inductive Notice where
  | event (event : Event)
  | output (line : String)
  | complaint (line : String)
  deriving DecidableEq, Repr

structure Session where
  files : FileTree
  /-- The number of generated ids that were drawn. -/
  drawn : Nat := 0
  notices : List Notice := []

abbrev Action := EStateM Failure Session

namespace Action

variable {α : Type}

def report (n : Notice) : Action Unit := modify fun s => { s with notices := s.notices ++ [n] }

def log (e : Event) : Action Unit := report (.event e)

def query (ask : FileTree → Except FileError α) : Action α := fun s =>
  match ask s.files with
  | .ok a => .ok a s
  | .error e => .error (.files e) s

/-- A change of the file tree, with a failure in words of its own. -/
def change (failure : FileError → Failure) (f : FileTree → Except FileError Unit × FileTree) :
    Action Unit := fun s =>
  match f s.files with
  | (.ok _, files) => .ok () { s with files }
  | (.error e, files) => .error (failure e) { s with files }

/-- An action that ends in success, with its failure as a result. -/
def attempt (action : Action α) : Action (Except Failure α) := fun s =>
  match action s with
  | .ok a s => .ok (.ok a) s
  | .error e s => .ok (.error e) s

def readSource (ids : Nat → String) (text : String) :
    Action (Except Parsing.ParseError Collection) := fun s =>
  let reading := Source.read ids s.drawn text
  .ok reading.result { s with drawn := reading.drawn }

end Action

end ContextRoles.Workspace
