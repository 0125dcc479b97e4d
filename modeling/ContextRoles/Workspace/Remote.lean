import ContextRoles.Workspace.Key
import ContextRoles.Workspace.Session

/-! # Remote sources

A location is a URL or a path. The web is a function from URLs to answers; only an answer with a status
of success has a source for a body. What looks like a URL may be none that can be asked for. The body of an
answer is a text of characters, which surrogates are not.
-/

namespace ContextRoles.Workspace

open Files

inductive WebAnswer where
  | response (status : Nat) (body : String)
  | failure (reason : String)
  /-- There was no request, as the URL is malformed. -/
  | malformed (reason : String)
  deriving DecidableEq, Repr

abbrev Web := String → WebAnswer

def isSuccess (status : Nat) : Bool := 200 ≤ status && status < 300

def request (web : Web) (url : String) : Action String := do
  Action.log (.requesting url)
  match web url with
  | .response status body =>
    if isSuccess status then pure body else throw (.source (.badStatus url status))
  | .failure reason => throw (.source (.unreachable url reason))
  | .malformed reason => throw (.malformedUrl url reason)

/-- The text of a file, where a refusal is a failure of the source. -/
def loadFile (location : String) : Action String := fun s =>
  match s.files.readText (.ofString location) with
  | .ok text => .ok text s
  | .error e => .error (if e.isOfSystem then .source (.unreadable location e) else .files e) s

def loadSource (web : Web) (location : String) : Action String :=
  if isUrl location then request web location else loadFile location

def unwritable (file : Path) (e : FileError) : Failure :=
  if e.isOfSystem then .source (.unwritable file e) else .files e

def RemoteSource.target (source : RemoteSource) (directory : Path) : Path :=
  directory.child (source.name ++ sourceSuffix)

def fetchSource (web : Web) (directory : Path) (source : RemoteSource) : Action Path := do
  let text ← request web source.url
  let file := source.target directory
  Action.change (unwritable file) fun t => t.store file text
  Action.log (.fetched source.url file)
  pure file

/-- Writes the sources into a directory, up to the first that fails. -/
def fetchSources (web : Web) (directory : Path) : List RemoteSource → Action (List Path)
  | [] => pure []
  | source :: sources => do
    let file ← fetchSource web directory source
    let files ← fetchSources web directory sources
    pure (file :: files)

end ContextRoles.Workspace
