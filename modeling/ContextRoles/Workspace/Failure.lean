import ContextRoles.Artifact.Decoding
import ContextRoles.Files.Access
import ContextRoles.Parsing.Message
import ContextRoles.Workspace.Config

/-! # What can go wrong in a workspace

Failures of the file tree, of artifacts and of the network are told apart from those that compiling,
fetching and configuring report in their own words.
-/

namespace ContextRoles.Workspace

open Files Parsing

inductive CompileError where
  | outsideRoot (file root : Path)
  | unreadable (file : Path) (error : FileError)
  | unparsable (file : Path) (error : ParseError)

inductive SourceError where
  | unreadable (location : String) (error : FileError)
  | badStatus (url : String) (status : Nat)
  | unreachable (url reason : String)
  | unwritable (file : Path) (error : FileError)

inductive ConfigError where
  | missing (file : Path)
  | unreadable (error : FileError)
  | invalid (label : String) (fault : ConfigFault)

inductive Failure where
  | files (error : FileError)
  | artifact (error : Artifact.DecodeError)
  | compile (error : CompileError)
  | source (error : SourceError)
  | config (error : ConfigError)
  /-- A configuration has a scalar that makes no sense. -/
  | scalar (fault : Yaml.ScalarFault)
  /-- A URL cannot be asked for. -/
  | malformedUrl (url reason : String)
  /-- The root itself was given as a source file. -/
  | emptyName
  | notBelow (path directory : Path)

def CompileError.message : CompileError → String
  | outsideRoot file root => s!"Source file '{file.render}' is not under '{root.render}'"
  | unreadable file error => s!"Cannot read source file '{file.render}': {error.message}"
  | unparsable file error => s!"Parse error in '{file.render}': {error.describe}"

def SourceError.message : SourceError → String
  | unreadable location error => s!"Cannot read '{location}': {error.message}"
  | badStatus url status => s!"Fetching '{url}' failed with status {status}"
  | unreachable url reason => s!"Fetching '{url}' failed: {reason}"
  | unwritable file error => s!"Cannot write '{file.render}': {error.message}"

def ConfigError.message : ConfigError → String
  | missing file => s!"Workspace config file not found: {file.render}"
  | unreadable error => s!"Cannot read workspace config file: {error.message}"
  | invalid label fault => fault.message label

def Failure.message : Failure → String
  | files error => error.message
  | artifact error => error.message
  | compile error => error.message
  | source error => error.message
  | config error => error.message
  | scalar fault => fault.message
  | malformedUrl _ reason => reason
  | emptyName => "PosixPath('.') has an empty name"
  | notBelow path directory =>
    s!"{Text.quote path.render} is not in the subpath of {Text.quote directory.render}" ++
      " OR one path is relative and the other is absolute."

end ContextRoles.Workspace
