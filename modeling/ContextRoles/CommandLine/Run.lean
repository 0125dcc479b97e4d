import ContextRoles.Artifact.LaxChecks
import ContextRoles.CommandLine.Arguments
import ContextRoles.Validation
import ContextRoles.Workspace.Compile
import ContextRoles.Workspace.ConfigFile
import ContextRoles.Workspace.Discovery
import ContextRoles.Workspace.Remote
import ContextRoles.Yaml.Writer

/-! # Running commands

A command reports to its output and complains on its error channel, where events of the log go too. Its
exit status is zero unless it complained of an error. Misuse of the arguments has a status of its own.
-/

namespace ContextRoles.CommandLine

open Files Workspace

/-- What a program run needs of its surroundings, the session aside. -/
structure Surroundings where
  ids : Nat → String
  web : Web

def print (line : String) : Action Unit := Action.report (.output line)

def complain (line : String) : Action Unit := Action.report (.complaint s!"Error: {line}")

def failureStatus : Nat := 1

def misuseStatus : Nat := 2

def giveUp (line : String) : Action Nat := do
  complain line
  pure failureStatus

/-- The place that a directory argument means. Where the directory that paths start from is gone, no path
from it means one. -/
def resolveDirectory (text : String) : Action Path := do
  let path := Path.ofString text
  let t := (← get).files
  if path.hasNull then throw (.files .nullCharacter)
  if path.anchor = .working ∧ ¬ t.isDirectoryAt t.working then
    throw (.files (.refused .missing path))
  pure (.ofLocation (path.resolve t.working))

def fileExists (path : Path) : Action Bool := Action.query fun t => t.exists? path

def missingDirectory (directory : Path) : String :=
  s!"directory '{directory.render}' does not exist."

variable [YamlFormat]

/-- The configuration of the workspace in a directory, or nothing after a complaint. -/
def openWorkspace (directory : Path) : Action (Option Config) := do
  if !(← fileExists directory) then
    complain (missingDirectory directory)
    pure none
  else
    let file := directory.child configFileName
    if !(← fileExists file) then
      complain (s!"no Perspectives workspace found at '{directory.render}'. " ++
        "Run 'psp init' to initialize a workspace.")
      pure none
    else
      match Config.load (← get).files file with
      | .ok config => pure (some config)
      | .error (.config error) =>
        complain error.message
        pure none
      | .error failure => throw failure

/-! ## Commands -/

def defaultBuildDirectory : String := ".psp-build"

def initialConfigText : String :=
  "# Perspectives Workspace Configuration\n" ++
    Config.render { buildDirectory := defaultBuildDirectory }

def runCreate (directory : String) : Action Nat := do
  let directory ← resolveDirectory directory
  let file := directory.child configFileName
  if !(← fileExists directory) then giveUp (missingDirectory directory)
  else if ← fileExists file then giveUp s!"workspace already exists at '{file.render}'."
  else
    Action.change .files fun t =>
      match t.write file (.text initialConfigText) with
      | .ok t => (.ok (), t)
      | .error e => (.error e, t)
    print s!"Initialized Perspectives workspace at '{file.render}'."
    pure 0

def runParse (env : Surroundings) (source : String) (indent : Int) : Action Nat := do
  match ← Action.attempt (loadSource env.web source) with
  | .error (.source error) => giveUp error.message
  | .error failure => throw failure
  | .ok text =>
    match ← Action.readSource env.ids text with
    | .error e => giveUp s!"{source}: {e.describe}"
    | .ok c =>
      print (c.serialize (.ofIndent (if indent = 0 then none else some indent)))
      pure 0

/-- Reports what the checks of a collection found, and whether there is an error. -/
def reportChecks (key : String) (c : Collection) : Action Bool := do
  let checks := c.validate
  checks.warnings.forM fun w => print s!"Warning: {key}: {w.message}"
  checks.errors.forM fun e => complain s!"{key}: {e.message}"
  pure !checks.errors.isEmpty

/-- Whether the checks of any collection find an error. All of them are reported. -/
def reportAll : List (String × Collection) → Action Bool
  | [] => pure false
  | (key, c) :: rest => do
    let found ← reportChecks key c
    let more ← reportAll rest
    pure (found || more)

variable [Artifact.FieldChecks]

def runCheck (env : Surroundings) (directory : String) : Action Nat := do
  let directory ← resolveDirectory directory
  match ← openWorkspace directory with
  | none => pure failureStatus
  | some config =>
    let build := directory.child config.buildDirectory
    let files ← Action.query fun t => findSources t directory [build]
    if files.isEmpty then
      print "No .psp files found in the workspace."
      pure 0
    else
      print s!"Checking {files.length} source file(s)..."
      match ← Action.attempt (compileFiles env.ids files build directory) with
      | .error (.compile error) => giveUp error.message
      | .error failure => throw failure
      | .ok compiled =>
        if ← reportAll compiled.entries then pure failureStatus
        else
          print "No issues found."
          pure 0

def listFiles (directory : Path) : List Path → Action Unit
  | [] => pure ()
  | file :: files => do
    match file.relativeTo? directory with
    | none => throw (.notBelow file directory)
    | some path =>
      print s!"  {path.render}"
      listFiles directory files

def runFetch (env : Surroundings) (directory : String) : Action Nat := do
  let directory ← resolveDirectory directory
  match ← openWorkspace directory with
  | none => pure failureStatus
  | some config =>
    if config.remoteSources.isEmpty then
      print "No remote sources configured. Nothing to fetch."
      pure 0
    else
      let target := directory.child config.remoteSyncDirectory
      match ← Action.attempt (fetchSources env.web target config.remoteSources) with
      | .error (.source error) => giveUp error.message
      | .error failure => throw failure
      | .ok files =>
        listFiles directory files
        print s!"Fetched {files.length} source(s) into '{target.render}'."
        pure 0

def Command.run (env : Surroundings) : Command → Action Nat
  | create directory => runCreate directory
  | parse source indent => runParse env source indent
  | check directory => runCheck env directory
  | fetch directory => runFetch env directory

/-! ## The program -/

/-- What a run of the program leaves behind, the file tree aside. -/
structure Result where
  status : Nat
  output : String
  errors : String
  deriving DecidableEq, Repr

def linesOf (lines : List String) : String := String.join (lines.map (· ++ "\n"))

def Grammar.helpText (g : Grammar) : String := linesOf (g.usage :: g.help)

def Stop.result : Stop → Result
  | help g => ⟨0, g.helpText, ""⟩
  | misuse g fault =>
    ⟨misuseStatus, "", linesOf [g.usage, s!"{g.program}: error: {fault.message}"]⟩

def severityName : Severity → String
  | .debug => "DEBUG"
  | .info => "INFO"
  | .warning => "WARNING"

/-- The line of an event in the log. Without the verbose option there are warnings only. -/
def logLine? (verbose : Bool) (e : Event) : Option String :=
  if verbose || e.severity = .warning then
    some s!"{severityName e.severity} {e.origin}: {e.message}"
  else none

def Result.ofNotices (verbose : Bool) (notices : List Notice) (status : Nat) : Result where
  status := status
  output := linesOf <| notices.filterMap fun
    | .output line => some line
    | _ => none
  errors := linesOf <| notices.filterMap fun
    | .event e => logLine? verbose e
    | .complaint line => some line
    | .output _ => none

def run (env : Surroundings) (arguments : List String) : Action Result := do
  match Invocation.ofArguments arguments with
  | .error stop => pure stop.result
  | .ok ⟨_, none⟩ => pure (Stop.help programGrammar).result
  | .ok ⟨verbose, some command⟩ =>
    modify fun s => { s with notices := [] }
    let status ← command.run env
    pure (.ofNotices verbose (← get).notices status)

end ContextRoles.CommandLine
