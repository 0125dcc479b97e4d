/-! # The grammar of the command line

The program and each of its commands have options and at most one operand. A grammar also has the texts
that explain it.
-/

namespace ContextRoles.CommandLine

inductive Flag where
  | help
  | verbose
  | indent
  deriving DecidableEq, Repr

structure Switch where
  flag : Flag
  /-- The names, in the order in which they are listed. -/
  names : List String
  takesValue : Bool := false
  deriving Repr

inductive Operand where
  | optional (name : String)
  | required (name : String)
  /-- The name of a command, and everything that follows it. -/
  | command (name : String)
  deriving DecidableEq, Repr

structure Grammar where
  program : String
  switches : List Switch
  operand : Operand
  usage : String
  help : List String
  deriving Repr

inductive CommandName where
  | create
  | parse
  | check
  | fetch
  deriving DecidableEq, Repr

namespace CommandName

def all : List CommandName := [create, parse, check, fetch]

def text : CommandName → String
  | create => "init"
  | parse => "parse"
  | check => "check"
  | fetch => "fetch"

def ofText? (name : String) : Option CommandName := all.find? fun command => command.text = name

end CommandName

def helpSwitch : Switch := ⟨.help, ["-h", "--help"], false⟩

def verboseSwitch : Switch := ⟨.verbose, ["-v", "--verbose"], false⟩

def indentSwitch : Switch := ⟨.indent, ["--indent"], true⟩

def directoryHelp (about : String) (operand : List String) : List String :=
  ["", about, "", "positional arguments:"] ++ operand ++
    ["", "options:", "  -h, --help  show this help message and exit"]

def workspaceOperand : List String :=
  ["  directory   Directory containing the Perspectives workspace (default:",
    "              current directory)"]

def programGrammar : Grammar where
  program := "psp"
  switches := [helpSwitch, verboseSwitch]
  operand := .command "COMMAND"
  usage := "usage: psp [-h] [-v] COMMAND ..."
  help :=
    ["", "Perspectives - parse and check context/role sources", "", "positional arguments:",
      "  COMMAND",
      "    init         Initialize a new Perspectives workspace",
      "    parse        Parse one source and print the result as JSON",
      "    check        Parse and check every source in the workspace",
      "    fetch        Download configured remote sources",
      "", "options:",
      "  -h, --help     show this help message and exit",
      "  -v, --verbose  Log progress to stderr"]

def CommandName.grammar : CommandName → Grammar
  | create =>
    { program := "psp init"
      switches := [helpSwitch]
      operand := .optional "directory"
      usage := "usage: psp init [-h] [directory]"
      help := directoryHelp "Create a .psp-workspace.yaml file in a directory."
        ["  directory   Directory to initialize the workspace in (default: current",
          "              directory)"] }
  | parse =>
    { program := "psp parse"
      switches := [helpSwitch, indentSwitch]
      operand := .required "source"
      usage := "usage: psp parse [-h] [--indent INDENT] source"
      help :=
        ["", "Parse a .psp file or URL and print the entity collection.", "",
          "positional arguments:",
          "  source           Path or http(s) URL of a .psp source",
          "", "options:",
          "  -h, --help       show this help message and exit",
          "  --indent INDENT  JSON indentation; 0 prints compact JSON (default: 2)"] }
  | check =>
    { program := "psp check"
      switches := [helpSwitch]
      operand := .optional "directory"
      usage := "usage: psp check [-h] [directory]"
      help := directoryHelp
        "Compile all .psp files in the workspace and run consistency checks." workspaceOperand }
  | fetch =>
    { program := "psp fetch"
      switches := [helpSwitch]
      operand := .optional "directory"
      usage := "usage: psp fetch [-h] [directory]"
      help := directoryHelp
        "Download the remote sources listed in the workspace configuration." workspaceOperand }

end ContextRoles.CommandLine
