import ContextRoles.CommandLine.Grammar
import ContextRoles.CommandLine.Number
import ContextRoles.Text.Quoted

/-! # Reading arguments

Arguments are told apart first: options, the two dashes after which there are none, and plain ones. Then
they are read from left to right. A long option may be shortened and may have its value behind an equals
sign; short options may stand together. What nothing asks for is collected and refused at the end.
-/

namespace ContextRoles.CommandLine

/-! ## Misuse -/

inductive Misuse where
  | ambiguous (argument : String) (names : List String)
  | unwantedValue (switch : Switch) (value : String)
  | missingValue (switch : Switch)
  | notInteger (switch : Switch) (value : String)
  | unknownCommand (operand name : String)
  | missingOperand (name : String)
  | unrecognized (arguments : List String)

inductive Stop where
  | help (grammar : Grammar)
  | misuse (grammar : Grammar) (fault : Misuse)

def Switch.label (s : Switch) : String := String.intercalate "/" s.names

def Misuse.message : Misuse → String
  | ambiguous argument names =>
    s!"ambiguous option: {argument} could match " ++ String.intercalate ", " names
  | unwantedValue switch value =>
    s!"argument {switch.label}: ignored explicit argument {Text.quote value}"
  | missingValue switch => s!"argument {switch.label}: expected one argument"
  | notInteger switch value => s!"argument {switch.label}: invalid int value: {Text.quote value}"
  | unknownCommand operand name =>
    s!"argument {operand}: invalid choice: {Text.quote name} (choose from " ++
      String.intercalate ", " (CommandName.all.map fun c => Text.quote c.text) ++ ")"
  | missingOperand name => s!"the following arguments are required: {name}"
  | unrecognized arguments => "unrecognized arguments: " ++ String.intercalate " " arguments

/-! ## Telling arguments apart -/

/-- An option as it was given. No switch belongs to an unknown one. -/
structure SwitchUse where
  switch : Option Switch
  name : String
  /-- Whether an equals sign stands before the value. -/
  signed : Bool := false
  value : Option String := none

inductive Token where
  | plain
  | dashes
  | option (use : SwitchUse)

def Token.isPlain : Token → Bool
  | plain => true
  | _ => false

namespace Grammar

variable (g : Grammar)

def names : List (String × Switch) := g.switches.flatMap fun s => s.names.map (·, s)

/-- The part of an argument before its first equals sign, and the part behind it. -/
def cutValue (argument : List Char) : List Char × Option (List Char) :=
  match argument.dropWhile (· ≠ '=') with
  | [] => (argument, none)
  | _ :: value => (argument.takeWhile (· ≠ '='), some value)

def candidates (argument : List Char) : List SwitchUse :=
  if argument[1]? = some '-' then
    let (name, value) := cutValue argument
    (g.names.filter fun (full, _) => name.isPrefixOf full.toList).map fun (full, switch) =>
      ⟨some switch, full, value.isSome, value.map String.ofList⟩
  else
    g.names.filterMap fun (full, switch) =>
      if full.toList = argument.take 2 then
        some ⟨some switch, full, false, some (String.ofList (argument.drop 2))⟩
      else if argument.isPrefixOf full.toList then some ⟨some switch, full, false, none⟩
      else none

def classify (argument : String) : Except Stop Token :=
  let chars := argument.toList
  if chars.head? ≠ some '-' then .ok .plain
  else
    match g.names.lookup argument with
    | some switch => .ok (.option ⟨some switch, argument, false, none⟩)
    | none =>
      if chars = ['-'] then .ok .plain
      else
        let (name, value) := cutValue chars
        match value, g.names.lookup (String.ofList name) with
        | some value, some switch =>
          .ok (.option ⟨some switch, String.ofList name, true, some (String.ofList value)⟩)
        | _, _ =>
          match g.candidates chars with
          | [use] => .ok (.option use)
          | [] =>
            if isNegativeNumber argument || chars.contains ' ' then .ok .plain
            else .ok (.option ⟨none, argument, false, none⟩)
          | uses => .error (.misuse g (.ambiguous argument (uses.map SwitchUse.name)))

/-- The arguments with what they are. Behind two dashes there are no options. -/
def tokens : List String → Except Stop (List (Token × String))
  | [] => .ok []
  | argument :: arguments =>
    if argument = "--" then
      .ok ((.dashes, argument) :: arguments.map fun argument => (.plain, argument))
    else do
      let token ← g.classify argument
      let rest ← tokens arguments
      pure ((token, argument) :: rest)

end Grammar

/-! ## Reading -/

structure Reading where
  verbose : Bool := false
  indent : Option Int := none
  operand : Option String := none
  command : Option (String × List String) := none
  /-- An option whose value comes next. -/
  awaiting : Option Switch := none
  extras : List String := []

namespace Grammar

variable (g : Grammar)

def stop {α : Type} (fault : Misuse) : Except Stop α := .error (.misuse g fault)

def apply (r : Reading) (switch : Switch) (value : String) : Except Stop Reading :=
  match switch.flag with
  | .help => .error (.help g)
  | .verbose => .ok { r with verbose := true }
  | .indent =>
    match readInteger? value with
    | some n => .ok { r with indent := some n }
    | none => g.stop (.notInteger switch value)

/-- Follows an option without a value of its own, which may come next. -/
def applyBare (r : Reading) (switch : Switch) : Except Stop Reading :=
  if switch.takesValue then .ok { r with awaiting := some switch } else g.apply r switch ""

/-- The options that stand together with another in one argument, and what is left of it where no option
has the next letter. -/
def cluster (switch : Switch) (short signed : Bool) :
    List Char → Except Stop (List Switch × Option String)
  | [] => g.stop (.unwantedValue switch "")
  | c :: rest =>
    if !short || signed || c = '-' then
      g.stop (.unwantedValue switch (String.ofList (c :: rest)))
    else
      match g.names.lookup (String.ofList ['-', c]) with
      | none => .ok ([switch], some (String.ofList ('-' :: c :: rest)))
      | some next =>
        match rest with
        | [] => .ok ([switch, next], none)
        | d :: more => do
          let (switches, left) ← if d = '=' then cluster next true true more
            else cluster next true false (d :: more)
          pure (switch :: switches, left)

def applyUse (r : Reading) (use : SwitchUse) (argument : String) : Except Stop Reading :=
  match use.switch with
  | none => .ok { r with extras := r.extras ++ [argument] }
  | some switch =>
    match use.value with
    | none => g.applyBare r switch
    | some value =>
      if switch.takesValue then g.apply r switch value
      else do
        let short := use.name.toList[1]? ≠ some '-'
        let (switches, left) ← g.cluster switch short use.signed value.toList
        switches.foldlM g.applyBare { r with extras := r.extras ++ left.toList }

/-- Whether two dashes belong to the operand, as nothing was read for it yet. -/
def dashesLead (r : Reading) (rest : List (Token × String)) : Bool :=
  r.operand.isNone && match g.operand with
    | .optional _ => true
    | _ => rest.head?.any fun (token, _) => token.isPlain

def readTokens (r : Reading) : List (Token × String) → Except Stop Reading
  | [] =>
    match r.awaiting with
    | some switch => g.stop (.missingValue switch)
    | none => .ok r
  | (token, argument) :: rest =>
    match r.awaiting with
    | some switch =>
      if token.isPlain then do
        readTokens (← g.apply { r with awaiting := none } switch argument) rest
      else g.stop (.missingValue switch)
    | none =>
      match token with
      | .option use => do readTokens (← g.applyUse r use argument) rest
      | .plain =>
        match g.operand, r.operand with
        | .command _, _ => .ok { r with command := some (argument, rest.map Prod.snd) }
        | _, none =>
          let r := { r with operand := some argument }
          match rest with
          | (.dashes, _) :: rest => readTokens r rest
          | rest => readTokens r rest
        | _, some _ => readTokens { r with extras := r.extras ++ [argument] } rest
      | .dashes =>
        if g.dashesLead r rest then
          match g.operand with
          | .command _ => .ok { r with command := some (argument, rest.map Prod.snd) }
          | _ => readTokens r rest
        else readTokens { r with extras := r.extras ++ [argument] } rest

def read (arguments : List String) : Except Stop Reading := do
  let r ← g.readTokens {} (← g.tokens arguments)
  match g.operand, r.operand with
  | .required name, none => g.stop (.missingOperand name)
  | _, _ => pure r

end Grammar

/-! ## Invocations -/

inductive Command where
  | create (directory : String)
  | parse (source : String) (indent : Int)
  | check (directory : String)
  | fetch (directory : String)
  deriving DecidableEq, Repr

structure Invocation where
  verbose : Bool
  command : Option Command
  deriving DecidableEq, Repr

def defaultIndent : Int := 2

/-- The command that a name and the reading of its arguments stand for. -/
def CommandName.command (name : CommandName) (r : Reading) : Command :=
  let directory := r.operand.getD "."
  match name with
  | create => .create directory
  | parse => .parse (r.operand.getD "") (r.indent.getD defaultIndent)
  | check => .check directory
  | fetch => .fetch directory

def Invocation.ofArguments (arguments : List String) : Except Stop Invocation := do
  let g := programGrammar
  let r ← g.read arguments
  let (command, extras) ← match r.command with
    | none => pure (none, [])
    | some (text, arguments) =>
      match CommandName.ofText? text with
      | none => g.stop (.unknownCommand "COMMAND" text)
      | some name => do
        let inner ← name.grammar.read arguments
        pure (some (name.command inner), inner.extras)
  match r.extras ++ extras with
  | [] => pure ⟨r.verbose, command⟩
  | unknown => g.stop (.unrecognized unknown)

end ContextRoles.CommandLine
