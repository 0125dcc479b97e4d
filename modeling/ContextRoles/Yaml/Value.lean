import ContextRoles.Text.Blank
import ContextRoles.Text.Digit
import ContextRoles.Text.Lowering
import ContextRoles.Text.Split
import ContextRoles.Yaml.Node

/-! # Values

A document stands for a tree of texts, other scalars, lists and maps. Every scalar has to make sense for
its kind. Maps may take over the members of others, which their own members override. Of two faults the
one nearer to the root is reported, and of those the first.
-/

namespace ContextRoles

inductive Yaml where
  | str (value : String)
  /-- A scalar that is no text, as it is spelled. -/
  | scalar (tag : Yaml.Tag) (source : String)
  | seq (items : List Yaml)
  | map (members : List (Yaml × Yaml))
  | set (members : List (Yaml × Yaml))

namespace Yaml

inductive ScalarFault where
  | calendar (fault : CalendarFault)
  | notInBase (base : Nat) (text : String)
  | notDecimal (text : String)
  | noDigits
  | noTruthValue (text : String)
  | noTimestamp
  | codePoint (value : Nat)
  deriving DecidableEq, Repr

inductive ReadError where
  | malformed
  | badScalar (fault : ScalarFault)
  deriving DecidableEq, Repr

def ScalarFault.message : ScalarFault → String
  | calendar fault => fault.message
  | notInBase base text => s!"invalid literal for int() with base {base}: {Text.quote text}"
  | notDecimal text => s!"could not convert string to float: {Text.quote text}"
  | noDigits => "string index out of range"
  | noTruthValue text => Text.quote text
  | noTimestamp => "'NoneType' object has no attribute 'groupdict'"
  | codePoint value =>
    if value < 0x80000000 then "chr() arg not in range(0x110000)"
    else "Python int too large to convert to C int"

def ReadError.ofFault : Fault → ReadError
  | .malformed => .malformed
  | .codePoint value => .badScalar (.codePoint value)

/-! ## Scalars -/

/-- Whether a text is a number of a base, with an optional sign, mark of the base and blanks. -/
def isNumeral (base : Nat) (text : List Char) : Bool :=
  let body := unsigned (Text.trimMargin (text.map Text.plainDigit))
  let digits := match base, body with
    | 2, '0' :: 'b' :: rest => rest
    | 2, '0' :: 'B' :: rest => rest
    | 8, '0' :: 'o' :: rest => rest
    | 8, '0' :: 'O' :: rest => rest
    | 16, '0' :: 'x' :: rest => rest
    | 16, '0' :: 'X' :: rest => rest
    | _, rest => rest
  !digits.isEmpty && digits.all fun c => isHexDigit c && Lexeme.digitValue c < base

def checkNumeral (base : Nat) (text : List Char) : Except ScalarFault Unit :=
  if isNumeral base text then .ok () else .error (.notInBase base (String.ofList text))

def checkInteger (text : String) : Except ScalarFault Unit :=
  let chars := text.toList.filter (· ≠ '_')
  if chars.isEmpty then .error .noDigits
  else
    match unsigned chars with
    | [] => .error .noDigits
    | ['0'] => .ok ()
    | '0' :: 'b' :: rest => checkNumeral 2 rest
    | '0' :: 'x' :: rest => checkNumeral 16 rest
    | '0' :: rest => checkNumeral 8 ('0' :: rest)
    | rest =>
      if rest.contains ':' then (Text.splitAt ':' rest).forM (checkNumeral 10)
      else checkNumeral 10 rest

/-- Whether a text in small letters is a decimal number, infinite or no number at all. -/
def isDecimal (text : List Char) : Bool :=
  let body := unsigned (Text.trimMargin (text.map Text.plainDigit))
  let whole := body.takeWhile isDigit
  let afterWhole := body.drop whole.length
  let (fraction, rest) := match afterWhole with
    | '.' :: after => (after.takeWhile isDigit, after.dropWhile isDigit)
    | _ => ([], afterWhole)
  ["inf", "infinity", "nan"].contains (String.ofList body) ||
    (!(whole.isEmpty && fraction.isEmpty) && match rest with
      | [] => true
      | 'e' :: after => let digits := unsigned after; !digits.isEmpty && digits.all isDigit
      | _ => false)

def checkDecimal (text : List Char) : Except ScalarFault Unit :=
  if isDecimal text then .ok () else .error (.notDecimal (String.ofList text))

def checkFloat (text : String) : Except ScalarFault Unit :=
  let chars := (Text.lower (String.ofList (text.toList.filter (· ≠ '_')))).toList
  if chars.isEmpty then .error .noDigits
  else
    let body := unsigned chars
    if body = ".inf".toList ∨ body = ".nan".toList then .ok ()
    else if body.contains ':' then (Text.splitAt ':' body).forM checkDecimal
    else checkDecimal body

def checkTruth (text : String) : Except ScalarFault Unit :=
  let word := Text.lower text
  if ["yes", "no", "true", "false", "on", "off"].contains word then .ok ()
  else .error (.noTruthValue word)

def checkTimestamp (text : String) : Except ScalarFault Unit :=
  match Timestamp.parse? (dropFinalFeed text.toList) with
  | some t => t.check.mapError .calendar
  | none => .error .noTimestamp

def isBase64 (c : Char) : Bool :=
  isDigit c || ('a' ≤ c && c ≤ 'z') || ('A' ≤ c && c ≤ 'Z') || c = '+' || c = '/'

/-- Whether base 64 digits come in full groups, the last one filled up by equals signs. `filled` is the
place in the group, `pads` the number of equals signs in it. Other characters are skipped. -/
def fillsGroups : Nat → Nat → List Char → Bool
  | filled, _, [] => filled = 0
  | filled, pads, c :: rest =>
    if c = '=' then
      if 2 ≤ filled ∧ 4 ≤ filled + pads + 1 then true
      else fillsGroups filled (if 2 ≤ filled then pads + 1 else pads) rest
    else if isBase64 c then fillsGroups ((filled + 1) % 4) 0 rest
    else fillsGroups filled pads rest

def isBinary (text : String) : Bool :=
  text.toList.all (fun c => c.toNat < 128) && fillsGroups 0 0 text.toList

def ofScalar (tag : Tag) (text : String) : Except ReadError Yaml :=
  let checked (result : Except ScalarFault Unit) : Except ReadError Yaml :=
    match result with
    | .ok _ => .ok (.scalar tag text)
    | .error fault => .error (.badScalar fault)
  match tag with
  | .text => .ok (.str text)
  | .null => .ok (.scalar .null text)
  | .bool => checked (checkTruth text)
  | .int => checked (checkInteger text)
  | .float => checked (checkFloat text)
  | .timestamp => checked (checkTimestamp text)
  | .binary => if isBinary text then .ok (.scalar .binary text) else .error .malformed
  | _ => .error .malformed

/-! ## Collections -/

abbrev Leveled (α : Type) := Except (Nat × ReadError) α

namespace Leveled

variable {α β : Type}

def malformed (level : Nat) : Leveled α := .error (level, .malformed)

def both (p : Leveled α) (q : Leveled β) : Leveled (α × β) :=
  match p, q with
  | .ok a, .ok b => .ok (a, b)
  | .ok _, .error e => .error e
  | .error e, .ok _ => .error e
  | .error e, .error f => if f.1 < e.1 then .error f else .error e

def all : List (Leveled α) → Leveled (List α)
  | [] => .ok []
  | p :: ps => (both p (all ps)).map fun (a, as) => a :: as

end Leveled

/-- The members of a map: those taken over from others and its own. -/
structure Gathered where
  merged : List (Leveled (Yaml × Yaml)) := []
  own : List (Leveled (Yaml × Yaml)) := []

def Gathered.members (g : Gathered) : List (Leveled (Yaml × Yaml)) := g.merged ++ g.own

def isMergeKey : Node → Bool
  | .scalar .merge _ => true
  | _ => false

def pairItem (pair : Yaml × Yaml) : Yaml := .seq [pair.1, pair.2]

mutual

/-- The value of a node that is met at some level. What a collection holds is one level further from
the root. -/
def ofNode (level : Nat) : Node → Leveled Yaml
  | .enclosing _ => .ok (.seq [])
  | .scalar tag text =>
    match tag with
    | .seq => .malformed (level + 1)
    | .map => .malformed (level + 1)
    | .set => .malformed (level + 1)
    | .omap => .malformed (level + 1)
    | .pairs => .malformed (level + 1)
    | _ => (ofScalar tag text).mapError fun e => (level, e)
  | .sequence tag items =>
    match tag with
    | .seq => (Leveled.all (ofItems (level + 1) items)).map .seq
    | .omap => (Leveled.all (ofPairs (level + 1) items)).map .seq
    | .pairs => (Leveled.all (ofPairs (level + 1) items)).map .seq
    | .map => .malformed (level + 1)
    | .set => .malformed (level + 1)
    | _ => .malformed level
  | .mapping tag members =>
    match tag with
    | .map => (ofMembers (level + 1) (gather (level + 1) members)).map .map
    | .set => (ofMembers (level + 1) (gather (level + 1) members)).map .set
    | .seq => .malformed (level + 1)
    | .omap => .malformed (level + 1)
    | .pairs => .malformed (level + 1)
    | tag =>
      match defaultText members with
      | some text => (ofScalar tag text).mapError fun e => (level, e)
      | none => .malformed level

def ofItems (level : Nat) : List Node → List (Leveled Yaml)
  | [] => []
  | item :: items => ofNode level item :: ofItems level items

def ofPairs (level : Nat) : List Node → List (Leveled Yaml)
  | [] => []
  | item :: items =>
    (match item with
      | .mapping _ [(key, value)] =>
        (Leveled.both (ofNode level key) (ofNode level value)).map pairItem
      | _ => .malformed level) :: ofPairs level items

def ofKey (level : Nat) : Node → Leveled Yaml
  | .scalar .value text => .ok (.str text)
  | .scalar tag text => ofNode level (.scalar tag text)
  | _ => .malformed level

/-- The members of a map with those that it takes over, or nothing where these come from no map. -/
def gather (level : Nat) : List (Node × Node) → Option Gathered
  | [] => some {}
  | (key, value) :: members => do
    let rest ← gather level members
    if isMergeKey key then
      let taken ← takeOver level value
      some { rest with merged := taken ++ rest.merged }
    else
      let pair := match ofKey level key with
        | .error e => .error e
        | .ok k => (ofNode level value).map fun v => (k, v)
      some { rest with own := pair :: rest.own }

/-- The members that a map takes over from a map, or from a list of maps, the last one first. -/
def takeOver (level : Nat) : Node → Option (List (Leveled (Yaml × Yaml)))
  | .mapping _ members => (gather level members).map Gathered.members
  | .sequence _ items => takeOverAll level items
  | .enclosing _ => some []
  | .scalar _ _ => none

def takeOverAll (level : Nat) : List Node → Option (List (Leveled (Yaml × Yaml)))
  | [] => some []
  | item :: items => do
    let taken ← match item with
      | .mapping _ members => (gather level members).map Gathered.members
      | .enclosing _ => some []
      | _ => none
    let rest ← takeOverAll level items
    some (rest ++ taken)

def ofMembers (level : Nat) : Option Gathered → Leveled (List (Yaml × Yaml))
  | some gathered => Leveled.all gathered.members
  | none => .malformed level

def defaultText : List (Node × Node) → Option String
  | [] => none
  | (key, value) :: members =>
    match key with
    | .scalar .value _ =>
      match value with
      | .scalar _ text => some text
      | .mapping _ inner => defaultText inner
      | _ => none
    | _ => defaultText members

end

/-- Reads the only document of a text. A text without one stands for nothing. -/
def read (text : String) : Except ReadError Yaml := do
  let tokens ← (tokens text).mapError .ofFault
  match ← (Node.ofTokens? tokens).mapError .ofFault with
  | some node => (ofNode 0 node).mapError Prod.snd
  | none => pure (.scalar .null "")

def member? (members : List (Yaml × Yaml)) (name : String) : Option Yaml :=
  members.reverse.findSome? fun
    | (.str key, value) => if key = name then some value else none
    | _ => none

end Yaml

end ContextRoles
