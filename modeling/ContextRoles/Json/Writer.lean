import ContextRoles.Json.Value

/-! # Writing JSON

The compact form has no blanks and only printable ASCII; other characters are escaped, those beyond the
first plane as a pair. The indented form gives every element a line of its own and escapes only what
has to be.
-/

namespace ContextRoles

inductive JsonLayout where
  | compact
  | indented (width : Nat)
  deriving DecidableEq, Repr

namespace JsonLayout

/-- The layout of an optional indentation. A negative one breaks lines and indents nothing. -/
def ofIndent : Option Int → JsonLayout
  | none => compact
  | some n => indented n.toNat

def keySeparator : JsonLayout → String
  | compact => ":"
  | indented _ => ": "

/-- What stands before an element at a depth, and before the closing bracket. -/
def lineBreak : JsonLayout → Nat → String
  | compact, _ => ""
  | indented width, depth => "\n" ++ String.ofList (List.replicate (width * depth) ' ')

end JsonLayout

namespace JsonValue

def unicodeEscape (n : Nat) : List Char := '\\' :: 'u' :: Text.hexDigits 4 n

def surrogateEscapes (n : Nat) : List Char :=
  unicodeEscape (0xD800 + (n - 0x10000) / 0x400) ++ unicodeEscape (0xDC00 + (n - 0x10000) % 0x400)

def shortEscape? (c : Char) : Option (List Char) :=
  if c = '"' then some ['\\', '"']
  else if c = '\\' then some ['\\', '\\']
  else if c = '\n' then some ['\\', 'n']
  else if c = '\r' then some ['\\', 'r']
  else if c = '\t' then some ['\\', 't']
  else if c = '\x0c' then some ['\\', 'f']
  else if c = '\x08' then some ['\\', 'b']
  else none

def encodeChar (layout : JsonLayout) (c : Char) : List Char :=
  match shortEscape? c with
  | some escape => escape
  | none =>
    match layout with
    | .compact =>
      if 0x20 ≤ c.toNat ∧ c.toNat ≤ 0x7E then [c]
      else if c.toNat < 0x10000 then unicodeEscape c.toNat
      else surrogateEscapes c.toNat
    | .indented _ => if c.toNat < 0x20 then unicodeEscape c.toNat else [c]

def encodeString (layout : JsonLayout) (s : String) : String :=
  String.ofList ('"' :: s.toList.flatMap (encodeChar layout) ++ ['"'])

def encodeFloat (x : Float) : String :=
  if x.isNaN then "NaN"
  else if x.isInf then if x < 0 then "-Infinity" else "Infinity"
  else floatText x

/-- Elements between two brackets, each on its own line where lines are broken. -/
def bracketed (layout : JsonLayout) (depth : Nat) (opening closing : String)
    (elements : List String) : String :=
  if elements.isEmpty then opening ++ closing
  else
    let inner := layout.lineBreak (depth + 1)
    opening ++ inner ++ String.intercalate ("," ++ inner) elements ++ layout.lineBreak depth ++
      closing

mutual

def renderAt (layout : JsonLayout) (depth : Nat) : JsonValue → String
  | null => "null"
  | bool true => "true"
  | bool false => "false"
  | int n => toString n
  | float x => encodeFloat x
  | str s => encodeString layout s
  | arr items => bracketed layout depth "[" "]" (renderItems layout (depth + 1) items)
  | obj members =>
    bracketed layout depth "\x7b" "\x7d" (renderMembers layout (depth + 1) members)

def renderItems (layout : JsonLayout) (depth : Nat) : List JsonValue → List String
  | [] => []
  | item :: items => renderAt layout depth item :: renderItems layout depth items

def renderMembers (layout : JsonLayout) (depth : Nat) : List (String × JsonValue) → List String
  | [] => []
  | (key, value) :: members =>
    (encodeString layout key ++ layout.keySeparator ++ renderAt layout depth value) ::
      renderMembers layout depth members

end

def render (layout : JsonLayout) (value : JsonValue) : String := renderAt layout 0 value

end JsonValue

end ContextRoles
