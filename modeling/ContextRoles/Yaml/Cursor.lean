/-! # Places in a YAML document

The end of a document reads as the character zero, which no document holds.
-/

namespace ContextRoles.Yaml

def isBreak (c : Char) : Bool :=
  c = '\n' || c = '\r' || c = '\x85' || c = '\u2028' || c = '\u2029'

def isEnd (c : Char) : Bool := c = '\x00'

def isBreakOrEnd (c : Char) : Bool := isBreak c || isEnd c

def isSpaceOrEnd (c : Char) : Bool := c = ' ' || isBreakOrEnd c

def isBlankOrEnd (c : Char) : Bool := c = '\t' || isSpaceOrEnd c

def isPrintable (c : Char) : Bool :=
  let n := c.toNat
  n = 0x9 || n = 0xA || n = 0xD || (0x20 ≤ n && n ≤ 0x7E) || n = 0x85 ||
    (0xA0 ≤ n && n ≤ 0xD7FF) || (0xE000 ≤ n && n ≤ 0xFFFD) || 0x10000 ≤ n

/-- The characters of anchors, handles and directive names. -/
def isWordChar (c : Char) : Bool :=
  ('0' ≤ c && c ≤ '9') || ('A' ≤ c && c ≤ 'Z') || ('a' ≤ c && c ≤ 'z') || c = '-' || c = '_'

def isDigit (c : Char) : Bool := '0' ≤ c && c ≤ '9'

def isHexDigit (c : Char) : Bool :=
  isDigit c || ('a' ≤ c && c ≤ 'f') || ('A' ≤ c && c ≤ 'F')

inductive Fault where
  /-- It is not well formed. -/
  | malformed
  /-- An escape names a code point that does not exist. -/
  | codePoint (value : Nat)
  deriving DecidableEq, Repr

structure Cursor where
  rest : List Char
  index : Nat := 0
  line : Nat := 0
  column : Nat := 0
  deriving DecidableEq, Repr

namespace Cursor

def peek (c : Cursor) (ahead : Nat := 0) : Char := c.rest.getD ahead '\x00'

def startsWith (c : Cursor) (text : String) : Bool := text.toList.isPrefixOf c.rest

/-- Reads one character. A carriage return before a line feed is no line break of its own. -/
def step (c : Cursor) : Cursor :=
  match c.rest with
  | [] => c
  | ch :: rest =>
    let moved := { c with rest, index := c.index + 1 }
    if isBreak ch && !(ch = '\r' && rest.head? = some '\n') then
      { moved with line := c.line + 1, column := 0 }
    else if ch = '\uFEFF' then moved
    else { moved with column := c.column + 1 }

def advance (c : Cursor) : Nat → Cursor
  | 0 => c
  | n + 1 => c.step.advance n

/-- The longest run of characters with a property, and what follows it. -/
def span (c : Cursor) (accepts : Char → Bool) : List Char × Cursor :=
  let run := c.rest.takeWhile accepts
  (run, c.advance run.length)

def skipSpaces (c : Cursor) : Cursor := (c.span (· = ' ')).2

def skipComment (c : Cursor) : Cursor :=
  if c.peek = '#' then (c.span fun ch => !isBreakOrEnd ch).2 else c

/-- Reads a line break, if there is one. All but the two separators of text become a line feed. -/
def lineBreak? (c : Cursor) : Option (Char × Cursor) :=
  let ch := c.peek
  if c.startsWith "\r\n" then some ('\n', c.advance 2)
  else if ch = '\r' || ch = '\n' || ch = '\x85' then some ('\n', c.step)
  else if isBreak ch then some (ch, c.step)
  else none

/-- Whether a marker of three characters stands here, with nothing right after it. -/
def atMarker (c : Cursor) (marker : String) : Bool :=
  c.startsWith marker && isBlankOrEnd (c.peek 3)

/-- Whether one of the two markers that divide documents stands here. -/
def atDivider (c : Cursor) : Bool := c.atMarker "---" || c.atMarker "..."

/-- The rest of a line on which nothing but a comment may stand. -/
def endLine (c : Cursor) : Except Fault Cursor :=
  let c := c.skipSpaces.skipComment
  if isBreakOrEnd c.peek then .ok ((c.lineBreak?.map Prod.snd).getD c) else .error .malformed

end Cursor

end ContextRoles.Yaml
