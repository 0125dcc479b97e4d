import ContextRoles.Yaml.Cursor

/-! # Plain scalars

A plain scalar ends at a colon or a number sign that stands alone, at the indicators of a flow
collection inside one, and on a line that is not indented far enough. Tabs end it as well.
-/

namespace ContextRoles.Yaml

def startsPlain (inFlow : Bool) (c : Cursor) : Bool :=
  let ch := c.peek
  !(isBlankOrEnd ch || "-?:,[]\x7b\x7d#&*!|>'\"%@\x60".toList.contains ch) ||
    (!isBlankOrEnd (c.peek 1) && (ch = '-' || (!inFlow && (ch = '?' || ch = ':'))))

/-- Characters that end a plain scalar inside a flow collection. -/
def isFlowIndicator (c : Char) : Bool := ",?[]\x7b\x7d".toList.contains c

def wordLength (inFlow : Bool) : List Char → Nat
  | [] => 0
  | ch :: rest =>
    let next := rest.headD '\x00'
    if isBlankOrEnd ch then 0
    else if ch = ':' && (isBlankOrEnd next || (inFlow && ",[]\x7b\x7d".toList.contains next)) then 0
    else if inFlow && isFlowIndicator ch then 0
    else wordLength inFlow rest + 1

/-- What stands between two words of a scalar, and whether a line ended there. -/
structure WordGap where
  text : List Char
  endsLine : Bool := false
  /-- A divider of documents follows, so the scalar is over. -/
  atDivider : Bool := false

/-- The line breaks and spaces from here on; a divider of documents ends them early. -/
def plainBreaks : Nat → Cursor → Option (List Char) × Cursor
  | 0, c => (none, c)
  | fuel + 1, c =>
    let c := c.skipSpaces
    match c.lineBreak? with
    | none => (some [], c)
    | some (ch, next) =>
      if next.atDivider then (none, next)
      else
        let (breaks, next) := plainBreaks fuel next
        (breaks.map (ch :: ·), next)

def wordGap (c : Cursor) : WordGap × Cursor :=
  let (spaces, next) := c.span (· = ' ')
  match next.lineBreak? with
  | none => (⟨spaces, false, false⟩, next)
  | some (ch, next) =>
    if next.atDivider then (⟨[], true, true⟩, next)
    else
      match plainBreaks (next.rest.length + 1) next with
      | (none, next) => (⟨[], true, true⟩, next)
      | (some breaks, next) =>
        let first := if ch ≠ '\n' then [ch] else if breaks.isEmpty then [' '] else []
        (⟨first ++ breaks, true, false⟩, next)

structure PlainScalar where
  text : List Char
  /-- Whether the last thing read was a line break, after which a key may start. -/
  endsLine : Bool
  next : Cursor

/-- The words from the cursor on, after the text in `done`. `indent` is the column that lines of the
scalar have to reach outside flow collections. -/
def plainWords (inFlow : Bool) (indent : Int) : Nat → List Char → List Char → Bool → Cursor →
    PlainScalar
  | 0, done, _, endsLine, c => ⟨done, endsLine, c⟩
  | fuel + 1, done, gap, endsLine, c =>
    let length := if c.peek = '#' then 0 else wordLength inFlow c.rest
    if length = 0 then ⟨done, endsLine, c⟩
    else
      let done := done ++ gap ++ c.rest.take length
      let (gap, next) := wordGap (c.advance length)
      if gap.text.isEmpty || gap.atDivider || next.peek = '#' ||
          (!inFlow && (next.column : Int) < indent) then
        ⟨done, gap.endsLine, next⟩
      else plainWords inFlow indent fuel done gap.text gap.endsLine next

def plainScalar (inFlow : Bool) (indent : Int) (c : Cursor) : PlainScalar :=
  plainWords inFlow indent (c.rest.length + 1) [] [] false c

end ContextRoles.Yaml
