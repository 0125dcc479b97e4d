import ContextRoles.Yaml.Cursor

/-! # Block scalars

The lines below a vertical bar are kept as they are, those below a greater-than sign are folded. The
header may say how far the lines are indented, and what becomes of the line breaks at the end: one is
kept, or all of them (`+`), or none (`-`).
-/

namespace ContextRoles.Yaml

inductive Chomping where
  | clip
  | keep
  | strip
  deriving DecidableEq, Repr

def Chomping.ofSign? : Char → Option Chomping
  | '+' => some .keep
  | '-' => some .strip
  | _ => none

def indentDigit? (c : Cursor) : Except Fault (Option Nat × Cursor) :=
  let ch := c.peek
  if isDigit ch then
    if ch = '0' then .error .malformed else .ok (some (ch.toNat - 48), c.step)
  else .ok (none, c)

structure BlockHeader where
  chomping : Chomping := .clip
  digit : Option Nat := none

/-- The signs after the indicator of a block scalar, in either order. -/
def blockSigns (c : Cursor) : Except Fault (BlockHeader × Cursor) :=
  match Chomping.ofSign? c.peek with
  | some chomping => do
    let (digit, next) ← indentDigit? c.step
    pure (⟨chomping, digit⟩, next)
  | none => do
    let (digit, next) ← indentDigit? c
    match if digit.isSome then Chomping.ofSign? next.peek else none with
    | some chomping => pure (⟨chomping, digit⟩, next.step)
    | none => pure (⟨.clip, digit⟩, next)

def blockHeader (c : Cursor) : Except Fault (BlockHeader × Cursor) := do
  let (header, next) ← blockSigns c
  if isSpaceOrEnd next.peek then pure (header, next) else throw .malformed

/-- The line breaks before the first line that is not empty, with the greatest column reached by the
spaces among them. -/
def leadingBreaks : Nat → Nat → Cursor → List Char × Nat × Cursor
  | 0, deepest, c => ([], deepest, c)
  | fuel + 1, deepest, c =>
    if c.peek = ' ' then
      let next := c.step
      leadingBreaks fuel (max deepest next.column) next
    else
      match c.lineBreak? with
      | none => ([], deepest, c)
      | some (ch, next) =>
        let (breaks, deepest, next) := leadingBreaks fuel deepest next
        (ch :: breaks, deepest, next)

def skipIndent (indent : Nat) (c : Cursor) : Cursor :=
  c.advance (min (indent - c.column) (c.rest.takeWhile (· = ' ')).length)

def blockBreaks (indent : Nat) : Nat → Cursor → List Char × Cursor
  | 0, c => ([], c)
  | fuel + 1, c =>
    let c := skipIndent indent c
    match c.lineBreak? with
    | none => ([], c)
    | some (ch, next) =>
      let (breaks, next) := blockBreaks indent fuel next
      (ch :: breaks, next)

/-- The lines from the cursor on. `breaks` are the empty lines before the next line. -/
def blockLines (folded : Bool) (chomping : Chomping) (indent : Nat) :
    Nat → List Char → List Char → Cursor → List Char × Cursor
  | 0, done, _, c => (done, c)
  | fuel + 1, done, breaks, c =>
    let spaced := c.peek = ' ' || c.peek = '\t'
    let (line, next) := c.span fun ch => !isBreakOrEnd ch
    let done := done ++ breaks ++ line
    let (ending, next) := match next.lineBreak? with
      | some (ch, next) => ([ch], next)
      | none => ([], next)
    let (breaks, next) := blockBreaks indent (next.rest.length + 1) next
    if next.column = indent && !isEnd next.peek then
      let joint :=
        if folded && ending == ['\n'] && !spaced && next.peek ≠ ' ' && next.peek ≠ '\t' then
          if breaks.isEmpty then [' '] else []
        else ending
      blockLines folded chomping indent fuel (done ++ joint) breaks next
    else
      let tail := match chomping with
        | .clip => ending
        | .keep => ending ++ breaks
        | .strip => []
      (done ++ tail, next)

/-- The block scalar whose indicator is at the cursor, below a collection of a certain indentation. -/
def blockScalar (folded : Bool) (outer : Int) (c : Cursor) : Except Fault (String × Cursor) := do
  let (header, next) ← blockHeader c.step
  let next ← next.endLine
  let least := (max (outer + 1) 1).toNat
  let (breaks, indent, next) := match header.digit with
    | some n =>
      let indent := least + n - 1
      let (breaks, next) := blockBreaks indent (next.rest.length + 1) next
      (breaks, indent, next)
    | none =>
      let (breaks, deepest, next) := leadingBreaks (next.rest.length + 1) 0 next
      (breaks, max least deepest, next)
  if next.column = indent && !isEnd next.peek then
    let (text, next) := blockLines folded header.chomping indent (next.rest.length + 1) [] breaks next
    pure (String.ofList text, next)
  else
    pure (String.ofList (if header.chomping = .keep then breaks else []), next)

end ContextRoles.Yaml
