import ContextRoles.Lexeme.Number
import ContextRoles.Yaml.Cursor

/-! # Quoted scalars

Between apostrophes only the apostrophe itself is written differently, twice; between double quotes a
backslash starts an escape. Line breaks inside are folded: one becomes a blank, and of more the first
is dropped.
-/

namespace ContextRoles.Yaml

open Lexeme (digitsValue)

inductive QuoteStyle where
  | single
  | double
  deriving DecidableEq, Repr

def QuoteStyle.mark : QuoteStyle → Char
  | single => '\''
  | double => '"'

def letterEscapes : List (Char × Char) :=
  [('0', '\x00'), ('a', '\x07'), ('b', '\x08'), ('t', '\t'), ('\t', '\t'), ('n', '\n'),
    ('v', '\x0b'), ('f', '\x0c'), ('r', '\r'), ('e', '\x1b'), (' ', ' '), ('"', '"'), ('\\', '\\'),
    ('/', '/'), ('N', '\x85'), ('_', '\xa0'), ('L', '\u2028'), ('P', '\u2029')]

def escapeWidth? : Char → Option Nat
  | 'x' => some 2
  | 'u' => some 4
  | 'U' => some 8
  | _ => none

/-- The character of a numeric escape. A surrogate, which is no character, gives the replacement. -/
def escapedChar (n : Nat) : Except Fault Char :=
  if 0x10FFFF < n then .error (.codePoint n)
  else .ok (if n.isValidChar then Char.ofNat n else '\uFFFD')

/-- The line breaks from here on, and the blanks that start each line. A divider of documents may not
stand on any of the lines. -/
def foldedBreaks : Nat → Cursor → Except Fault (List Char × Cursor)
  | 0, _ => .error .malformed
  | fuel + 1, c =>
    if c.atDivider then .error .malformed
    else
      let c := (c.span fun ch => ch = ' ' || ch = '\t').2
      match c.lineBreak? with
      | none => .ok ([], c)
      | some (ch, next) => do
        let (breaks, next) ← foldedBreaks fuel next
        pure (ch :: breaks, next)

/-- The blanks at the cursor, with the line breaks among them folded. -/
def quotedSpaces (c : Cursor) : Except Fault (List Char × Cursor) :=
  let (blanks, next) := c.span fun ch => ch = ' ' || ch = '\t'
  if isEnd next.peek then .error .malformed
  else
    match next.lineBreak? with
    | none => .ok (blanks, next)
    | some (ch, next) => do
      let (breaks, next) ← foldedBreaks (next.rest.length + 1) next
      let first := if ch ≠ '\n' then [ch] else if breaks.isEmpty then [' '] else []
      pure (first ++ breaks, next)

/-- The escape whose backslash was read. An escaped line break joins the lines. -/
def quotedEscape (c : Cursor) : Except Fault (List Char × Cursor) :=
  match letterEscapes.lookup c.peek with
  | some e => .ok ([e], c.step)
  | none =>
    match escapeWidth? c.peek with
    | some width => do
      let c := c.step
      let digits := c.rest.take width
      if digits.length = width && digits.all isHexDigit then
        let ch ← escapedChar (digitsValue 16 digits)
        pure ([ch], c.advance width)
      else .error .malformed
    | none =>
      match c.lineBreak? with
      | some (_, next) => foldedBreaks (next.rest.length + 1) next
      | none => .error .malformed

/-- The text up to the closing mark. Each round reads something. -/
def quotedText (style : QuoteStyle) : Nat → Cursor → Except Fault (List Char × Cursor)
  | 0, _ => .error .malformed
  | fuel + 1, c => do
    let ch := c.peek
    if style = .single ∧ ch = '\'' ∧ c.peek 1 = '\'' then
      let (text, next) ← quotedText style fuel (c.advance 2)
      pure ('\'' :: text, next)
    else if ch = style.mark then pure ([], c.step)
    else
      let (piece, next) ←
        if style = .double ∧ ch = '\\' then quotedEscape c.step
        else if isBlankOrEnd ch then quotedSpaces c
        else .ok ([ch], c.step)
      let (text, next) ← quotedText style fuel next
      pure (piece ++ text, next)

def quotedScalar (style : QuoteStyle) (c : Cursor) : Except Fault (String × Cursor) := do
  let (text, next) ← quotedText style (c.rest.length + 1) c.step
  pure (String.ofList text, next)

end ContextRoles.Yaml
