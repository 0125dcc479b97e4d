import ContextRoles.Lexeme.Number
import ContextRoles.Yaml.BlockScalar
import ContextRoles.Yaml.PlainScalar
import ContextRoles.Yaml.QuotedScalar

/-! # Tokens

Indentation becomes explicit: a block collection has a token where it starts and one where it ends. That
something is a key is known only at the colon after it, so the place of every token that may be a key
is remembered, and the tokens for a key and a mapping are put in front of it later.
-/

namespace ContextRoles.Yaml

open Lexeme (digitsValue)

inductive Directive where
  | version (major : Nat)
  | handle (name : String) (target : String)
  | other
  deriving DecidableEq, Repr

inductive Token where
  | directive (directive : Directive)
  | documentStart
  | documentEnd
  | blockSequenceStart
  | blockMappingStart
  | blockEnd
  | flowSequenceStart
  | flowSequenceEnd
  | flowMappingStart
  | flowMappingEnd
  | flowEntry
  | blockEntry
  | key
  | value
  | alias (name : String)
  | anchor (name : String)
  | tag (handle : Option String) (suffix : String)
  | scalar (text : String) (plain : Bool)
  deriving DecidableEq, Repr

structure PossibleKey where
  flowLevel : Nat
  /-- The number of tokens before it. -/
  place : Nat
  /-- Whether nothing else is allowed in its column. -/
  required : Bool
  index : Nat
  line : Nat
  column : Nat
  deriving Repr

structure Scanner where
  cursor : Cursor
  flowLevel : Nat := 0
  tokens : Array Token := #[]
  /-- The column of the innermost block collection. -/
  indent : Int := -1
  /-- The columns of the collections around it. -/
  indents : List Int := []
  keyAllowed : Bool := true
  possibleKeys : List PossibleKey := []
  finished : Bool := false

abbrev Scan := Except Fault Scanner

namespace Scanner

variable (s : Scanner)

def push (token : Token) : Scanner := { s with tokens := s.tokens.push token }

def moveTo (cursor : Cursor) : Scanner := { s with cursor }

def insertAt (place : Nat) (token : Token) : Scanner :=
  { s with tokens := (s.tokens.toList.take place ++ token :: s.tokens.toList.drop place).toArray }

/-! ## Keys -/

def isStale (key : PossibleKey) : Bool :=
  key.line ≠ s.cursor.line || 1024 < s.cursor.index - key.index

def dropStaleKeys : Scan :=
  if s.possibleKeys.any fun key => s.isStale key && key.required then .error .malformed
  else .ok { s with possibleKeys := s.possibleKeys.filter fun key => !s.isStale key }

def dropKey : Scan :=
  if s.possibleKeys.any fun key => key.flowLevel = s.flowLevel && key.required then
    .error .malformed
  else
    .ok { s with possibleKeys := s.possibleKeys.filter fun key => key.flowLevel ≠ s.flowLevel }

def noteKey : Scan :=
  if s.keyAllowed then do
    let s ← s.dropKey
    let key : PossibleKey :=
      { flowLevel := s.flowLevel, place := s.tokens.size
        required := s.flowLevel = 0 && s.indent = s.cursor.column
        index := s.cursor.index, line := s.cursor.line, column := s.cursor.column }
    pure { s with possibleKeys := s.possibleKeys ++ [key] }
  else .ok s

/-! ## Indentation -/

def unwind (column : Int) : Scanner :=
  if s.flowLevel = 0 then go s.indents s else s
where
  go : List Int → Scanner → Scanner
    | [], s => s
    | outer :: indents, s =>
      if column < s.indent then go indents { s.push .blockEnd with indent := outer, indents }
      else s

def opens (column : Nat) : Bool := s.indent < column

def indentTo (column : Nat) : Scanner :=
  { s with indents := s.indent :: s.indents, indent := column }

/-! ## Blanks -/

/-- Skips blanks, comments and line breaks. After a line break a key may start, flow collections
aside. -/
def skipToToken : Nat → Scanner → Scanner
  | 0, s => s
  | fuel + 1, s =>
    let next := s.cursor.skipSpaces.skipComment
    match next.lineBreak? with
    | some (_, next) =>
      skipToToken fuel { s with cursor := next, keyAllowed := s.keyAllowed || s.flowLevel = 0 }
    | none => s.moveTo next

/-- A byte order mark at the start of the text is no part of it. -/
def skipOrderMark : Scanner :=
  if s.cursor.index = 0 && s.cursor.peek = '\uFEFF' then s.moveTo s.cursor.step else s

end Scanner

/-! ## Directives, anchors and tags -/

def readWord (c : Cursor) : Except Fault (String × Cursor) :=
  let (word, next) := c.span isWordChar
  if word.isEmpty then .error .malformed else .ok (String.ofList word, next)

def readNumber (c : Cursor) : Except Fault (Nat × Cursor) :=
  let (digits, next) := c.span isDigit
  if digits.isEmpty then .error .malformed else .ok (digitsValue 10 digits, next)

def readHandle (c : Cursor) : Except Fault (String × Cursor) :=
  if c.peek ≠ '!' then .error .malformed
  else if c.peek 1 = ' ' then .ok ("!", c.step)
  else
    let (word, next) := c.step.span isWordChar
    if next.peek = '!' then .ok (String.ofList ('!' :: word ++ ['!']), next.step)
    else .error .malformed

def isUriChar (c : Char) : Bool :=
  isWordChar c || ";/?:@&=+$,.!~*'()[]".toList.contains c

def readEscapedBytes : Nat → Cursor → Except Fault (List UInt8 × Cursor)
  | 0, c => .ok ([], c)
  | fuel + 1, c =>
    if c.peek = '%' then do
      let digits := (c.rest.drop 1).take 2
      if digits.length = 2 && digits.all isHexDigit then
        let (bytes, next) ← readEscapedBytes fuel (c.advance 3)
        pure ((digitsValue 16 digits).toUInt8 :: bytes, next)
      else throw .malformed
    else .ok ([], c)

def readUriChars : Nat → Cursor → Except Fault (List Char × Cursor)
  | 0, c => .ok ([], c)
  | fuel + 1, c =>
    if c.peek = '%' then do
      let (bytes, next) ← readEscapedBytes (c.rest.length + 1) c
      match String.fromUTF8? (ByteArray.mk bytes.toArray) with
      | some text => do
        let (chars, next) ← readUriChars fuel next
        pure (text.toList ++ chars, next)
      | none => throw .malformed
    else if isUriChar c.peek then do
      let (chars, next) ← readUriChars fuel c.step
      pure (c.peek :: chars, next)
    else .ok ([], c)

def readUri (c : Cursor) : Except Fault (String × Cursor) := do
  if c.peek = '%' || isUriChar c.peek then
    let (chars, next) ← readUriChars (c.rest.length + 1) c
    pure (String.ofList chars, next)
  else throw .malformed

def readDirective (c : Cursor) : Except Fault (Directive × Cursor) := do
  let (name, next) ← readWord c
  if !isSpaceOrEnd next.peek then throw .malformed
  if name = "YAML" then
    let (major, next) ← readNumber next.skipSpaces
    if next.peek ≠ '.' then throw .malformed
    let (_, next) ← readNumber next.step
    if !isSpaceOrEnd next.peek then throw .malformed
    pure (.version major, ← next.endLine)
  else if name = "TAG" then
    let (handle, next) ← readHandle next.skipSpaces
    if next.peek ≠ ' ' then throw .malformed
    let (target, next) ← readUri next.skipSpaces
    if !isSpaceOrEnd next.peek then throw .malformed
    pure (.handle handle target, ← next.endLine)
  else
    pure (.other, ← (next.span fun ch => !isBreakOrEnd ch).2.endLine)

def readAnchor (c : Cursor) : Except Fault (String × Cursor) := do
  let (name, next) ← readWord c.step
  if isBlankOrEnd next.peek || "?:,]\x7d%@\x60".toList.contains next.peek then pure (name, next)
  else throw .malformed

/-- Whether a tag starts with a handle: a second exclamation mark comes before it ends. -/
def hasHandle (c : Cursor) : Bool :=
  (c.rest.drop 1).takeWhile (fun ch => !isSpaceOrEnd ch) |>.contains '!'

def readTag (c : Cursor) : Except Fault (Token × Cursor) := do
  let (token, next) ←
    if c.peek 1 = '<' then
      let (suffix, next) ← readUri (c.advance 2)
      if next.peek ≠ '>' then throw .malformed
      pure (Token.tag none suffix, next.step)
    else if isBlankOrEnd (c.peek 1) then pure (Token.tag none "!", c.step)
    else
      let (handle, next) ← if hasHandle c then readHandle c else pure ("!", c.step)
      let (suffix, next) ← readUri next
      pure (Token.tag (some handle) suffix, next)
  if isSpaceOrEnd next.peek then pure (token, next) else throw .malformed

/-! ## Tokens by their first character -/

namespace Scanner

variable (s : Scanner)

def finish : Scan := do
  let s ← (s.unwind (-1)).dropKey
  pure { s with keyAllowed := false, possibleKeys := [], finished := true }

def scanDirective : Scan := do
  let s ← (s.unwind (-1)).dropKey
  let (directive, next) ← readDirective s.cursor.step
  pure ({ s with keyAllowed := false }.push (.directive directive) |>.moveTo next)

def scanDivider (token : Token) : Scan := do
  let s ← (s.unwind (-1)).dropKey
  pure ({ s with keyAllowed := false }.push token |>.moveTo (s.cursor.advance 3))

def scanFlowStart (token : Token) : Scan := do
  let s ← s.noteKey
  pure ({ s with flowLevel := s.flowLevel + 1, keyAllowed := true }.push token
    |>.moveTo s.cursor.step)

def scanFlowEnd (token : Token) : Scan := do
  if s.flowLevel = 0 then throw .malformed
  let s ← s.dropKey
  pure ({ s with flowLevel := s.flowLevel - 1, keyAllowed := false }.push token
    |>.moveTo s.cursor.step)

def scanFlowEntry : Scan := do
  let s ← s.dropKey
  pure ({ s with keyAllowed := true }.push .flowEntry |>.moveTo s.cursor.step)

/-- Starts a block collection in the column of the cursor, if it is a new one. Outside flow
collections it has to be a place where a key is allowed. -/
def openBlock (start : Token) : Scan :=
  if s.flowLevel ≠ 0 then .ok s
  else if !s.keyAllowed then .error .malformed
  else if s.opens s.cursor.column then .ok ((s.indentTo s.cursor.column).push start)
  else .ok s

def scanBlockEntry : Scan := do
  let s ← s.openBlock .blockSequenceStart
  let s ← { s with keyAllowed := true }.dropKey
  pure (s.push .blockEntry |>.moveTo s.cursor.step)

def scanKey : Scan := do
  let s ← s.openBlock .blockMappingStart
  let s ← { s with keyAllowed := s.flowLevel = 0 }.dropKey
  pure (s.push .key |>.moveTo s.cursor.step)

def scanValue : Scan := do
  match s.possibleKeys.find? fun key => key.flowLevel = s.flowLevel with
  | some key =>
    let s := { s with
      possibleKeys := s.possibleKeys.filter fun key => key.flowLevel ≠ s.flowLevel
      keyAllowed := false }
    let s := s.insertAt key.place .key
    let s :=
      if s.flowLevel = 0 && s.opens key.column then
        (s.indentTo key.column).insertAt key.place .blockMappingStart
      else s
    pure (s.push .value |>.moveTo s.cursor.step)
  | none =>
    let s ← s.openBlock .blockMappingStart
    let s ← { s with keyAllowed := s.flowLevel = 0 }.dropKey
    pure (s.push .value |>.moveTo s.cursor.step)

def scanKeyLike (read : Cursor → Except Fault (Token × Cursor)) : Scan := do
  let s ← s.noteKey
  let (token, next) ← read s.cursor
  pure ({ s with keyAllowed := false }.push token |>.moveTo next)

def scanBlockScalar (folded : Bool) : Scan := do
  let s ← { s with keyAllowed := true }.dropKey
  let (text, next) ← blockScalar folded s.indent s.cursor
  pure (s.push (.scalar text false) |>.moveTo next)

def scanPlain : Scan := do
  let s ← s.noteKey
  let plain := plainScalar (s.flowLevel ≠ 0) (s.indent + 1) s.cursor
  pure ({ s with keyAllowed := plain.endsLine }.push (.scalar (String.ofList plain.text) true)
    |>.moveTo plain.next)

def readQuoted (style : QuoteStyle) (c : Cursor) : Except Fault (Token × Cursor) :=
  (quotedScalar style c).map fun (text, next) => (.scalar text false, next)

def scanToken : Scan :=
  let c := s.cursor
  let inFlow := s.flowLevel ≠ 0
  let alone := isBlankOrEnd (c.peek 1)
  let ch := c.peek
  if isEnd ch then s.finish
  else if ch = '%' && c.column = 0 then s.scanDirective
  else if c.column = 0 && c.atMarker "---" then s.scanDivider .documentStart
  else if c.column = 0 && c.atMarker "..." then s.scanDivider .documentEnd
  else if ch = '[' then s.scanFlowStart .flowSequenceStart
  else if ch = '\x7b' then s.scanFlowStart .flowMappingStart
  else if ch = ']' then s.scanFlowEnd .flowSequenceEnd
  else if ch = '\x7d' then s.scanFlowEnd .flowMappingEnd
  else if ch = ',' then s.scanFlowEntry
  else if ch = '-' && alone then s.scanBlockEntry
  else if ch = '?' && (inFlow || alone) then s.scanKey
  else if ch = ':' && (inFlow || alone) then s.scanValue
  else if ch = '*' then s.scanKeyLike fun c => (readAnchor c).map fun (n, c) => (.alias n, c)
  else if ch = '&' then s.scanKeyLike fun c => (readAnchor c).map fun (n, c) => (.anchor n, c)
  else if ch = '!' then s.scanKeyLike readTag
  else if ch = '|' && !inFlow then s.scanBlockScalar false
  else if ch = '>' && !inFlow then s.scanBlockScalar true
  else if ch = '\'' then s.scanKeyLike (readQuoted .single)
  else if ch = '"' then s.scanKeyLike (readQuoted .double)
  else if startsPlain inFlow c then s.scanPlain
  else .error .malformed

/-- All tokens from the cursor on. Every token but the last reads something. -/
def scanAll : Nat → Scanner → Except Fault (List Token)
  | 0, _ => .error .malformed
  | fuel + 1, s => do
    let s := skipToToken (s.cursor.rest.length + 1) s.skipOrderMark
    let s ← s.dropStaleKeys
    let s ← (s.unwind s.cursor.column).scanToken
    if s.finished then pure s.tokens.toList else scanAll fuel s

end Scanner

def tokens (text : String) : Except Fault (List Token) :=
  let chars := text.toList
  if chars.all isPrintable then Scanner.scanAll (chars.length + 2) { cursor := ⟨chars, 0, 0, 0⟩ }
  else .error .malformed

end ContextRoles.Yaml
