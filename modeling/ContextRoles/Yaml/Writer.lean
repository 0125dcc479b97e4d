import ContextRoles.Text.Quoted
import ContextRoles.Yaml.Format

/-! # Writing YAML

Collections are written in block style. A text is plain where it would be read back as the same text,
else it stands between apostrophes, and between double quotes where a character has to be escaped.
Long texts are broken at single blanks.
-/

namespace ContextRoles.Yaml

def bestWidth : Nat := 80

/-! ## Styles -/

/-- Whether plain text is possible in a block, as far as its indicators go. The first two flags tell
whether the character is the first one and whether a blank stands before it. -/
def hasIndicator : Bool → Bool → List Char → Bool
  | _, _, [] => false
  | first, afterBlank, c :: rest =>
    let beforeBlank := rest.isEmpty || isBlankOrEnd (rest.headD '\x00')
    let here :=
      if first then
        "#,[]\x7b\x7d&*!|>'\"%@\x60".toList.contains c ||
          ((c = '?' || c = ':' || c = '-') && beforeBlank)
      else (c = ':' && beforeBlank) || (c = '#' && afterBlank)
    here || hasIndicator false (isBlankOrEnd c) rest

/-- What a text needs that not every style can give. -/
structure Analysis where
  indicators : Bool
  /-- It has line breaks. -/
  multiline : Bool
  /-- It has characters other than line feeds and printable ASCII. -/
  special : Bool
  /-- It starts or ends with a blank or a line break. -/
  edgeBlank : Bool
  /-- A blank follows a line break. -/
  breakSpace : Bool
  /-- A line break follows a blank. -/
  spaceBreak : Bool

def isPlainChar (c : Char) : Bool := c = '\n' || (' ' ≤ c && c ≤ '~')

def hasPair (a b : Char) (text : List Char) : Bool :=
  (text.zip (text.drop 1)).contains (a, b)

def analyze (text : List Char) : Analysis :=
  let edge (c : Option Char) : Bool := c = some ' ' || c = some '\n'
  { indicators := "---".toList.isPrefixOf text || "...".toList.isPrefixOf text ||
      hasIndicator true true text
    multiline := text.contains '\n'
    special := !text.all isPlainChar
    edgeBlank := edge text.head? || edge text.getLast?
    breakSpace := hasPair '\n' ' ' text
    spaceBreak := hasPair ' ' '\n' text }

inductive Style where
  | plain
  | quoted (style : QuoteStyle)
  deriving DecidableEq, Repr

def chooseStyle (text : String) : Style :=
  let a := analyze text.toList
  let escapes := a.spaceBreak || a.special
  if text ≠ "" && implicitTag text = .text && !a.indicators && !a.edgeBlank && !a.breakSpace &&
      !escapes && !a.multiline then .plain
  else if !a.breakSpace && !escapes then .quoted .single
  else .quoted .double

/-! ## Scalars -/

/-- What was written so far, the last character first, and the column it ends in. -/
structure Output where
  written : List Char := []
  column : Nat := 0
  deriving Repr

namespace Output

def write (o : Output) (text : List Char) : Output :=
  ⟨text.reverse ++ o.written, o.column + text.length⟩

def newLine (o : Output) (indent : Nat) : Output :=
  ⟨List.replicate indent ' ' ++ '\n' :: o.written, indent⟩

def text (o : Output) : List Char := o.written.reverse

end Output

/-- The pieces of a text: single blanks, longer runs of blanks, runs of line feeds, and words. -/
def pieces (text : List Char) : List (List Char) :=
  text.splitBy fun a b => (a = ' ') == (b = ' ') && (a = '\n') == (b = '\n')

/-- Writes blanks, or a new line in place of a single blank beyond the width. -/
def writeBlanks (indent : Nat) (foldable : Bool) (blanks : List Char) (o : Output) : Output :=
  if foldable && blanks.length = 1 && bestWidth < o.column then o.newLine indent
  else o.write blanks

def writePlain (indent : Nat) (text : List Char) (o : Output) : Output :=
  (pieces text).foldl
    (fun o piece =>
      if piece.head? = some ' ' then writeBlanks indent true piece o else o.write piece) o

/-- Line feeds inside apostrophes. One more than there are is written, as one is folded. -/
def writeBreaks (indent : Nat) (feeds : List Char) (o : Output) : Output :=
  Output.newLine ⟨feeds ++ o.written, 0⟩ indent

/-- Pieces between apostrophes. Blanks at either end are not broken. -/
def writeSinglePieces (indent : Nat) (first : Bool) : List (List Char) → Output → Output
  | [], o => o
  | piece :: rest, o =>
    let o :=
      if piece.head? = some ' ' then writeBlanks indent (!first && !rest.isEmpty) piece o
      else if piece.head? = some '\n' then writeBreaks indent piece o
      else o.write (piece.flatMap fun c => if c = '\'' then ['\'', '\''] else [c])
    writeSinglePieces indent false rest o

def writeSingle (indent : Nat) (text : List Char) (o : Output) : Output :=
  (writeSinglePieces indent true (pieces text) (o.write ['\''])).write ['\'']

def upperHexDigits (width n : Nat) : List Char := (Text.hexDigits width n).map Char.toUpper

def escapeLetters : List (Char × Char) :=
  [('\x00', '0'), ('\x07', 'a'), ('\x08', 'b'), ('\t', 't'), ('\n', 'n'), ('\x0b', 'v'),
    ('\x0c', 'f'), ('\r', 'r'), ('\x1b', 'e'), ('"', '"'), ('\\', '\\'), ('\x85', 'N'),
    ('\xa0', '_'), ('\u2028', 'L'), ('\u2029', 'P')]

def isEscaped (c : Char) : Bool := c = '"' || c = '\\' || !(' ' ≤ c && c ≤ '~')

def escaped (c : Char) : List Char :=
  match escapeLetters.lookup c with
  | some letter => ['\\', letter]
  | none =>
    if c.toNat ≤ 0xFF then '\\' :: 'x' :: upperHexDigits 2 c.toNat
    else if c.toNat ≤ 0xFFFF then '\\' :: 'u' :: upperHexDigits 4 c.toNat
    else '\\' :: 'U' :: upperHexDigits 8 c.toNat

/-- Text between double quotes. `held` holds characters that are not written yet, the last one first;
`at_` is the place in the text and `size` its length. A line is broken before a blank or after an
escape, and a blank that starts a line is escaped. -/
def writeDoubleFrom (indent size : Nat) : Nat → List Char → List Char → Output → Output
  | _, held, [], o => o.write held.reverse
  | at_, held, c :: rest, o =>
    let inner := 0 < at_ && at_ + 1 < size
    let startLine (next : Option Char) (o : Output) : Output :=
      if next = some ' ' then (o.newLine indent).write ['\\'] else o.newLine indent
    if isEscaped c then
      let o := (o.write held.reverse).write (escaped c)
      if inner && bestWidth + 1 < o.column then
        writeDoubleFrom indent size (at_ + 1) [] rest (startLine rest.head? (o.write ['\\']))
      else writeDoubleFrom indent size (at_ + 1) [] rest o
    else if inner && (c = ' ' || held.isEmpty) && bestWidth < o.column + held.length then
      let o := o.write (held.reverse ++ ['\\'])
      writeDoubleFrom indent size (at_ + 1) [c] rest (startLine (some c) o)
    else writeDoubleFrom indent size (at_ + 1) (c :: held) rest o

def writeDouble (indent : Nat) (text : List Char) (o : Output) : Output :=
  (writeDoubleFrom indent text.length 0 [] text (o.write ['"'])).write ['"']

/-- A text in the plainest style. Further lines of it are indented. -/
def writeText (indent : Nat) (text : String) (o : Output) : Output :=
  match chooseStyle text with
  | .plain => writePlain indent text.toList o
  | .quoted .single => writeSingle indent text.toList o
  | .quoted .double => writeDouble indent text.toList o

/-! ## Collections -/

def writeKey (indent : Nat) : Yaml → Output → Output
  | .str text, o => writeText indent text o
  | .scalar _ source, o => o.write source.toList
  | _, o => o

mutual

/-- What follows the colon of a member, or else the dash of an item, of a collection whose entries stand
in the column `indent`. -/
def writeValue (afterKey : Bool) (indent : Nat) : Yaml → Output → Output
  | .str text, o => writeText (indent + 2) text (o.write [' '])
  | .scalar _ source, o => o.write (' ' :: source.toList)
  | .seq [], o => o.write [' ', '[', ']']
  | .seq (item :: items), o =>
    if afterKey then writeItems indent (item :: items) (o.newLine indent)
    else writeItems (indent + 2) (item :: items) (o.write [' '])
  | .map [], o => o.write [' ', '\x7b', '\x7d']
  | .map (member :: members), o =>
    writeMembers (indent + 2) (member :: members)
      (if afterKey then o.newLine (indent + 2) else o.write [' '])
  | .set members, o =>
    writeMembers (indent + 2) members ((o.write " !!set".toList).newLine (indent + 2))

def writeItems (indent : Nat) : List Yaml → Output → Output
  | [], o => o
  | item :: items, o =>
    let o := writeValue false indent item (o.write ['-'])
    if items.isEmpty then o else writeItems indent items (o.newLine indent)

def writeMembers (indent : Nat) : List (Yaml × Yaml) → Output → Output
  | [], o => o
  | (key, value) :: members, o =>
    let o := writeValue true indent value ((writeKey indent key o).write [':'])
    if members.isEmpty then o else writeMembers indent members (o.newLine indent)

end

def render (value : Yaml) : String :=
  let o : Output := {}
  let o := match value with
    | .seq (item :: items) => writeItems 0 (item :: items) o
    | .seq [] => o.write ['[', ']']
    | .map (member :: members) => writeMembers 0 (member :: members) o
    | .map [] => o.write ['\x7b', '\x7d']
    | .set members => writeMembers 0 members ((o.write "!!set".toList).newLine 0)
    | key => writeKey 0 key o
  String.ofList (o.text ++ ['\n'])

instance blockFormat : YamlFormat := ⟨read, render⟩

end ContextRoles.Yaml
