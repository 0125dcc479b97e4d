import ContextRoles.Lexeme.Language

/-! # White space and comments

Every lexeme swallows the blanks and comments that follow it, so that the next one starts at the
cursor. A block comment that is never closed is an error at the end of the text.
-/

namespace ContextRoles.Lexeme

open Parsing

/-- The text after a block comment whose depth is still to be closed. The end of a comment is looked
for before the start of another one. -/
def afterComment (opening closing : List Char) (nested : Bool) :
    Nat → List Char → Option (List Char)
  | 0, text => some text
  | _ + 1, [] => none
  | depth + 1, c :: text =>
    if closing.isPrefixOf (c :: text) then
      afterComment opening closing nested depth ((c :: text).drop closing.length)
    else if nested && !opening.isEmpty && opening.isPrefixOf (c :: text) then
      afterComment opening closing nested (depth + 2) ((c :: text).drop opening.length)
    else afterComment opening closing nested (depth + 1) text
termination_by depth text => 2 * text.length + depth
decreasing_by
  · simp only [List.length_drop, List.length_cons]; omega
  · cases opening with
    | nil => simp_all
    | cons => simp only [List.length_drop, List.length_cons]; omega
  · simp only [List.length_cons]; omega

namespace Language

variable {α : Type} (lang : Language)

def lineComment : Parser Unit :=
  (Parser.attempt (.string lang.commentLine)).then_ (.skipMany (.satisfy (· != '\n')))

def blockComment : Parser Unit := fun s =>
  if s.startsWith lang.commentStart.toList then
    let opened := s.advance lang.commentStart.length
    match afterComment lang.commentStart.toList lang.commentEnd.toList lang.nestedComments 1
        opened.rest with
    | some text => .success () (opened.advance (opened.rest.length - text.length))
    | none =>
      let finished := opened.advance opened.rest.length
      .failure ⟨.expected "end of comment", finished.position⟩ finished
  else .failure ⟨.expected (Text.quote lang.commentStart), s.position⟩ s

def whiteSpace : Parser Unit :=
  let blanks := Parser.skipSome .space
  let comments :=
    (if lang.commentLine.isEmpty then [] else [lang.lineComment]) ++
      (if lang.commentStart.isEmpty then [] else [lang.blockComment])
  .skipMany (.label (.choice (blanks :: comments)) "whitespace")

/-- Runs `p` and skips what separates it from the next lexeme. -/
def lexeme (p : Parser α) : Parser α := p.skip lang.whiteSpace

def symbol (text : String) : Parser String := lang.lexeme (.string text)

def semi : Parser String := lang.symbol ";"

def comma : Parser String := lang.symbol ","

def colon : Parser String := lang.symbol ":"

def dot : Parser String := lang.symbol "."

def parens (p : Parser α) : Parser α := .between (lang.symbol "(") (lang.symbol ")") p

def braces (p : Parser α) : Parser α := .between (lang.symbol "\x7b") (lang.symbol "\x7d") p

def angles (p : Parser α) : Parser α := .between (lang.symbol "<") (lang.symbol ">") p

def brackets (p : Parser α) : Parser α := .between (lang.symbol "[") (lang.symbol "]") p

def semiSep (p : Parser α) : Parser (List α) := .sepBy p lang.semi

def semiSep1 (p : Parser α) : Parser (List α) := .sepBy1 p lang.semi

def commaSep (p : Parser α) : Parser (List α) := .sepBy p lang.comma

def commaSep1 (p : Parser α) : Parser (List α) := .sepBy1 p lang.comma

end Language

end ContextRoles.Lexeme
