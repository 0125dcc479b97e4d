import ContextRoles.Parsing.Parser
import ContextRoles.Text.Quoted

/-! # The wording of parse errors -/

namespace ContextRoles.Parsing

def stalledMessage : String := "many: parser accepted empty input"

def Cause.message : Cause → String
  | expected what => s!"Expected {what}"
  | unexpected what => s!"Unexpected {what}"
  | negated => "Negated parser succeeded"
  | noAlternatives => "No alternatives"
  | notIndented => "not indented"
  | indentationMismatch => "indentation doesn't match"
  | overOneLine => "over one line"
  | invalidEscape => "invalid escape sequence"
  | unknownDataType name => s!"Unknown data type {Text.quote name}"
  | stalled => stalledMessage
  | other message => message

def ParseError.message (e : ParseError) : String := e.cause.message

def ParseError.describe (e : ParseError) : String :=
  s!"Line {e.position.line}, column {e.position.column}: {e.message}"

end ContextRoles.Parsing
