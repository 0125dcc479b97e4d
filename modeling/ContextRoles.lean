import ContextRoles.Artifact.Decoding
import ContextRoles.Artifact.Encoding
import ContextRoles.Artifact.Field
import ContextRoles.Artifact.LaxChecks
import ContextRoles.CommandLine.Arguments
import ContextRoles.CommandLine.Grammar
import ContextRoles.CommandLine.Number
import ContextRoles.CommandLine.Run
import ContextRoles.Decimal.Nearest
import ContextRoles.Decimal.Shortest
import ContextRoles.Files.Access
import ContextRoles.Files.Path
import ContextRoles.Files.Tree
import ContextRoles.Json.Reader
import ContextRoles.Json.Value
import ContextRoles.Json.Writer
import ContextRoles.Lexeme.Language
import ContextRoles.Lexeme.Literal
import ContextRoles.Lexeme.Number
import ContextRoles.Lexeme.WhiteSpace
import ContextRoles.Lexeme.Word
import ContextRoles.Main
import ContextRoles.Model.Entity
import ContextRoles.Model.Linking
import ContextRoles.Model.Name
import ContextRoles.Model.OrderedMap
import ContextRoles.Model.Value
import ContextRoles.Parsing.Character
import ContextRoles.Parsing.Choice
import ContextRoles.Parsing.Indentation
import ContextRoles.Parsing.Message
import ContextRoles.Parsing.Parser
import ContextRoles.Parsing.Position
import ContextRoles.Parsing.Recursion
import ContextRoles.Parsing.Repetition
import ContextRoles.Parsing.State
import ContextRoles.Proofs.Artifact.LaxChecks
import ContextRoles.Proofs.Artifact.RoundTrip
import ContextRoles.Proofs.Artifact.Typing
import ContextRoles.Proofs.CommandLine.Ending
import ContextRoles.Proofs.Files.Omission
import ContextRoles.Proofs.Files.Tree
import ContextRoles.Proofs.Json.Printable
import ContextRoles.Proofs.Json.RoundTrip
import ContextRoles.Proofs.Json.Scalar
import ContextRoles.Proofs.Lexeme.AnyCase
import ContextRoles.Proofs.Lexeme.Literal
import ContextRoles.Proofs.Lexeme.Lookup
import ContextRoles.Proofs.Lexeme.Number
import ContextRoles.Proofs.Lexeme.Totality
import ContextRoles.Proofs.Lexeme.Trivia
import ContextRoles.Proofs.Lexeme.Word
import ContextRoles.Proofs.Model.Filling
import ContextRoles.Proofs.Model.Linking
import ContextRoles.Proofs.Model.Name
import ContextRoles.Proofs.Model.OrderedMap
import ContextRoles.Proofs.Model.Recording
import ContextRoles.Proofs.Model.Renaming
import ContextRoles.Proofs.Parsing.Accumulation
import ContextRoles.Proofs.Parsing.Agreement
import ContextRoles.Proofs.Parsing.Alternatives
import ContextRoles.Proofs.Parsing.Blocks
import ContextRoles.Proofs.Parsing.Built
import ContextRoles.Proofs.Parsing.Choice
import ContextRoles.Proofs.Parsing.Course
import ContextRoles.Proofs.Parsing.Drawing
import ContextRoles.Proofs.Parsing.Extension
import ContextRoles.Proofs.Parsing.Leaving
import ContextRoles.Proofs.Parsing.Location
import ContextRoles.Proofs.Parsing.Pairing
import ContextRoles.Proofs.Parsing.Reach
import ContextRoles.Proofs.Parsing.Reading
import ContextRoles.Proofs.Parsing.Recursion
import ContextRoles.Proofs.Parsing.Repetition
import ContextRoles.Proofs.Parsing.Running
import ContextRoles.Proofs.Parsing.Steadiness
import ContextRoles.Proofs.Parsing.Threading
import ContextRoles.Proofs.Parsing.Totality
import ContextRoles.Proofs.Parsing.Upholding
import ContextRoles.Proofs.Source.Accumulation
import ContextRoles.Proofs.Source.Alternatives
import ContextRoles.Proofs.Source.Assembly
import ContextRoles.Proofs.Source.Blocks
import ContextRoles.Proofs.Source.Bodies
import ContextRoles.Proofs.Source.Choice
import ContextRoles.Proofs.Source.Coherence
import ContextRoles.Proofs.Source.Composition
import ContextRoles.Proofs.Source.Course
import ContextRoles.Proofs.Source.DocumentReading
import ContextRoles.Proofs.Source.Drawing
import ContextRoles.Proofs.Source.Following
import ContextRoles.Proofs.Source.Formation
import ContextRoles.Proofs.Source.Gap
import ContextRoles.Proofs.Source.Heading
import ContextRoles.Proofs.Source.Keying
import ContextRoles.Proofs.Source.Layout
import ContextRoles.Proofs.Source.Leftover
import ContextRoles.Proofs.Source.LineReading
import ContextRoles.Proofs.Source.LocalName
import ContextRoles.Proofs.Source.Location
import ContextRoles.Proofs.Source.NameReading
import ContextRoles.Proofs.Source.Naming
import ContextRoles.Proofs.Source.Prefix
import ContextRoles.Proofs.Source.Prolonging
import ContextRoles.Proofs.Source.Renaming
import ContextRoles.Proofs.Source.Repetition
import ContextRoles.Proofs.Source.Respacing
import ContextRoles.Proofs.Source.Sealing
import ContextRoles.Proofs.Source.Separation
import ContextRoles.Proofs.Source.Shifting
import ContextRoles.Proofs.Source.Totality
import ContextRoles.Proofs.Source.Tree
import ContextRoles.Proofs.Source.TreeReading
import ContextRoles.Proofs.Source.Upholding
import ContextRoles.Proofs.Source.ValueReading
import ContextRoles.Proofs.Source.Weaving
import ContextRoles.Proofs.Validation
import ContextRoles.Proofs.Validation.Cycles
import ContextRoles.Proofs.Workspace.Coherence
import ContextRoles.Proofs.Workspace.Compile
import ContextRoles.Proofs.Workspace.Configuration
import ContextRoles.Proofs.Workspace.Discarding
import ContextRoles.Proofs.Workspace.Discovery
import ContextRoles.Proofs.Workspace.Failure
import ContextRoles.Proofs.Workspace.Fetching
import ContextRoles.Proofs.Workspace.Key
import ContextRoles.Proofs.Workspace.Rendering
import ContextRoles.Proofs.Workspace.Stopping
import ContextRoles.Source.Assignment
import ContextRoles.Source.Building
import ContextRoles.Source.Definition
import ContextRoles.Source.Name
import ContextRoles.Source.Reading
import ContextRoles.Text.Blank
import ContextRoles.Text.Digit
import ContextRoles.Text.Letter
import ContextRoles.Text.Lowercase
import ContextRoles.Text.Lowering
import ContextRoles.Text.Numeral
import ContextRoles.Text.Printable
import ContextRoles.Text.Quoted
import ContextRoles.Text.Range
import ContextRoles.Text.Split
import ContextRoles.Text.Uppercase
import ContextRoles.Uuid
import ContextRoles.Validation
import ContextRoles.Workspace.Compile
import ContextRoles.Workspace.Config
import ContextRoles.Workspace.ConfigFile
import ContextRoles.Workspace.Discovery
import ContextRoles.Workspace.Failure
import ContextRoles.Workspace.Key
import ContextRoles.Workspace.Remote
import ContextRoles.Workspace.Session
import ContextRoles.Yaml.BlockScalar
import ContextRoles.Yaml.Cursor
import ContextRoles.Yaml.Format
import ContextRoles.Yaml.Node
import ContextRoles.Yaml.PlainScalar
import ContextRoles.Yaml.QuotedScalar
import ContextRoles.Yaml.Resolution
import ContextRoles.Yaml.Timestamp
import ContextRoles.Yaml.Token
import ContextRoles.Yaml.Value
import ContextRoles.Yaml.Writer
