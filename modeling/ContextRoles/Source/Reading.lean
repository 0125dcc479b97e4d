import ContextRoles.Model.Linking
import ContextRoles.Parsing.Message
import ContextRoles.Source.Definition

/-! # Reading a source -/

namespace ContextRoles.Source

open Parsing

/-- The result of reading a source, and how many ids were drawn so far. -/
structure Reading where
  result : Except ParseError Collection
  drawn : Nat

/-- Reads a complete source, with generated ids from a supply of which some were drawn before. -/
def read (ids : Nat → String) (drawn : Nat) (source : String) : Reading :=
  match sourceFile ids { State.start source with drawn } with
  | .success collection t => ⟨.ok collection.linkFilledRoles, t.drawn⟩
  | .failure e t => ⟨.error e, t.drawn⟩
  | .stalled => ⟨.error ⟨.stalled, {}⟩, drawn⟩

end ContextRoles.Source
