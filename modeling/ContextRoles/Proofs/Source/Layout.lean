import ContextRoles.Proofs.Source.NameReading
import ContextRoles.Proofs.Source.Tree
import ContextRoles.Proofs.Source.ValueReading
import ContextRoles.Source.Definition

/-! # Layouts of definition trees

Every header, property and binding stands on lines of its own. The lines of a body stand on one column
right of its header, whatever the column; a definition in place stands below its binding and right of
it, and the properties of the binding stand right of the binding but not of the definition. Blanks and
comments may stand wherever lexemes are separated. Each relation holds of a piece of text at a position
and of the text that follows it.
-/

namespace ContextRoles.Source

open Parsing Lexeme

section Lines

/-- White space inside a line. -/
structure Space (g rest : List Char) : Prop where
  gap : Gap g rest
  line : '\n' ∉ g

/-- White space up to another line or to the end of the text. -/
structure LineBreak (g rest : List Char) : Prop where
  gap : Gap g rest
  line : '\n' ∈ g ∨ rest = []

/-- A rule reads a text as it stands. -/
def Spells (p : Parser String) (x : String) : Prop := Parser.Accepts p x x

instance (p : Parser String) (x : String) : Decidable (Spells p x) :=
  inferInstanceAs (Decidable (Parser.Accepts p x x))

/-- An instance and its type. -/
inductive HeaderLine : TypeDeclaration → List Char → List Char → Prop where
  | mk {x y : String} {g e tail : List Char} :
      Spells instanceName x → Spells resourceName y → Space g (y.toList ++ (e ++ tail)) →
      Stops isNameChar (g ++ (y.toList ++ (e ++ tail))) → LineBreak e tail →
      HeaderLine ⟨x, y⟩ (x.toList ++ (g ++ (y.toList ++ e))) tail

/-- A name, an equals sign and any text that the rule of values accepts, up to the end of its line. -/
inductive PropertyLine (names : String → Prop) : Property → List Char → List Char → Prop where
  | mk {x y : String} {v : Value} {g g' e tail : List Char} :
      names x → Space g ("=".toList ++ (g' ++ (y.toList ++ (e ++ tail)))) →
      Space g' (y.toList ++ (e ++ tail)) →
      Stops isOperatorChar (g' ++ (y.toList ++ (e ++ tail))) →
      Parser.Accepts value y v → Gap e tail → EndsLine (e ++ tail) →
      PropertyLine names ⟨x, v⟩
        (x.toList ++ (g ++ ("=".toList ++ (g' ++ (y.toList ++ e))))) tail

inductive KeywordLine (word : String) : Property → List Char → List Char → Prop where
  | mk {a : Property} {g w tail : List Char} :
      Space g (w ++ tail) → Stops isWordChar (g ++ (w ++ tail)) →
      PropertyLine (Spells contextPropertyName) a w tail →
      KeywordLine word a (word.toList ++ (g ++ w)) tail

/-- A number in parentheses on the line of the binding, or none. -/
inductive OccurrenceText : Option Nat → List Char → List Char → Prop where
  | none {rest : List Char} : OccurrenceText none [] rest
  | some {y : String} {n : Nat} {g g₁ g₂ rest : List Char} :
      Space g (y.toList ++ (g₁ ++ (")".toList ++ (g₂ ++ rest)))) →
      Parser.Accepts Number.natural y n → '\n' ∉ y.toList →
      Space g₁ (")".toList ++ (g₂ ++ rest)) → Space g₂ rest →
      OccurrenceText (some n)
        ("(".toList ++ (g ++ (y.toList ++ (g₁ ++ (")".toList ++ g₂))))) rest

/-- The role, its occurrence and the arrow of a binding. -/
inductive ArrowText (names : String → Prop) :
    String → Option Nat → List Char → List Char → Prop where
  | mk {x : String} {n : Option Nat} {g o tail : List Char} :
      names x → Space g (o ++ ("=>".toList ++ tail)) → OccurrenceText n o ("=>".toList ++ tail) →
      Stops isOperatorChar tail →
      ArrowText names x n (x.toList ++ (g ++ (o ++ "=>".toList))) tail

end Lines

section Bodies

/-- Lines on one column, one below the other. -/
inductive Rows {α : Type} (line : Position → α → List Char → List Char → Prop) (k : Nat) :
    Position → List α → List Char → List Char → Prop where
  | nil {p : Position} {tail : List Char} : Rows line k p [] [] tail
  | cons {p : Position} {a : α} {as : List α} {v w tail : List Char} :
      p.column = k → line p a v (w ++ tail) → Rows line k (p.advanceAll v) as w tail →
      Rows line k p (a :: as) (v ++ w) tail

mutual

/-- A tree at a position. The names of its roles and of their properties satisfy `plain`. -/
inductive TreeLines (plain : String → Prop) :
    Position → Tree → List Char → List Char → Prop where
  | context {p : Position} {k : Nat} {header : TypeDeclaration} {publics privates : List Property}
      {branches : List Branch} {w w₁ w₂ w₃ tail : List Char} :
      HeaderLine header w (w₁ ++ (w₂ ++ (w₃ ++ tail))) → p.column < k →
      Rows (fun _ => KeywordLine "public") k (p.advanceAll w) publics w₁ (w₂ ++ (w₃ ++ tail)) →
      Rows (fun _ => KeywordLine "private") k ((p.advanceAll w).advanceAll w₁) privates w₂
        (w₃ ++ tail) →
      BranchRows plain k (((p.advanceAll w).advanceAll w₁).advanceAll w₂) branches w₃ tail →
      TreeLines plain p (.context header publics privates branches)
        (w ++ (w₁ ++ (w₂ ++ w₃))) tail
  | role {p : Position} {k : Nat} {header : TypeDeclaration} {first : Property}
      {others : List Property} {w w' tail : List Char} :
      HeaderLine header w (w' ++ tail) → p.column < k →
      Rows (fun _ => PropertyLine fun x => Spells propertyName x ∧ plain x) k (p.advanceAll w)
        (first :: others) w' tail →
      TreeLines plain p (.role header first others) (w ++ w') tail

inductive BranchLines (plain : String → Prop) :
    Position → Branch → List Char → List Char → Prop where
  | named {p : Position} {k : Nat} {x y : String} {n : Option Nat} {properties : List Property}
      {w g e v tail : List Char} :
      ArrowText (fun x => Spells propertyName x ∧ plain x) x n w
        (g ++ (y.toList ++ e ++ (v ++ tail))) →
      Space g (y.toList ++ e ++ (v ++ tail)) → Spells instanceName y →
      LineBreak e (v ++ tail) → p.column < k →
      Rows (fun _ => PropertyLine (Spells propertyName)) k
        ((p.advanceAll (w ++ g)).advanceAll (y.toList ++ e)) properties v tail →
      BranchLines plain p (.named x n y properties) (w ++ g ++ (y.toList ++ e ++ v)) tail
  | defined {p : Position} {k : Nat} {x : String} {n : Option Nat} {tree : Tree}
      {properties : List Property} {w g u v tail : List Char} :
      ArrowText (fun x => Spells propertyName x ∧ plain x) x n w (g ++ (u ++ (v ++ tail))) →
      Gap g (u ++ (v ++ tail)) → '\n' ∈ g → p.column < (p.advanceAll (w ++ g)).column →
      TreeLines plain (p.advanceAll (w ++ g)) tree u (v ++ tail) →
      p.column < k → k ≤ (p.advanceAll (w ++ g)).column →
      Rows (fun _ => PropertyLine (Spells propertyName)) k
        ((p.advanceAll (w ++ g)).advanceAll u) properties v tail →
      BranchLines plain p (.defined x n tree properties) (w ++ g ++ (u ++ v)) tail

inductive BranchRows (plain : String → Prop) :
    Nat → Position → List Branch → List Char → List Char → Prop where
  | nil {k : Nat} {p : Position} {tail : List Char} : BranchRows plain k p [] [] tail
  | cons {k : Nat} {p : Position} {branch : Branch} {branches : List Branch}
      {v w tail : List Char} :
      p.column = k → BranchLines plain p branch v (w ++ tail) →
      BranchRows plain k (p.advanceAll v) branches w tail →
      BranchRows plain k p (branch :: branches) (v ++ w) tail

end

end Bodies

section Documents

/-- A definition by itself, or definitions below a header. -/
inductive Document where
  | lone (tree : Tree)
  | titled (name : String) (trees : List Tree)

inductive DocumentText (plain : String → Prop) : Document → List Char → Prop where
  | lone {tree : Tree} {g w : List Char} :
      Gap g w → TreeLines plain (Position.advanceAll {} g) tree w [] →
      DocumentText plain (.lone tree) (g ++ w)
  | titled {x : String} {trees : List Tree} {k : Nat} {g g' e w : List Char} :
      Gap g ("Text".toList ++ (g' ++ (x.toList ++ (e ++ w)))) →
      Space g' (x.toList ++ (e ++ w)) → Stops isWordChar (g' ++ (x.toList ++ (e ++ w))) →
      Spells instanceName x → LineBreak e w →
      Rows (TreeLines plain) k
        (Position.advanceAll {} (g ++ ("Text".toList ++ (g' ++ (x.toList ++ e))))) trees w [] →
      DocumentText plain (.titled x trees)
        (g ++ ("Text".toList ++ (g' ++ (x.toList ++ e))) ++ w)

variable (ids : Nat → String)

def allTreeSize : List Tree → Nat
  | [] => 0
  | tree :: trees => tree.size + allTreeSize trees

def Document.size : Document → Nat
  | .lone tree => tree.size
  | .titled _ trees => allTreeSize trees

/-- The entities of trees one below the other. -/
def allTreeWrites (n : Nat) : List Tree → List (String × Entity)
  | [] => []
  | tree :: trees => tree.writes ids n ++ allTreeWrites (n + tree.size) trees

def Document.collection (n : Nat) : Document → Collection
  | .lone tree => tree.collection ids n
  | .titled x trees => ⟨localName x, .ofList (allTreeWrites ids n trees)⟩

end Documents

end ContextRoles.Source
