import ContextRoles.Text.Split

/-! # Paths

A path is a list of names below the working directory or below the top. Parts that are empty or a single
dot are dropped when a path is read; two dots stay, as they are resolved only where it is followed.
-/

namespace ContextRoles.Files

/-- Where a path starts. Two leading slashes are told apart from one, also in the text of the path. -/
inductive Anchor where
  | working
  | top
  | doubleTop
  deriving DecidableEq, Repr

structure Path where
  anchor : Anchor := .working
  parts : List String := []
  deriving DecidableEq, Repr

abbrev Location := List String

def Anchor.text : Anchor → String
  | working => ""
  | top => "/"
  | doubleTop => "//"

namespace Path

def anchorOf : List Char → Anchor
  | '/' :: '/' :: '/' :: _ => .top
  | '/' :: '/' :: _ => .doubleTop
  | '/' :: _ => .top
  | _ => .working

def ofString (text : String) : Path :=
  { anchor := anchorOf text.toList
    parts := ((Text.splitAt '/' text.toList).map String.ofList).filter fun part =>
      part ≠ "" && part ≠ "." }

def render (p : Path) : String :=
  if p.anchor = .working ∧ p.parts = [] then "."
  else p.anchor.text ++ String.intercalate "/" p.parts

def join (p q : Path) : Path :=
  match q.anchor with
  | .working => ⟨p.anchor, p.parts ++ q.parts⟩
  | _ => q

def child (p : Path) (text : String) : Path := p.join (ofString text)

def parent (p : Path) : Path := ⟨p.anchor, p.parts.dropLast⟩

def ofLocation (location : Location) : Path := ⟨.top, location⟩

/-- The place that a path means when it is followed by its names alone. -/
def resolve (working : Location) (p : Path) : Location :=
  p.parts.foldl (fun place part => if part = ".." then place.dropLast else place ++ [part])
    (if p.anchor = .working then working else [])

def relativeTo? (p directory : Path) : Option Path :=
  if p.anchor = directory.anchor then
    if directory.parts.isPrefixOf p.parts then some ⟨.working, p.parts.drop directory.parts.length⟩
    else none
  else none

def isBelow (directory place : Location) : Bool := directory.isPrefixOf place

/-- A name without what follows its last dot. A dot at either end does not count. -/
def stem (name : String) : String :=
  let chars := name.toList
  let suffix := (chars.reverse.takeWhile (· ≠ '.')).reverse
  let dot := chars.length - suffix.length - 1
  if suffix.length < chars.length ∧ 0 < dot ∧ suffix ≠ [] then String.ofList (chars.take dot)
  else name

/-- A path whose last name has no suffix, or nothing if there is no name. -/
def withoutSuffix? (p : Path) : Option Path :=
  p.parts.getLast?.map fun name => ⟨p.anchor, p.parts.dropLast ++ [stem name]⟩

/-- Whether a name of the path holds the null character, which no place has in its name. -/
def hasNull (p : Path) : Bool := p.parts.any fun part => part.toList.contains '\x00'

end Path

end ContextRoles.Files
