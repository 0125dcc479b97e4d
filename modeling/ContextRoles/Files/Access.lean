import ContextRoles.Files.Tree
import ContextRoles.Text.Quoted

/-! # Following paths

A path is followed name by name: every place on the way has to be a directory, also where two dots lead
back out of it. Neither a name nor the whole path may be too long. Reading gives text with line ends
unified; writing creates the file but no directory.
-/

namespace ContextRoles.Files

inductive FileFault where
  | missing
  | occupied
  | notDirectory
  | isDirectory
  | nameTooLong
  deriving DecidableEq, Repr

inductive FileError where
  | refused (fault : FileFault) (path : Path)
  | denied (path : Path)
  | nullCharacter
  | undecodable
  deriving DecidableEq, Repr

/-- Whether it is the system that reports an error, and not the reading of a path or of a text. -/
def FileError.isOfSystem : FileError → Bool
  | refused _ _ => true
  | denied _ => true
  | nullCharacter => false
  | undecodable => false

def FileFault.description : FileFault → Nat × String
  | missing => (2, "No such file or directory")
  | occupied => (17, "File exists")
  | notDirectory => (20, "Not a directory")
  | isDirectory => (21, "Is a directory")
  | nameTooLong => (36, "File name too long")

def FileFault.describe (fault : FileFault) : String :=
  s!"[Errno {fault.description.1}] {fault.description.2}"

def FileError.message : FileError → String
  | refused fault path => s!"{fault.describe}: {Text.quote path.render}"
  | denied path => s!"[Errno 13] Permission denied: {Text.quote path.render}"
  | nullCharacter => "embedded null byte"
  | undecodable => "the text is not UTF-8"

def maxNameSize : Nat := 255

def maxPathSize : Nat := 4095

namespace FileTree

variable (t : FileTree)

/-- The place that names lead to from another. The last of them need not exist. -/
def walk (place : Location) : List String → Except FileFault Location
  | [] => .ok place
  | part :: parts =>
    match t.get? place with
    | none => .error .missing
    | some entry =>
      if !entry.isDirectory then .error .notDirectory
      else if part = ".." then walk place.dropLast parts
      else if maxNameSize < part.utf8ByteSize then .error .nameTooLong
      else walk (place ++ [part]) parts

def start (p : Path) : Location := if p.anchor = .working then t.working else []

def objection? (p : Path) : Option FileError :=
  if p.hasNull then some .nullCharacter
  else if maxPathSize < p.render.utf8ByteSize then some (.refused .nameTooLong p)
  else if t.denies .find p then some (.denied p)
  else none

def locate (p : Path) : Except FileError Location :=
  match t.objection? p with
  | some e => .error e
  | none => (t.walk (t.start p) p.parts).mapError (.refused · p)

def status (p : Path) : Except FileError Entry :=
  match t.locate p with
  | .error e => .error e
  | .ok place =>
    match t.get? place with
    | some entry => .ok entry
    | none => .error (.refused .missing p)

/-- What a question about a path is answered if nothing is there. -/
def orAbsent {α : Type} (default : α) : Except FileError α → Except FileError α
  | .error (.refused .missing _) => .ok default
  | .error (.refused .notDirectory _) => .ok default
  | .error .nullCharacter => .ok default
  | result => result

def exists? (p : Path) : Except FileError Bool := orAbsent false ((t.status p).map fun _ => true)

def isDirectory? (p : Path) : Except FileError Bool :=
  orAbsent false ((t.status p).map Entry.isDirectory)

def readText (p : Path) : Except FileError String :=
  match t.status p with
  | .error e => .error e
  | .ok entry =>
    if t.denies .read p then .error (.denied p)
    else
      match entry.node with
      | .directory => .error (.refused .isDirectory p)
      | .file .undecodable => .error .undecodable
      | .file (.text text) => .ok (String.ofList (Text.unifyLineEnds text.toList))

def write (p : Path) (content : Content) : Except FileError FileTree :=
  match t.locate p with
  | .error e => .error e
  | .ok place =>
    if t.isDirectoryAt place then .error (.refused .isDirectory p)
    else if t.denies .write p then .error (.denied p)
    else .ok (t.put place (.file content))

def makeDirectory (p : Path) : Except FileError FileTree :=
  match t.locate p with
  | .error e => .error e
  | .ok place =>
    if (t.get? place).isSome then .error (.refused .occupied p)
    else if t.denies .write p then .error (.denied p)
    else .ok (t.put place .directory)

/-- Whether making a directory may go on after it failed, as there is one already. -/
def unlessDirectory (p : Path) (e : FileError) : Except FileError Unit :=
  match t.isDirectory? p with
  | .ok true => .ok ()
  | .ok false => .error e
  | .error e => .error e

/-- Makes a directory and those above it, unless they exist. What was made stays if this fails. -/
def ensureDirectory (t : FileTree) (p : Path) : Except FileError Unit × FileTree :=
  match t.makeDirectory p with
  | .ok t => (.ok (), t)
  | .error (.refused .missing q) =>
    if _h : p.parts = [] then (.error (.refused .missing q), t)
    else
      match ensureDirectory t p.parent with
      | (.error e, t) => (.error e, t)
      | (.ok _, t) =>
        match t.makeDirectory p with
        | .ok t => (.ok (), t)
        | .error (.refused .missing q) => (.error (.refused .missing q), t)
        | .error e => (t.unlessDirectory p e, t)
  | .error e => (t.unlessDirectory p e, t)
termination_by p.parts.length
decreasing_by
  have := List.length_pos_iff.mpr _h
  simp only [Path.parent, List.length_dropLast]
  omega

/-- Writes a file after making the directories above it. -/
def store (p : Path) (text : String) : Except FileError Unit × FileTree :=
  match t.ensureDirectory p.parent with
  | (.error e, t) => (.error e, t)
  | (.ok _, t) =>
    match t.write p (.text text) with
    | .ok t => (.ok (), t)
    | .error e => (.error e, t)

end FileTree

end ContextRoles.Files
