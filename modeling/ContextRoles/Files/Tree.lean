import ContextRoles.Files.Path
import ContextRoles.Model.OrderedMap

/-! # File trees

A file tree knows what stands in which place and when it was changed last. Places are compared by their
names alone, as there are no links. The top is always a directory. What the system denies does not depend
on what stands where, and it stays as it is while the tree changes.
-/

namespace ContextRoles.Files

/-- What a file holds. Bytes that are no text are not told apart. -/
inductive Content where
  | text (text : String)
  | undecodable
  deriving DecidableEq, Repr

def Content.ofBytes (bytes : ByteArray) : Content :=
  match String.fromUTF8? bytes with
  | some decoded => .text decoded
  | none => .undecodable

inductive Node where
  | file (content : Content)
  | directory
  deriving DecidableEq, Repr

structure Entry where
  node : Node
  /-- The time of the last change, in nanoseconds. -/
  modified : Int
  deriving DecidableEq, Repr

def Entry.isDirectory (e : Entry) : Bool := e.node = .directory

inductive Access where
  | find
  | list
  | read
  | write
  deriving DecidableEq, Repr

structure FileTree where
  entries : List (Location × Entry) := []
  nodup : (entries.map Prod.fst).Nodup := by simp
  /-- The directory that paths start from. -/
  working : Location := []
  /-- The time that changes happen at. -/
  now : Int := 0
  /-- What there is no permission for. -/
  denies : Access → Path → Bool := fun _ _ => false

namespace FileTree

variable (t : FileTree)

def get? (location : Location) : Option Entry :=
  match location with
  | [] => some ⟨.directory, t.now⟩
  | _ => t.entries.lookup location

def isDirectoryAt (location : Location) : Bool := (t.get? location).any Entry.isDirectory

def set (location : Location) (entry : Entry) : FileTree :=
  { t with
    entries := setEntry location entry t.entries
    nodup := nodup_keys_setEntry t.nodup }

theorem get?_set {location : Location} (other : Location) (entry : Entry) (h : other ≠ []) :
    (t.set location entry).get? other = if other = location then some entry else t.get? other := by
  cases other with
  | nil => exact absurd rfl h
  | cons => exact lookup_setEntry location _ entry t.entries

def touch (location : Location) (modified : Int) : FileTree :=
  match t.get? location with
  | some entry => t.set location { entry with modified }
  | none => t

/-- Sets what stands in a place. A new place changes the directory that it is in. -/
def put (location : Location) (node : Node) : FileTree :=
  let changed := t.set location ⟨node, t.now⟩
  if (t.get? location).isSome then changed else changed.touch location.dropLast t.now

theorem nodup_filter_entries (p : Location × Entry → Bool) :
    ((t.entries.filter p).map Prod.fst).Nodup :=
  t.nodup.sublist (List.filter_sublist.map _)

def remove (location : Location) : FileTree :=
  let kept : FileTree :=
    { t with
      entries := t.entries.filter fun (place, _) => place ≠ location
      nodup := t.nodup_filter_entries _ }
  kept.touch location.dropLast t.now

def below (directory : Location) : List (Location × Entry) :=
  t.entries.filter fun (place, _) => Path.isBelow directory place && place ≠ directory

end FileTree

end ContextRoles.Files
