/-! # Maps in insertion order

Every key occurs once. Setting the value of a known key leaves the key in its place, and a new key goes
to the end.
-/

namespace ContextRoles

variable {κ α : Type}

section Entries

variable [DecidableEq κ]

def setEntry (key : κ) (value : α) : List (κ × α) → List (κ × α)
  | [] => [(key, value)]
  | (k, v) :: entries =>
    if k = key then (k, value) :: entries else (k, v) :: setEntry key value entries

theorem keys_setEntry (key : κ) (value : α) (entries : List (κ × α)) :
    (setEntry key value entries).map Prod.fst =
      if key ∈ entries.map Prod.fst then entries.map Prod.fst
      else entries.map Prod.fst ++ [key] := by
  induction entries with
  | nil => simp [setEntry]
  | cons entry entries ih =>
    obtain ⟨k, v⟩ := entry
    by_cases h : k = key
    · simp [setEntry, h]
    · have h' : ¬ key = k := fun e => h e.symm
      simp only [setEntry, h, if_false, List.map_cons, ih, List.mem_cons, h', false_or]
      split <;> simp

theorem nodup_keys_setEntry {key : κ} {value : α} {entries : List (κ × α)}
    (h : (entries.map Prod.fst).Nodup) : ((setEntry key value entries).map Prod.fst).Nodup := by
  rw [keys_setEntry]
  split
  · exact h
  · rw [List.nodup_append]
    exact ⟨h, by simp, by simp_all; intro a b hab e; subst e; simp_all⟩

theorem lookup_setEntry [BEq κ] [LawfulBEq κ] (key other : κ) (value : α)
    (entries : List (κ × α)) :
    (setEntry key value entries).lookup other =
      if other = key then some value else entries.lookup other := by
  induction entries with
  | nil =>
    by_cases h : other = key
    · simp [setEntry, h]
    · have hne : (other == key) = false := beq_eq_false_iff_ne.mpr h
      simp only [setEntry, List.lookup_cons, List.lookup_nil, hne, h, if_false]
  | cons entry entries ih =>
    obtain ⟨k, v⟩ := entry
    by_cases h : other = k
    · subst h
      by_cases hk : other = key <;> simp [setEntry, hk]
    · have hne : (other == k) = false := beq_eq_false_iff_ne.mpr h
      by_cases hk : k = key
      · subst hk
        simp only [setEntry, if_true, List.lookup_cons, hne, h, if_false]
      · simp only [setEntry, hk, if_false, List.lookup_cons, hne, ih]

end Entries

/-- A map from text that remembers the order of its keys. -/
structure OrderedMap (α : Type) where
  entries : List (String × α) := []
  nodup : (entries.map Prod.fst).Nodup := by simp
  deriving DecidableEq

namespace OrderedMap

def empty : OrderedMap α := {}

instance : Inhabited (OrderedMap α) := ⟨empty⟩

instance [Repr α] : Repr (OrderedMap α) := ⟨fun m n => reprPrec m.entries n⟩

def keys (m : OrderedMap α) : List String := m.entries.map Prod.fst

def values (m : OrderedMap α) : List α := m.entries.map Prod.snd

def isEmpty (m : OrderedMap α) : Bool := m.entries.isEmpty

def size (m : OrderedMap α) : Nat := m.entries.length

def get? (m : OrderedMap α) (key : String) : Option α := m.entries.lookup key

def contains (m : OrderedMap α) (key : String) : Bool := (m.get? key).isSome

def insert (m : OrderedMap α) (key : String) (value : α) : OrderedMap α :=
  ⟨setEntry key value m.entries, nodup_keys_setEntry m.nodup⟩

/-- The entries in order; of a repeated key the last value counts, at the place of the first. -/
def ofList (entries : List (String × α)) : OrderedMap α :=
  entries.foldl (fun m (key, value) => m.insert key value) empty

/-- The entries of `m` overridden and extended by those of `n`. -/
def merge (m n : OrderedMap α) : OrderedMap α :=
  n.entries.foldl (fun m (key, value) => m.insert key value) m

/-- The maps from left to right, each overriding the ones before. -/
def mergeAll (maps : List (OrderedMap α)) : OrderedMap α := maps.foldl merge empty

def mapValues {β : Type} (f : α → β) (m : OrderedMap α) : OrderedMap β :=
  ⟨m.entries.map fun (key, value) => (key, f value), by
    have h : (Prod.fst ∘ fun (x : String × α) => (x.1, f x.2)) = Prod.fst := rfl
    simpa [List.map_map, h] using m.nodup⟩

theorem keys_insert (m : OrderedMap α) (key : String) (value : α) :
    (m.insert key value).keys = if key ∈ m.keys then m.keys else m.keys ++ [key] :=
  keys_setEntry key value m.entries

theorem get?_insert (m : OrderedMap α) (key other : String) (value : α) :
    (m.insert key value).get? other = if other = key then some value else m.get? other :=
  lookup_setEntry key other value m.entries

end OrderedMap

end ContextRoles
