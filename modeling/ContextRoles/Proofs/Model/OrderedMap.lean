import ContextRoles.Model.Entity

/-! # Lookup in maps

What a map holds is determined by its lookups. A merge looks a key up in the second map first, and
loses no key of either.
-/

namespace ContextRoles.OrderedMap

variable {α : Type} {m n : OrderedMap α} {k key : String} {a value : α}

@[simp] theorem get?_empty (k : String) : (empty : OrderedMap α).get? k = none := rfl

theorem lookup_eq_some_iff {entries : List (String × α)} (h : (entries.map Prod.fst).Nodup) :
    entries.lookup k = some a ↔ (k, a) ∈ entries := by
  induction entries with
  | nil => simp
  | cons entry entries ih =>
    obtain ⟨k', a'⟩ := entry
    rw [List.map_cons, List.nodup_cons] at h
    by_cases hk : k = k'
    · subst hk
      have hnot : (k, a) ∉ entries := fun hm => h.1 (List.mem_map.mpr ⟨_, hm, rfl⟩)
      simp [hnot, eq_comm]
    · have hne : (k == k') = false := beq_eq_false_iff_ne.mpr hk
      simp [List.lookup_cons, hne, hk, ih h.2]

theorem get?_eq_some_iff : m.get? k = some a ↔ (k, a) ∈ m.entries := lookup_eq_some_iff m.nodup

theorem mem_values : a ∈ m.values ↔ ∃ k, m.get? k = some a := by
  simp [values, get?_eq_some_iff]

theorem contains_iff : m.contains k = true ↔ ∃ a, m.get? k = some a := Option.isSome_iff_exists

@[simp] theorem get?_insert_self (m : OrderedMap α) (key : String) (value : α) :
    (m.insert key value).get? key = some value := by
  rw [get?_insert, if_pos rfl]

theorem get?_insert_of_ne (h : k ≠ key) : (m.insert key value).get? k = m.get? k := by
  rw [get?_insert, if_neg h]

theorem contains_insert :
    (m.insert key value).contains k = true ↔ k = key ∨ m.contains k = true := by
  simp only [contains, get?_insert]
  split <;> simp_all

theorem get?_foldl_insert {entries : List (String × α)} (h : (entries.map Prod.fst).Nodup) :
    (entries.foldl (fun m (key, value) => m.insert key value) m).get? k =
      (entries.lookup k).or (m.get? k) := by
  induction entries generalizing m with
  | nil => rfl
  | cons entry entries ih =>
    obtain ⟨k', a'⟩ := entry
    rw [List.map_cons, List.nodup_cons] at h
    rw [List.foldl_cons, ih h.2, get?_insert, List.lookup_cons]
    by_cases hk : k = k'
    · subst hk
      have hnone : entries.lookup k = none := by
        rw [Option.eq_none_iff_forall_ne_some]
        exact fun a ha => h.1 (List.mem_map.mpr ⟨_, (lookup_eq_some_iff h.2).mp ha, rfl⟩)
      simp [hnone]
    · have hne : (k == k') = false := beq_eq_false_iff_ne.mpr hk
      rw [if_neg hk, hne]

theorem get?_merge (m n : OrderedMap α) (k : String) :
    (m.merge n).get? k = (n.get? k).or (m.get? k) := get?_foldl_insert n.nodup

theorem contains_merge :
    (m.merge n).contains k = true ↔ m.contains k = true ∨ n.contains k = true := by
  simp [contains, get?_merge, or_comm]

theorem get?_merge_left (h : n.get? k = none) : (m.merge n).get? k = m.get? k := by
  rw [get?_merge, h, Option.none_or]

theorem get?_merge_right (h : n.get? k = some a) : (m.merge n).get? k = some a := by
  rw [get?_merge, h, Option.some_or]

/-- An entry of a merge is one of the second map, or one of the first that the second leaves alone. -/
theorem get?_merge_eq_some (h : (m.merge n).get? k = some a) :
    n.get? k = some a ∨ n.get? k = none ∧ m.get? k = some a := by
  rw [get?_merge] at h
  cases hn : n.get? k with
  | some b => exact .inl (by simpa [hn] using h)
  | none => exact .inr ⟨rfl, by simpa [hn] using h⟩

section Entries

variable {P : String → α → Prop}

def All (P : String → α → Prop) (m : OrderedMap α) : Prop := ∀ k a, m.get? k = some a → P k a

theorem all_iff : All P m ↔ ∀ entry ∈ m.entries, P entry.1 entry.2 :=
  ⟨fun h entry he => h entry.1 entry.2 (get?_eq_some_iff.mpr he),
    fun h k a ha => h (k, a) (get?_eq_some_iff.mp ha)⟩

theorem all_empty : All P (empty : OrderedMap α) := nofun

theorem All.insert (h : All P m) (ha : P key a) : All P (m.insert key a) := by
  intro k b hk
  rw [get?_insert] at hk
  split at hk
  next heq =>
    cases hk
    exact heq ▸ ha
  · exact h k b hk

theorem All.merge (h : All P m) (h' : All P n) : All P (m.merge n) := fun k a ha =>
  (get?_merge_eq_some ha).elim (h' k a) fun hm => h k a hm.2

theorem all_mergeAll {ms : List (OrderedMap α)} (h : ∀ m ∈ ms, All P m) :
    All P (mergeAll ms) := by
  have fold : ∀ m, All P m → All P (ms.foldl OrderedMap.merge m) := by
    induction ms with
    | nil => exact fun _ hm => hm
    | cons n ms ih =>
      rw [List.forall_mem_cons] at h
      exact fun m hm => ih h.2 _ (hm.merge h.1)
  exact fold _ all_empty

end Entries

section Writes

theorem setEntry_setEntry (key : String) (a b : α) (entries : List (String × α)) :
    setEntry key b (setEntry key a entries) = setEntry key b entries := by
  induction entries with
  | nil => simp [setEntry]
  | cons entry entries ih =>
    by_cases h : entry.1 = key
    · simp [setEntry, h]
    · simp [setEntry, h, ih]

theorem setEntry_comm {key k : String} (a b : α) {entries : List (String × α)} (h : k ≠ key)
    (hk : key ∈ entries.map Prod.fst) :
    setEntry key a (setEntry k b entries) = setEntry k b (setEntry key a entries) := by
  induction entries with
  | nil => cases hk
  | cons entry entries ih =>
    obtain ⟨k', v⟩ := entry
    by_cases hkey : k' = key
    · have hne : ¬ k' = k := fun e => h (e.symm.trans hkey)
      have hne' : ¬ key = k := fun e => h e.symm
      simp [setEntry, hkey, hne']
    · have hmem : key ∈ entries.map Prod.fst := by
        rw [List.map_cons, List.mem_cons] at hk
        exact hk.resolve_left fun e => hkey e.symm
      by_cases hk' : k' = k
      · simp [setEntry, hk', h]
      · simp [setEntry, hkey, hk', ih hmem]

theorem setEntry_of_lookup {key : String} {a : α} {entries : List (String × α)}
    (h : entries.lookup key = some a) : setEntry key a entries = entries := by
  induction entries with
  | nil => cases h
  | cons entry entries ih =>
    obtain ⟨k, v⟩ := entry
    by_cases hk : k = key
    · subst hk
      obtain rfl : v = a := by simpa using h
      simp [setEntry]
    · have hne : (key == k) = false := beq_eq_false_iff_ne.mpr (Ne.symm hk)
      rw [List.lookup_cons, hne] at h
      simp [setEntry, hk, ih h]

theorem setEntry_of_notMem {key : String} (a : α) {entries : List (String × α)}
    (h : key ∉ entries.map Prod.fst) : setEntry key a entries = entries ++ [(key, a)] := by
  induction entries with
  | nil => rfl
  | cons entry entries ih =>
    rw [List.map_cons, List.mem_cons, not_or] at h
    have hne : ¬ entry.1 = key := fun e => h.1 e.symm
    simp [setEntry, hne, ih h.2]

theorem ext {m n : OrderedMap α} (h : m.entries = n.entries) : m = n := by
  cases m
  cases n
  cases h
  rfl

theorem insert_of_get? (h : m.get? key = some a) : m.insert key a = m := ext (setEntry_of_lookup h)

theorem insert_insert (m : OrderedMap α) (key : String) (a b : α) :
    (m.insert key a).insert key b = m.insert key b := ext (setEntry_setEntry key a b m.entries)

theorem insert_comm {m : OrderedMap α} {key k : String} (a b : α) (h : k ≠ key)
    (hk : key ∈ m.keys) : (m.insert k b).insert key a = (m.insert key a).insert k b :=
  ext (setEntry_comm a b h hk)

/-- The entries that writes to a map leave behind, one after the other. -/
def insertAll (m : OrderedMap α) (entries : List (String × α)) : OrderedMap α :=
  entries.foldl (fun m (key, value) => m.insert key value) m

theorem insertAll_append (m : OrderedMap α) (x y : List (String × α)) :
    m.insertAll (x ++ y) = (m.insertAll x).insertAll y := List.foldl_append

theorem ofList_eq (x : List (String × α)) : ofList x = empty.insertAll x := rfl

theorem entries_insertAll {m : OrderedMap α} {entries : List (String × α)}
    (h : ((m.entries ++ entries).map Prod.fst).Nodup) :
    (m.insertAll entries).entries = m.entries ++ entries := by
  induction entries generalizing m with
  | nil => exact (List.append_nil _).symm
  | cons entry entries ih =>
    have hnew : entry.1 ∉ m.entries.map Prod.fst := fun hm => by
      rw [List.map_append, List.nodup_append] at h
      exact h.2.2 _ hm _ (.head _) rfl
    have hset : (m.insert entry.1 entry.2).entries = m.entries ++ [entry] :=
      setEntry_of_notMem entry.2 hnew
    rw [List.append_cons, ← hset] at h ⊢
    exact ih h

theorem ofList_entries (m : OrderedMap α) : ofList m.entries = m :=
  ext (entries_insertAll (m := empty) m.nodup)

theorem merge_eq (m n : OrderedMap α) : m.merge n = m.insertAll n.entries := rfl

theorem insert_insertAll {m : OrderedMap α} {key : String} (a : α) {entries : List (String × α)}
    (hm : key ∈ m.keys) (h : key ∉ entries.map Prod.fst) :
    (m.insertAll entries).insert key a = (m.insert key a).insertAll entries := by
  induction entries generalizing m with
  | nil => rfl
  | cons entry entries ih =>
    rw [List.map_cons, List.mem_cons, not_or] at h
    have hmem : key ∈ (m.insert entry.1 entry.2).keys := by
      rw [keys_insert]
      split
      · exact hm
      · exact List.mem_append_left _ hm
    have hne : entry.1 ≠ key := fun e => h.1 e.symm
    exact (ih hmem h.2).trans (by rw [insert_comm a entry.2 hne hm]; rfl)

theorem merge_insert (m n : OrderedMap α) (key : String) (a : α) :
    m.merge (n.insert key a) = (m.merge n).insert key a := by
  obtain ⟨entries, nodup⟩ := n
  simp only [merge_eq]
  change m.insertAll (setEntry key a entries) = (m.insertAll entries).insert key a
  induction entries generalizing m with
  | nil => rfl
  | cons entry entries ih =>
    obtain ⟨k, v⟩ := entry
    rw [List.map_cons, List.nodup_cons] at nodup
    by_cases hk : k = key
    · subst hk
      have hmem : k ∈ (m.insert k v).keys := by
        rw [keys_insert]
        split <;> simp_all
      simp only [setEntry, if_true]
      change (m.insert k a).insertAll entries = ((m.insert k v).insertAll entries).insert k a
      rw [insert_insertAll a hmem nodup.1, insert_insert]
    · simp only [setEntry, hk, if_false]
      exact ih (m.insert k v) nodup.2

theorem merge_insertAll (m n : OrderedMap α) (x : List (String × α)) :
    m.merge (n.insertAll x) = (m.merge n).insertAll x := by
  induction x generalizing n with
  | nil => rfl
  | cons entry x ih =>
    change m.merge ((n.insert entry.1 entry.2).insertAll x) =
      ((m.merge n).insert entry.1 entry.2).insertAll x
    rw [ih, merge_insert]

theorem merge_ofList (m : OrderedMap α) (x : List (String × α)) :
    m.merge (ofList x) = m.insertAll x := merge_insertAll m empty x

theorem mergeAll_ofList (xs : List (List (String × α))) :
    mergeAll (xs.map ofList) = ofList xs.flatten := by
  have fold : ∀ m : OrderedMap α, (xs.map ofList).foldl merge m = m.insertAll xs.flatten := by
    induction xs with
    | nil => exact fun _ => rfl
    | cons x xs ih =>
      intro m
      rw [List.map_cons, List.foldl_cons, merge_ofList, ih, List.flatten_cons, insertAll_append]
  exact fold empty

end Writes

section Images

variable {β : Type} {ρ : String → String} {f : α → β}

theorem setEntry_map {entries : List (String × α)}
    (h : ∀ k ∈ entries.map Prod.fst, ρ k = ρ key → k = key) :
    setEntry (ρ key) (f a) (entries.map fun (k, a) => (ρ k, f a)) =
      (setEntry key a entries).map fun (k, a) => (ρ k, f a) := by
  induction entries with
  | nil => rfl
  | cons entry entries ih =>
    obtain ⟨k, v⟩ := entry
    rw [List.map_cons, List.forall_mem_cons] at h
    by_cases hk : k = key
    · simp [setEntry, hk]
    · have hne : ¬ ρ k = ρ key := mt h.1 hk
      simp [setEntry, hk, hne, ih h.2]

theorem lookup_map {entries : List (String × α)}
    (h : ∀ k ∈ entries.map Prod.fst, ρ k = ρ key → k = key) :
    (entries.map fun (k, a) => (ρ k, f a)).lookup (ρ key) = (entries.lookup key).map f := by
  induction entries with
  | nil => rfl
  | cons entry entries ih =>
    obtain ⟨k, v⟩ := entry
    rw [List.map_cons, List.forall_mem_cons] at h
    rw [List.map_cons, List.lookup_cons, List.lookup_cons, ih h.2]
    by_cases hk : key = k
    · simp [hk]
    · have hne : ¬ ρ key = ρ k := fun e => hk (h.1 e.symm).symm
      simp [beq_eq_false_iff_ne.mpr hk, beq_eq_false_iff_ne.mpr hne]

theorem get?_mapValues (g : α → β) (m : OrderedMap α) (k : String) :
    (m.mapValues g).get? k = (m.get? k).map g :=
  lookup_map (f := g) fun k' _ (h : id k' = id k) => h

theorem mapValues_insert (g : α → β) (m : OrderedMap α) (k : String) (a : α) :
    (m.insert k a).mapValues g = (m.mapValues g).insert k (g a) :=
  ext (setEntry_map (f := g) fun k' _ (h : id k' = id k) => h).symm

theorem mapValues_of_all {g : α → α} (h : All (fun _ a => g a = a) m) : m.mapValues g = m := by
  refine ext ((List.map_congr_left fun entry he => ?_).trans (List.map_id _))
  exact Prod.ext rfl (all_iff.mp h entry he)

end Images

end ContextRoles.OrderedMap

namespace ContextRoles.Collection

variable {c : Collection}

theorem mem_roles {r : Role} : r ∈ c.roles ↔ ∃ k, c.entities.get? k = some (.role r) := by
  simp only [roles, List.mem_filterMap, OrderedMap.mem_values]
  constructor
  · rintro ⟨e, ⟨k, hk⟩, he⟩
    cases e with
    | role r' =>
      cases he
      exact ⟨k, hk⟩
    | context x => cases he
  · rintro ⟨k, hk⟩
    exact ⟨.role r, ⟨k, hk⟩, rfl⟩

theorem mem_contexts {x : Context} :
    x ∈ c.contexts ↔ ∃ k, c.entities.get? k = some (.context x) := by
  simp only [contexts, List.mem_filterMap, OrderedMap.mem_values]
  constructor
  · rintro ⟨e, ⟨k, hk⟩, he⟩
    cases e with
    | role r => cases he
    | context x' =>
      cases he
      exact ⟨k, hk⟩
  · rintro ⟨k, hk⟩
    exact ⟨.context x, ⟨k, hk⟩, rfl⟩

theorem get?_of_resolve? {binding key : String} {r : Role}
    (h : c.resolve? binding = some (key, r)) : c.entities.get? key = some (.role r) := by
  unfold Collection.resolve? at h
  split at h
  next r' hr =>
    cases h
    exact hr
  · split at h
    next r' hr =>
      cases h
      exact hr
    · cases h
  · cases h

theorem get?_of_filler? {bound filler : Role} {key : String}
    (h : c.filler? bound = some (key, filler)) : c.entities.get? key = some (.role filler) := by
  obtain ⟨binding, -, h⟩ := Option.bind_eq_some_iff.mp h
  exact get?_of_resolve? h

end ContextRoles.Collection
