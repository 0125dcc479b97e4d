import ContextRoles.Lexeme.Word

/-! # Looking up reserved names

The binary search splits a sorted table into the names before a key and the others, so a name is found
exactly when it stands in the table. The order of the reserved names and repetitions among them do not
matter.
-/

namespace ContextRoles.Lexeme

variable {table : Array String} {key : String} {low high n : Nat}

def Ascends (table : Array String) : Prop :=
  ∀ i j, i ≤ j → j < table.size → table.getD i "" ≤ table.getD j ""

/-- The names before an index are less than a key, and those from there on are not. -/
structure Splits (table : Array String) (key : String) (low high : Nat) : Prop where
  below : ∀ i < low, table.getD i "" < key
  above : ∀ i, high ≤ i → i < table.size → key ≤ table.getD i ""

theorem splits_lowerBound (ha : Ascends table) (hle : low ≤ high) (hsize : high ≤ table.size)
    (h : Splits table key low high) :
    Splits table key (lowerBound table key low high) (lowerBound table key low high) := by
  induction low, high using lowerBound.induct table key with
  | case1 low high hlt middle hkey ih =>
    rw [lowerBound, if_pos hlt, if_pos hkey]
    refine ih (by omega) hsize ⟨fun i hi => ?_, h.above⟩
    exact Std.lt_of_le_of_lt (ha i middle (by omega) (by omega)) hkey
  | case2 low high hlt middle hkey ih =>
    rw [lowerBound, if_pos hlt, if_neg hkey]
    refine ih (by omega) (by omega) ⟨h.below, fun i hi hin => ?_⟩
    exact String.le_trans (String.not_lt.mp hkey) (ha middle i hi hin)
  | case3 low high hnot =>
    rw [lowerBound, if_neg hnot]
    obtain rfl : low = high := by omega
    exact h

theorem getD_eq_getElem {i : Nat} (hi : i < table.size) : table.getD i "" = table[i] := by
  simp [Array.getD, hi]

theorem inSorted_iff (ha : Ascends table) : inSorted table key = true ↔ key ∈ table := by
  have h : Splits table key (lowerBound table key 0 table.size) (lowerBound table key 0 table.size) :=
    splits_lowerBound ha (Nat.zero_le _) (Nat.le_refl _) ⟨by omega, by omega⟩
  rw [inSorted, beq_iff_eq]
  generalize lowerBound table key 0 table.size = m at h
  refine ⟨Array.mem_of_getElem?, fun hkey => ?_⟩
  obtain ⟨i, hi, hget⟩ := Array.mem_iff_getElem.mp hkey
  rw [← getD_eq_getElem hi] at hget
  have hmi : m ≤ i := Nat.le_of_not_lt fun hlt => String.lt_irrefl key (hget ▸ h.below i hlt)
  have hm : m < table.size := by omega
  have hle : table.getD m "" ≤ key := hget ▸ ha m i hmi hi
  have heq : table.getD m "" = key := String.le_antisymm hle (h.above m (Nat.le_refl m) hm)
  rw [Array.getElem?_eq_getElem hm, ← getD_eq_getElem hm, heq]

namespace Language

variable (lang : Language)

theorem ascends_reservedTable : Ascends lang.reservedTable := by
  have sorted : ((lang.reservedNames.map lang.key).mergeSort fun a b => decide (a ≤ b)).Pairwise
      fun a b => decide (a ≤ b) = true :=
    List.pairwise_mergeSort (by simpa using fun a b c => String.le_trans)
      (by simpa using String.le_total) _
  intro i j hij hj
  rw [getD_eq_getElem hj, getD_eq_getElem (Nat.lt_of_le_of_lt hij hj)]
  rcases Nat.eq_or_lt_of_le hij with rfl | hlt
  · exact String.le_refl _
  · simpa [reservedTable] using List.pairwise_iff_getElem.mp sorted i j _ _ hlt

theorem isReservedName_iff (name : String) :
    lang.isReservedName name = true ↔ lang.key name ∈ lang.reservedNames.map lang.key := by
  rw [isReservedName, inSorted_iff lang.ascends_reservedTable, reservedTable, List.mem_toArray,
    List.mem_mergeSort]

end Language

end ContextRoles.Lexeme
