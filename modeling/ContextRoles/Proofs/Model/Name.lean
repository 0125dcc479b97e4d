import ContextRoles.Model.Name

/-! # Local names

A name without its domain or namespace is what stands behind the mark that ends it, as long as the marks
of names do not stand in the local name itself.
-/

namespace ContextRoles

variable {c : Char} {v w : List Char}

theorem afterLast_append (h : c ∉ w) : afterLast c (v ++ c :: w) = w := by
  have hstop : ∀ d ∈ w.reverse, (d != c) = true := by
    intro d hd
    rw [bne_iff_ne]
    rintro rfl
    exact h (List.mem_reverse.mp hd)
  have hsplit : (v ++ c :: w).reverse = w.reverse ++ c :: v.reverse := by simp
  rw [afterLast, hsplit, List.takeWhile_append_of_pos hstop]
  simp

theorem afterFirst_append (h : c ∉ v) : afterFirst c (v ++ c :: w) = w := by
  have hstop : ∀ d ∈ v, (d != c) = true := by
    intro d hd
    rw [bne_iff_ne]
    rintro rfl
    exact h hd
  rw [afterFirst, if_pos (by simp), List.dropWhile_append_of_pos hstop]
  simp

theorem afterFirst_of_notMem (h : c ∉ w) : afterFirst c w = w := by
  rw [afterFirst, if_neg (by simpa using h)]

theorem localChars_hash (h : '#' ∉ w) : localChars (v ++ '#' :: w) = w := by
  rw [localChars, if_pos (by simp), afterLast_append h]

theorem localChars_colon (hv : '#' ∉ v) (hv' : ':' ∉ v) (hw : '#' ∉ w) (hw' : '$' ∉ w) :
    localChars (v ++ ':' :: w) = w := by
  rw [localChars, if_neg (by simp [hv, hw]), afterFirst_append hv']
  cases w with
  | nil => rfl
  | cons c w =>
    rw [List.mem_cons, not_or] at hw'
    split
    next h => exact absurd (List.cons.inj h).1.symm hw'.1
    · rfl

theorem localChars_dollar (h : '#' ∉ w) (h' : ':' ∉ w) : localChars ('$' :: w) = w := by
  rw [localChars, if_neg (by simp [h]), afterFirst_of_notMem (by simp [h'])]
  rfl

end ContextRoles
