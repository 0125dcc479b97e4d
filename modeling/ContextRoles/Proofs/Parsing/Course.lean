import ContextRoles.Proofs.Parsing.Reading

/-! # The course of a run

No run moves the cursor back, also where words are read whatever their case, which may move it beyond the
end of the text. On its way the reference stays in its column, and its line changes only to one that the
cursor comes by.
-/

namespace ContextRoles.Parsing

namespace State

/-- The cursor of `t` is that of `s` moved on, maybe beyond the end of the text. Where nothing is left it
stays. -/
structure Onward (s t : State) : Prop where
  moved : ∃ n, (n ≠ 0 → s.rest ≠ []) ∧ t.rest = s.rest.drop n ∧ t.offset = s.offset + n ∧
    t.position = s.position.advanceAll (s.rest.take n)
  size_eq : t.size = s.size

namespace Onward

variable {s t u : State}

theorem refl (s : State) : s.Onward s := ⟨⟨0, by simp, rfl, rfl, rfl⟩, rfl⟩

theorem trans (h : s.Onward t) (h' : t.Onward u) : s.Onward u := by
  obtain ⟨⟨n, hn, hrest, hoffset, hposition⟩, hsize⟩ := h
  obtain ⟨⟨m, hm, hrest', hoffset', hposition'⟩, hsize'⟩ := h'
  refine ⟨⟨n + m, fun hne => ?_, ?_, ?_, ?_⟩, hsize'.trans hsize⟩
  · by_cases h0 : n = 0
    · have hm := hm (by omega)
      rwa [hrest, h0, List.drop_zero] at hm
    · exact hn h0
  · rw [hrest', hrest, List.drop_drop]
  · omega
  · rw [hposition', hposition, hrest, List.take_add, Position.advanceAll_append]

theorem advance {n : Nat} (hn : n ≠ 0 → s.rest ≠ []) : s.Onward (s.advance n) :=
  ⟨⟨n, hn, rfl, rfl, rfl⟩, rfl⟩

theorem offset_le (h : s.Onward t) : s.offset ≤ t.offset := by
  obtain ⟨n, -, -, hoffset, -⟩ := h.moved
  omega

theorem placed (h : s.Onward t) (hs : s.Placed) : t.Placed := by
  obtain ⟨n, -, hrest, hoffset, -⟩ := h.moved
  obtain ⟨source, hsize, hsource⟩ := hs
  exact ⟨source, h.size_eq.trans hsize, by rw [hrest, hsource, List.drop_drop, hoffset]⟩

theorem remaining_lt_iff (h : s.Onward t) (hs : s.Placed) :
    t.remaining < s.remaining ↔ t.offset ≠ s.offset := by
  obtain ⟨n, hn, -, hoffset, -⟩ := h.moved
  obtain ⟨source, hsize, hsource⟩ := hs
  simp only [remaining, h.size_eq, hoffset]
  constructor
  · omega
  · intro hne
    have hlt : s.offset < source.length := by
      have hrest := hn (by omega)
      rwa [hsource, ne_eq, List.drop_eq_nil_iff, Nat.not_le] at hrest
    omega

end Onward

/-- The cursor was moved on, and the reference is as it was, but for its line, which may be that of a
position that the cursor came by. -/
structure Passes (s t : State) : Prop extends s.Onward t where
  column_eq : t.reference.column = s.reference.column
  line_eq : t.reference.line = s.reference.line ∨
    ∃ n, s.offset + n ≤ t.offset ∧ t.reference.line = (s.advance n).position.line

namespace Passes

variable {s t u : State}

theorem trans (h : s.Passes t) (h' : t.Passes u) : s.Passes u := by
  refine ⟨h.toOnward.trans h'.toOnward, h'.column_eq.trans h.column_eq, ?_⟩
  have hle := h'.toOnward.offset_le
  rcases h'.line_eq with hline | ⟨m, hm, hline⟩
  · rw [hline]
    exact h.line_eq.imp_right fun ⟨n, hn, hline⟩ => ⟨n, by omega, hline⟩
  · -- What the second part of the run came by, the whole run came by further on.
    obtain ⟨n, -, hrest, hoffset, hposition⟩ := h.toOnward.moved
    refine .inr ⟨n + m, by omega, ?_⟩
    rw [hline]
    simp only [State.advance, hrest, hposition, List.take_add, Position.advanceAll_append]

end Passes

end State

namespace Parser

open State

theorem threads_onward : Threads Onward where
  refl := .refl
  trans := .trans
  of_checkpoint h := ⟨h.moved, h.size_eq⟩
  withConsumed h _ := ⟨h.moved, h.size_eq⟩
  rewindFrom h _ := ⟨h.moved, h.size_eq⟩
  restore h := ⟨h.moved, h.size_eq⟩
  enterLine _ := ⟨⟨0, by simp, rfl, rfl, rfl⟩, rfl⟩
  advance s n hn := .advance fun hne hnil => hne (by simpa [hnil] using hn)

theorem threads_passes : Threads Passes where
  refl s := ⟨.refl s, rfl, .inl rfl⟩
  trans := .trans
  of_checkpoint h := ⟨threads_onward.of_checkpoint h.toOnward, h.column_eq, h.line_eq⟩
  withConsumed h b := ⟨threads_onward.withConsumed h.toOnward b, h.column_eq, h.line_eq⟩
  rewindFrom h h' := ⟨threads_onward.rewindFrom h.toOnward h'.toOnward, h.column_eq, h.line_eq⟩
  restore h := ⟨threads_onward.restore h.toOnward, rfl, .inl rfl⟩
  enterLine s := ⟨threads_onward.enterLine s, rfl, .inr ⟨0, Nat.le_refl _, rfl⟩⟩
  advance s n hn := ⟨threads_onward.advance s n hn, rfl, .inl rfl⟩

theorem reference_withPosition {α : Type} (p : Parser α) (s : State) :
    (withPosition p s).EndsIn fun t => t.reference = s.reference := by
  apply Outcome.EndsIn.mapState
  cases p (s.withReference s.position) <;> trivial

end Parser

end ContextRoles.Parsing
