import ContextRoles.Proofs.Model.Filling

/-! # What is read has no inconsistencies

A bound role is filled by a role that is not bound, so no chain of bindings is longer than two and none
comes back to where it started. The roles that a context refers to are there.

In a collection that nothing is reported of, a binding leads to a role. Only the outer role of a context
is not checked to be one.
-/

namespace ContextRoles.Collection

open Source

variable {generated : String → Prop} {c : Collection}

theorem missingRoles_eq_nil (h : Formed generated nobody c.entities) : c.missingRoles = [] := by
  rw [missingRoles, List.flatMap_eq_nil_iff]
  intro x hx
  have formed := (h.context hx).2
  rw [if_pos formed.contains, List.nil_append, List.map_eq_nil_iff, List.filter_eq_nil_iff]
  intro id hid
  obtain ⟨-, r, hr, -⟩ := formed.roles.role id hid
  simp [holdsRole, hr, Entity.role?]

theorem unbound_of_next? (h : Formed generated nobody c.entities) {r next : Role}
    (hr : r ∈ c.roles) (hnext : c.next? r = some next) :
    next.binding = none ∧ next.id ≠ r.id := by
  rw [next?_eq_map_filler?] at hnext
  obtain ⟨⟨key, next⟩, hfill, rfl⟩ := Option.map_eq_some_iff.mp hnext
  obtain ⟨b, hb, hres⟩ := Option.bind_eq_some_iff.mp hfill
  have bound := (h.role hr).2
  have hyphen : ¬ Hyphenless r.id := bound.bound_iff.mp (by simp [hb])
  have hyphenless : Hyphenless key := by
    have filler := bound.filler b hb
    unfold resolve? at hres
    split at hres
    · cases hres
      exact filler
    next x hx =>
      have formed : x.outerRole = outerRoleId b := by
        obtain ⟨rfl, inner⟩ := h b _ hx
        exact ContextFormed.outerRole inner
      split at hres
      · cases hres
        exact formed ▸ filler.append (by decide)
      · cases hres
    · cases hres
  obtain ⟨rfl, formed⟩ := h key _ (Collection.get?_of_resolve? hres)
  have hnext : RoleFormed generated nobody c.entities next := formed
  constructor
  · rw [← Option.not_isSome_iff_eq_none]
    exact fun hsome => hnext.bound_iff.mp hsome hyphenless
  · exact fun e => hyphen (e ▸ hyphenless)

theorem follow_eq_none (h : Formed generated nobody c.entities) (finished : List String)
    (fuel : Nat) {r : Role} (hr : r ∈ c.roles) : (c.follow finished fuel [] r).2 = none := by
  cases fuel with
  | zero => rfl
  | succ fuel =>
    simp only [follow, List.contains_nil, Bool.false_eq_true, if_false, List.nil_append]
    split
    · rfl
    · cases hnext : c.next? r with
      | none => rfl
      | some next =>
        obtain ⟨hnone, hne⟩ := unbound_of_next? h hr hnext
        have hend : c.next? next = none := by simp [next?, hnone]
        cases fuel with
        | zero => rfl
        | succ fuel =>
          simp only [follow, hend]
          split
          · rfl
          · simp [hne]

theorem bindingCycles_eq_nil (h : Formed generated nobody c.entities) : c.bindingCycles = [] := by
  have steps : ∀ (roles : List Role) (finished : List String), (∀ r ∈ roles, r ∈ c.roles) →
      (roles.foldl (bindingCycles.step c) (finished, [])).2 = [] := by
    intro roles
    induction roles with
    | nil => exact fun _ _ => rfl
    | cons r roles ih =>
      intro finished hmem
      rw [List.forall_mem_cons] at hmem
      have hstep : bindingCycles.step c (finished, []) r =
          (finished ++ (c.follow finished (c.roles.length + 1) [] r).1, []) := by
        simp [bindingCycles.step, follow_eq_none h finished _ hmem.1]
      rw [List.foldl_cons, hstep]
      exact ih _ hmem.2
  exact steps c.roles [] fun _ => id

theorem errors_eq_nil (h : Formed generated nobody c.entities) : c.validate.errors = [] := by
  simp [validate, missingRoles_eq_nil h, bindingCycles_eq_nil h]

/-- A source that is read has no errors, whatever ids its definitions share. -/
theorem validate_read {ids : Nat → String} {drawn : Nat} {source : String}
    (h : (read ids drawn source).result = .ok c)
    (hf : FreshIds ids drawn (read ids drawn source).drawn) : c.validate.errors = [] :=
  errors_eq_nil (formed_of_read h hf)

theorem validate_read_overwriting :
    (read tally 0 overwriting).result = .ok overwritten ∧
      FreshIds tally 0 (read tally 0 overwriting).drawn ∧ overwritten.validate.errors = [] := by
  have hr := result_eq_ok read_overwriting.1
  have hf : FreshIds tally 0 (read tally 0 overwriting).drawn := by
    rw [read_overwriting.2]
    exact freshIds_tally
  exact ⟨hr, hf, validate_read hr hf⟩

section Completeness

/-- There is no error, and no role that is bound to something outside. -/
structure Unreported (c : Collection) : Prop where
  errors : c.validate.errors = []
  warnings : ∀ role typeName binding,
    Warning.externalBinding role typeName binding ∉ c.validate.warnings

theorem Unreported.contains_binding (h : c.Unreported) {r : Role} (hr : r ∈ c.roles) {b : String}
    (hb : r.binding = some b) : c.entities.contains b = true := by
  refine (Bool.not_eq_false _).mp fun hc => ?_
  refine h.warnings r.id r.typeName b (List.mem_append_left _ (List.mem_filterMap.mpr ⟨r, hr, ?_⟩))
  simp [hb, hc]

theorem Unreported.contains_outerRole (h : c.Unreported) {x : Context} (hx : x ∈ c.contexts) :
    c.entities.contains x.outerRole = true := by
  have none_missing := (List.append_eq_nil_iff.mp h.errors).1
  have hnil := (List.append_eq_nil_iff.mp (List.flatMap_eq_nil_iff.mp none_missing x hx)).1
  refine (Bool.not_eq_false _).mp fun hc => ?_
  simp [hc] at hnil

theorem Unreported.leadsTo (h : c.Unreported)
    (houter : ∀ x ∈ c.contexts, ∀ y, c.entities.get? x.outerRole ≠ some (.context y)) {r : Role}
    (hr : r ∈ c.roles) {b : String} (hb : r.binding = some b) : ∃ key, c.LeadsTo b key := by
  obtain ⟨e, he⟩ := OrderedMap.contains_iff.mp (h.contains_binding hr hb)
  cases e with
  | role f => exact ⟨b, .inl ⟨rfl, f, he⟩⟩
  | context x =>
    have hx : x ∈ c.contexts := mem_contexts.mpr ⟨b, he⟩
    obtain ⟨e', he'⟩ := OrderedMap.contains_iff.mp (h.contains_outerRole hx)
    cases e' with
    | role f => exact ⟨x.outerRole, .inr ⟨x, he, rfl, f, he'⟩⟩
    | context y => exact absurd he' (houter x hx y)

theorem records_of_read {ids : Nat → String} {drawn : Nat} {source : String}
    (h : (read ids drawn source).result = .ok c) {r : Role} (hr : r ∈ c.roles) (key : String) :
    c.Records key r.typeName r.id ↔ c.fillerKey? r = some key := by
  obtain ⟨built, hbuilt, rfl⟩ := exists_fresh_of_read h
  have same := unlinked_linkFilledRoles built
  obtain ⟨k, hk⟩ := mem_roles.mp hr
  obtain ⟨filled, hbare⟩ := exists_role_of_unlinked same hk
  have hmem := mem_roles.mpr ⟨k, hbare⟩
  have unlisted : ¬ built.Records key r.typeName r.id := by
    rintro ⟨filler, hfiller, hlists⟩
    have hempty : { filler with filledRoles := .empty } = filler :=
      Entity.role.inj (hbuilt key _ hfiller).2
    rw [← hempty] at hlists
    exact List.not_mem_nil hlists
  have recorded := records_linkFilledRoles key hmem fun r' hr' hid =>
    eq_of_id_eq hbuilt.keyed hmem hr' hid
  rw [← fillerKey?_of_unlinked same, or_iff_right unlisted] at recorded
  exact recorded

/-- Where validation reports no error and no role that is bound outside, each bound role leads to a role
of the collection, and linking records it on that role and on no other one. What is read lists it there
only. -/
theorem binding_recorded (hkeyed : Keyed c.entities) (hreport : c.Unreported)
    (houter : ∀ x ∈ c.contexts, ∀ y, c.entities.get? x.outerRole ≠ some (.context y)) {r : Role}
    (hr : r ∈ c.roles) {b : String} (hb : r.binding = some b) :
    ∃ key, c.LeadsTo b key ∧
      (∀ k, c.linkFilledRoles.Records k r.typeName r.id ↔ k = key ∨ c.Records k r.typeName r.id) ∧
      ∀ ids drawn source, (read ids drawn source).result = .ok c →
        ∀ k, c.Records k r.typeName r.id ↔ k = key := by
  obtain ⟨key, hkey⟩ := hreport.leadsTo houter hr hb
  have hfiller : c.fillerKey? r = some key := fillerKey?_eq_some.mpr ⟨b, hb, hkey⟩
  refine ⟨key, hkey, fun k => ?_, fun ids drawn source hread k => ?_⟩
  · rw [records_linkFilledRoles _ hr fun r' hr' hid => eq_of_id_eq hkeyed hr hr' hid, hfiller, or_comm,
      Option.some.injEq, eq_comm]
  · rw [records_of_read hread hr, hfiller, Option.some.injEq, eq_comm]

/-- One role is bound to a context and one to the outer role of the same context. -/
def lending : String := "Text :T\n:A :X\n:C :X\n  :r => :A\n  :q => :A_buitenRol\n"

/-- A context that goes by the id of the outer role of another one, to which a role is bound. -/
def shadowing : String := "Text :T\n:A :X\n:A_buitenRol :X\n:C :X\n  :r => :A\n"

def lent : Collection where
  name := "T"
  entities := .ofList [outer "A" (.ofList [(":r", ["-"]), (":q", ["-i"])]), context "A" [],
    bound "-" ":r" "A", bound "-i" ":q" "A_buitenRol", outer "C" .empty, context "C" ["-", "-i"]]
where
  bound (id typeName filler : String) : String × Entity :=
    (id, .role ⟨id, typeName, some filler, "C", .empty, .empty, none⟩)
  outer (id : String) (filled : OrderedMap (List String)) : String × Entity :=
    (outerRoleId id, .role ⟨outerRoleId id, outerRoleType, none, id, .empty, filled, none⟩)
  context (id : String) (roles : List String) : String × Entity :=
    (id, .context ⟨id, ":X", ⟨innerRoleId id, some (outerRoleId id), .empty⟩, outerRoleId id, roles⟩)

def shadowed : Collection where
  name := "T"
  entities := .ofList [lent.context "A_buitenRol" [], lent.context "A" [],
    lent.outer "A_buitenRol" .empty, lent.bound "-" ":r" "A", lent.outer "C" .empty,
    lent.context "C" ["-"]]

theorem read_lending : (read tally 0 lending).result = .ok lent :=
  result_eq_ok (by decide +kernel)

theorem read_shadowing : (read tally 0 shadowing).result = .ok shadowed :=
  result_eq_ok (by decide +kernel)

theorem unreported_lent : lent.Unreported where
  errors := by decide +kernel
  warnings := by
    have h : lent.validate.warnings = [.emptyContext "A"] := by decide +kernel
    simp [h]

theorem unreported_shadowed : shadowed.Unreported where
  errors := by decide +kernel
  warnings := by
    have h : shadowed.validate.warnings = [.emptyContext "A_buitenRol", .emptyContext "A"] := by
      decide +kernel
    simp [h]

theorem binding_recorded_lent :
    Keyed lent.entities ∧ lent.Unreported ∧
    (∀ x ∈ lent.contexts, ∀ y, lent.entities.get? x.outerRole ≠ some (.context y)) ∧
    ⟨"-", ":r", some "A", "C", .empty, .empty, none⟩ ∈ lent.roles ∧
    ∃ key, lent.LeadsTo "A" key ∧
      (∀ k, lent.linkFilledRoles.Records k ":r" "-" ↔ k = key ∨ lent.Records k ":r" "-") ∧
      ∀ ids drawn source, (read ids drawn source).result = .ok lent →
        ∀ k, lent.Records k ":r" "-" ↔ k = key := by
  have hkeyed := keyed_of_read read_lending
  have houter : ∀ x ∈ lent.contexts, ∀ y, lent.entities.get? x.outerRole ≠ some (.context y) := by
    have h : ∀ x ∈ lent.contexts, (lent.entities.get? x.outerRole).bind Entity.context? = none := by
      decide +kernel
    intro x hx y hy
    simpa [hy, Entity.context?] using h x hx
  have hmem : ⟨"-", ":r", some "A", "C", .empty, .empty, none⟩ ∈ lent.roles := by decide +kernel
  exact ⟨hkeyed, unreported_lent, houter, hmem,
    binding_recorded hkeyed unreported_lent houter hmem rfl⟩

/-- Nothing is reported of a role bound to a context whose outer role was replaced by a context, and
nothing records it. -/
theorem not_recorded_shadowed :
    (read tally 0 shadowing).result = .ok shadowed ∧ Keyed shadowed.entities ∧ shadowed.Unreported ∧
    ⟨"-", ":r", some "A", "C", .empty, .empty, none⟩ ∈ shadowed.roles ∧
    ¬ (∃ key, shadowed.LeadsTo "A" key) ∧
    ∀ key, ¬ shadowed.linkFilledRoles.Records key ":r" "-" := by
  have hmem : ⟨"-", ":r", some "A", "C", .empty, .empty, none⟩ ∈ shadowed.roles := by decide +kernel
  have hkey : shadowed.fillerKey? ⟨"-", ":r", some "A", "C", .empty, .empty, none⟩ = none := by
    decide +kernel
  have hlink : shadowed.linkFilledRoles = shadowed := by decide +kernel
  refine ⟨read_shadowing, keyed_of_read read_shadowing, unreported_shadowed, hmem, ?_, ?_⟩
  · rintro ⟨key, h⟩
    exact Option.some_ne_none key ((fillerKey?_eq_some.mpr ⟨"A", rfl, h⟩).symm.trans hkey)
  · intro key h
    rw [hlink] at h
    exact Option.some_ne_none key (((records_of_read read_shadowing hmem key).mp h).symm.trans hkey)

end Completeness

end ContextRoles.Collection
