import ContextRoles.Proofs.Model.Recording
import ContextRoles.Proofs.Source.Keying
import ContextRoles.Validation

/-! # Links are the inverse of bindings

Linking goes through the roles in their order and adds each to what its filler lists. Where nothing is
listed before, a role then lists the roles that are bound to it, each once and in that order. What is
linked is not changed by linking it again.
-/

namespace ContextRoles

open Source (Keyed)

/-- The ids that a role lists under a type. -/
def Role.listed (filler : Role) (typeName : String) : List String :=
  (filler.filledRoles.get? typeName).getD []

theorem addNew_of_mem {ids : List String} {id : String} (h : id ∈ ids) : addNew ids id = ids :=
  if_pos (List.contains_iff_mem.mpr h)

theorem addNew_of_notMem {ids : List String} {id : String} (h : id ∉ ids) :
    addNew ids id = ids ++ [id] := if_neg (mt List.contains_iff_mem.mp h)

theorem Role.listed_addFilled (filler bound : Role) (typeName : String) :
    (filler.addFilled bound).listed typeName =
      if bound.typeName = typeName then addNew (filler.listed typeName) bound.id
      else filler.listed typeName := by
  by_cases h : bound.typeName = typeName
  · subst h
    simp [listed, addFilled]
  · simp [listed, addFilled, OrderedMap.get?_insert_of_ne (Ne.symm h), h]

theorem Role.addFilled_of_lists {filler bound : Role} (h : filler.Lists bound.typeName bound.id) :
    filler.addFilled bound = filler := by
  obtain ⟨ids, hids⟩ : ∃ ids, filler.filledRoles.get? bound.typeName = some ids := by
    cases hf : filler.filledRoles.get? bound.typeName with
    | none => simp [Lists, hf] at h
    | some ids => exact ⟨ids, rfl⟩
  have hmem : bound.id ∈ ids := by rwa [Lists, hids] at h
  have same : filler.filledRoles.insert bound.typeName (addNew ids bound.id) = filler.filledRoles := by
    rw [addNew_of_mem hmem, OrderedMap.insert_of_get? hids]
  rw [addFilled, hids, Option.getD_some, same]

namespace Collection

variable {c : Collection} {key typeName : String}

theorem next?_eq_map_filler? (c : Collection) (r : Role) :
    c.next? r = (c.filler? r).map Prod.snd := by
  unfold next? filler?
  cases r.binding with
  | none => rfl
  | some binding =>
    rw [Option.bind_some, Option.bind_some, resolve?]
    cases c.entities.get? binding with
    | none => rfl
    | some target =>
      cases target with
      | role t => rfl
      | context x =>
        -- the outer role may itself be missing, or another context
        dsimp only
        cases c.entities.get? x.outerRole with
        | none => rfl
        | some outer => cases outer <;> rfl

/-- The ids that the role under a key lists under a type. -/
def listed (c : Collection) (key typeName : String) : List String :=
  match c.entities.get? key with
  | some (.role filler) => filler.listed typeName
  | _ => []

theorem listed_linkRole (c : Collection) (bound : Role) (key typeName : String) :
    (c.linkRole bound).listed key typeName =
      if bound.typeName = typeName ∧ c.fillerKey? bound = some key then
        addNew (c.listed key typeName) bound.id
      else c.listed key typeName := by
  unfold linkRole fillerKey?
  cases hf : c.filler? bound with
  | none => simp
  | some found =>
    obtain ⟨place, filler⟩ := found
    have hplace := get?_of_filler? hf
    by_cases h : place = key
    · subst h
      simp [listed, hplace, Role.listed_addFilled]
    · simp [listed, OrderedMap.get?_insert_of_ne (Ne.symm h), h]

def fills (c : Collection) (key typeName : String) (r : Role) : Bool :=
  r.typeName = typeName ∧ c.fillerKey? r = some key

theorem fills_linkRole (c : Collection) (bound : Role) : (c.linkRole bound).fills = c.fills := by
  funext key typeName r
  simp only [fills, fillerKey?_of_unlinked (unlinked_linkRole c bound)]

theorem listed_foldl_linkRole {rs : List Role} (hids : (rs.map Role.id).Nodup)
    (hnew : ∀ r ∈ rs, r.id ∉ c.listed key typeName) :
    (rs.foldl linkRole c).listed key typeName =
      c.listed key typeName ++ (rs.filter (c.fills key typeName)).map Role.id := by
  induction rs generalizing c with
  | nil => simp
  | cons r rs ih =>
    rw [List.map_cons, List.nodup_cons] at hids
    rw [List.forall_mem_cons] at hnew
    have step := listed_linkRole c r key typeName
    cases hr : c.fills key typeName r with
    | true =>
      rw [if_pos (of_decide_eq_true hr), addNew_of_notMem hnew.1] at step
      rw [List.foldl_cons, ih hids.2, step, fills_linkRole, List.filter_cons_of_pos hr, List.map_cons,
        List.append_assoc, List.singleton_append]
      intro r' hr' hmem
      rw [step, List.mem_append, List.mem_singleton] at hmem
      exact hmem.elim (hnew.2 r' hr') fun hid => hids.1 (List.mem_map.mpr ⟨r', hr', hid⟩)
    | false =>
      rw [if_neg (of_decide_eq_false hr)] at step
      rw [List.foldl_cons, ih hids.2 (step ▸ hnew.2), step, fills_linkRole,
        List.filter_cons_of_neg (Bool.not_eq_true _ ▸ hr)]

theorem ids_sublist_keys (h : Keyed c.entities) : (c.roles.map Role.id).Sublist c.entities.keys := by
  have entries : ∀ entries : List (String × Entity), (∀ entry ∈ entries, entry.1 = entry.2.id) →
      (((entries.map Prod.snd).filterMap Entity.role?).map Role.id).Sublist
        (entries.map Prod.fst) := by
    intro entries
    induction entries with
    | nil => exact fun _ => .slnil
    | cons entry entries ih =>
      intro hentries
      rw [List.forall_mem_cons] at hentries
      obtain ⟨k, r | x⟩ := entry
      · obtain rfl : k = r.id := hentries.1
        exact (ih hentries.2).cons_cons _
      · exact (ih hentries.2).cons _
  exact entries _ (Source.keyed_iff.mp h)

theorem nodup_ids (h : Keyed c.entities) : (c.roles.map Role.id).Nodup :=
  (ids_sublist_keys h).nodup c.entities.nodup

theorem eq_of_id_eq (h : Keyed c.entities) {r r' : Role} (hr : r ∈ c.roles) (hr' : r' ∈ c.roles)
    (hid : r'.id = r.id) : r' = r := by
  obtain ⟨k, hk⟩ := mem_roles.mp hr
  obtain ⟨k', hk'⟩ := mem_roles.mp hr'
  have hkeys : k' = k := (h k' _ hk').symm.trans (hid.trans (h k _ hk))
  rw [hkeys, hk] at hk'
  exact (Entity.role.inj (Option.some.inj hk')).symm

theorem next?_eq_some (h : Keyed c.entities) {r t : Role} (ht : t ∈ c.roles) :
    c.next? r = some t ↔ c.fillerKey? r = some t.id := by
  rw [next?_eq_map_filler?, fillerKey?]
  cases hf : c.filler? r with
  | none => simp
  | some found =>
    obtain ⟨place, filler⟩ := found
    have hplace := get?_of_filler? hf
    have hid : filler.id = place := h place _ hplace
    simp only [Option.map_some, Option.some.injEq]
    constructor
    · rintro rfl
      exact hid.symm
    · exact fun he => eq_of_id_eq h ht (mem_roles.mpr ⟨place, hplace⟩) (hid.trans he)

section Linked

theorem exists_role_of_linked {r : Role} (hr : r ∈ c.linkFilledRoles.roles) :
    ∃ filled, { r with filledRoles := filled } ∈ c.roles := by
  obtain ⟨k, hk⟩ := mem_roles.mp hr
  obtain ⟨filled, hbare⟩ := exists_role_of_unlinked (unlinked_linkFilledRoles c) hk
  exact ⟨filled, mem_roles.mpr ⟨k, hbare⟩⟩

theorem fillerKey?_linked (c : Collection) (r : Role) :
    c.linkFilledRoles.fillerKey? r = c.fillerKey? r :=
  fillerKey?_of_unlinked (unlinked_linkFilledRoles c) r

theorem ids_linkFilledRoles (c : Collection) :
    c.linkFilledRoles.roles.map Role.id = c.roles.map Role.id := by
  have ids : ∀ c : Collection, c.roles.map Role.id =
      (c.entities.mapValues Entity.unlinked).values.filterMap fun e => e.role?.map Role.id := by
    intro c
    simp only [roles, OrderedMap.values, OrderedMap.mapValues, List.map_filterMap, List.filterMap_map,
      List.map_map]
    refine congrArg (List.filterMap · c.entities.entries) (funext fun entry => ?_)
    cases h : entry.2 <;> simp [h, Entity.unlinked, Entity.role?]
  rw [ids, ids, unlinked_linkFilledRoles]

theorem listed_linkFilledRoles (h : Keyed c.entities) (hbare : ∀ r ∈ c.roles, r.filledRoles = .empty)
    {t : Role} (ht : t ∈ c.linkFilledRoles.roles) (typeName : String) :
    t.listed typeName = (c.roles.filter (c.fills t.id typeName)).map Role.id := by
  obtain ⟨k, hk⟩ := mem_roles.mp ht
  obtain rfl : t.id = k := h.linkFilledRoles k _ hk
  have hlisted : c.linkFilledRoles.listed t.id typeName = t.listed typeName := by
    simp only [listed, hk]
  have hnothing : c.listed t.id typeName = [] := by
    unfold listed
    split
    next filler hfiller =>
      rw [Role.listed, hbare filler (mem_roles.mpr ⟨_, hfiller⟩)]
      rfl
    · rfl
  rw [← hlisted, linkFilledRoles, listed_foldl_linkRole (nodup_ids h) (by simp [hnothing]), hnothing,
    List.nil_append]

theorem lists_linkFilledRoles (h : Keyed c.entities)
    (hbare : ∀ r ∈ c.roles, r.filledRoles = .empty) {r t : Role} (hr : r ∈ c.linkFilledRoles.roles)
    (ht : t ∈ c.linkFilledRoles.roles) (typeName : String) :
    t.Lists typeName r.id ↔ r.typeName = typeName ∧ c.linkFilledRoles.next? r = some t := by
  obtain ⟨filled, hmem⟩ := exists_role_of_linked hr
  have hfills : ∀ r' : Role, c.fills t.id typeName r' = true ↔
      r'.typeName = typeName ∧ c.fillerKey? r' = some t.id := fun r' => decide_eq_true_iff
  rw [next?_eq_some h.linkFilledRoles ht, fillerKey?_linked]
  show r.id ∈ t.listed typeName ↔ _
  rw [listed_linkFilledRoles h hbare ht, List.mem_map]
  constructor
  · rintro ⟨r', hr', hid⟩
    obtain ⟨hr', hf⟩ := List.mem_filter.mp hr'
    rw [hfills, eq_of_id_eq h hmem hr' hid] at hf
    exact hf
  · exact fun hf => ⟨_, List.mem_filter.mpr ⟨hmem, (hfills _).mpr hf⟩, rfl⟩

theorem foldl_linkRole_of_fixed {rs : List Role} (h : ∀ r ∈ rs, c.linkRole r = c) :
    rs.foldl linkRole c = c := by
  induction rs with
  | nil => rfl
  | cons r rs ih =>
    rw [List.forall_mem_cons] at h
    rw [List.foldl_cons, h.1, ih h.2]

theorem linkRole_of_records {r : Role}
    (h : ∀ key, c.fillerKey? r = some key → c.Records key r.typeName r.id) : c.linkRole r = c := by
  unfold linkRole
  cases hf : c.filler? r with
  | none => rfl
  | some found =>
    obtain ⟨key, filler⟩ := found
    have hkey := get?_of_filler? hf
    obtain ⟨filler', hkey', hlists⟩ := h key (by simp [fillerKey?, hf])
    obtain rfl : filler = filler' := Entity.role.inj (Option.some.inj (hkey.symm.trans hkey'))
    simp only [Role.addFilled_of_lists hlists, OrderedMap.insert_of_get? hkey]

theorem linkFilledRoles_linkFilledRoles (c : Collection) :
    c.linkFilledRoles.linkFilledRoles = c.linkFilledRoles := by
  refine foldl_linkRole_of_fixed fun r hr => linkRole_of_records fun key hkey => ?_
  obtain ⟨filled, hmem⟩ := exists_role_of_linked hr
  rw [fillerKey?_linked] at hkey
  exact (records_foldl_linkRole _ c).mpr (.inr ⟨_, hmem, ⟨rfl, rfl⟩, hkey⟩)

/-- Where nothing is listed before, linking makes a role list another one under a type if the other
one has this type and is bound to it. Each list keeps to the order of the collection and has no id
twice. But for the lists everything stays, and linking again changes nothing in any collection. -/
theorem linkFilledRoles_inverse (c : Collection) :
    (Keyed c.entities → (∀ r ∈ c.roles, r.filledRoles = .empty) →
      (∀ t ∈ c.linkFilledRoles.roles, ∀ typeName,
        (∀ r ∈ c.linkFilledRoles.roles, t.Lists typeName r.id ↔
          r.typeName = typeName ∧ c.linkFilledRoles.next? r = some t) ∧
        (t.listed typeName).Sublist (c.linkFilledRoles.roles.map Role.id) ∧
        (t.listed typeName).Nodup) ∧
      c.linkFilledRoles.name = c.name ∧
      c.linkFilledRoles.entities.mapValues Entity.unlinked = c.entities) ∧
    c.linkFilledRoles.linkFilledRoles = c.linkFilledRoles := by
  refine ⟨fun h hbare => ⟨fun t ht typeName =>
    ⟨fun r hr => lists_linkFilledRoles h hbare hr ht typeName, ?_⟩, name_linkFilledRoles c, ?_⟩,
    linkFilledRoles_linkFilledRoles c⟩
  · have hsublist : (t.listed typeName).Sublist (c.linkFilledRoles.roles.map Role.id) := by
      rw [listed_linkFilledRoles h hbare ht, ids_linkFilledRoles]
      exact List.filter_sublist.map _
    exact ⟨hsublist, hsublist.nodup (nodup_ids h.linkFilledRoles)⟩
  · rw [unlinked_linkFilledRoles]
    refine OrderedMap.mapValues_of_all fun k e he => ?_
    cases e with
    | context x => rfl
    | role r => rw [Entity.unlinked, ← hbare r (mem_roles.mpr ⟨k, he⟩)]

/-- A context and its outer role are filled under two types, and one role fills itself. -/
def shared : Collection where
  name := "T"
  entities := .ofList [bound "q" ":q" (some "o"),
    ("A", .context ⟨"A", ":X", ⟨"i", some "o", .empty⟩, "o", []⟩),
    bound "r" ":r" (some "A"), bound "o" ":o" none, bound "s" ":s" (some "s"),
    bound "t" ":r" (some "o")]
where
  bound (id typeName : String) (binding : Option String) : String × Entity :=
    (id, .role ⟨id, typeName, binding, "A", .empty, .empty, none⟩)

def filledOuter : Role :=
  ⟨"o", ":o", none, "A", .empty, .ofList [(":q", ["q"]), (":r", ["r", "t"])], none⟩

def boundRole : Role := ⟨"t", ":r", some "o", "A", .empty, .empty, none⟩

theorem linkFilledRoles_inverse_shared :
    Keyed shared.entities ∧ (∀ r ∈ shared.roles, r.filledRoles = .empty) ∧
    filledOuter ∈ shared.linkFilledRoles.roles ∧ boundRole ∈ shared.linkFilledRoles.roles ∧
    (filledOuter.Lists ":r" "t" ↔
      ":r" = ":r" ∧ shared.linkFilledRoles.next? boundRole = some filledOuter) ∧
    filledOuter.listed ":r" = ["r", "t"] ∧ (filledOuter.listed ":r").Nodup ∧
    shared.linkFilledRoles.entities.mapValues Entity.unlinked = shared.entities ∧
    shared.linkFilledRoles.linkFilledRoles = shared.linkFilledRoles := by
  have hkeyed : Keyed shared.entities := Source.keyed_iff.mpr (by decide +kernel)
  have hbare : ∀ r ∈ shared.roles, r.filledRoles = .empty := by decide +kernel
  have ht : filledOuter ∈ shared.linkFilledRoles.roles := by decide +kernel
  have hr : boundRole ∈ shared.linkFilledRoles.roles := by decide +kernel
  obtain ⟨linked, again⟩ := linkFilledRoles_inverse shared
  obtain ⟨lists, -, kept⟩ := linked hkeyed hbare
  obtain ⟨exactly, -, nodup⟩ := lists filledOuter ht ":r"
  exact ⟨hkeyed, hbare, ht, hr, exactly boundRole hr, by decide +kernel, nodup, kept, again⟩

end Linked

end Collection

end ContextRoles
