import ContextRoles.Proofs.Workspace.Compile
import ContextRoles.Proofs.Workspace.Key
import Mathlib.Data.List.Basic
import Mathlib.Data.List.Nodup

/-! # No found source is skipped

A source that is found below a root has a key. Its key is spelled from its names, so two sources have the
same one only where a backslash in a name stands for a slash, or where a source that has no name but the
suffix lies beside one with the suffix twice. All others are compiled to an entry and an artifact each.
-/

namespace ContextRoles

namespace Files

structure IsFileName (name : String) : Prop where
  slash : '/' ∉ name.toList
  null : '\x00' ∉ name.toList
  empty : name ≠ ""
  dot : name ≠ "."
  dots : name ≠ ".."

instance (name : String) : Decidable (IsFileName name) :=
  decidable_of_iff (('/' ∉ name.toList ∧ '\x00' ∉ name.toList) ∧ name ≠ "" ∧ name ≠ "." ∧ name ≠ "..")
    ⟨fun ⟨⟨h, h'⟩, h₁, h₂, h₃⟩ => ⟨h, h', h₁, h₂, h₃⟩,
      fun h => ⟨⟨h.slash, h.null⟩, h.empty, h.dot, h.dots⟩⟩

/-- Everything in the tree has a name that a directory can have. -/
def FileTree.Named (t : FileTree) : Prop := ∀ entry ∈ t.entries, ∀ name ∈ entry.1, IsFileName name

instance (t : FileTree) : Decidable t.Named :=
  inferInstanceAs (Decidable (∀ entry ∈ t.entries, ∀ name ∈ entry.1, IsFileName name))

end Files

namespace Workspace

open Files

variable {ids : Nat → String} {t : FileTree} {s : Session} {root build f g : Path}
  {exclude files : List Path} {rest : List String} {name name' key key' : String}
  {working : Location} {m : OrderedMap Collection}

section Names

theorem exists_of_isSourceName (h : isSourceName name = true) : ∃ stem, name = stem ++ sourceSuffix := by
  obtain ⟨stem, hstem⟩ := List.isSuffixOf_iff_suffix.mp h
  exact ⟨String.ofList stem, String.ext (by rw [String.toList_append, String.toList_ofList, hstem])⟩

theorem stem_sourceSuffix : Path.stem sourceSuffix = sourceSuffix := by decide

theorem stem_cases (h : isSourceName name = true) (h' : isSourceName name' = true)
    (hstem : Path.stem name = Path.stem name') :
    name = name' ∨ name = sourceSuffix ∧ name' = sourceSuffix ++ sourceSuffix ∨
      name' = sourceSuffix ∧ name = sourceSuffix ++ sourceSuffix := by
  obtain ⟨x, rfl⟩ := exists_of_isSourceName h
  obtain ⟨y, rfl⟩ := exists_of_isSourceName h'
  by_cases hx : x = ""
  · by_cases hy : y = ""
    · exact .inl (by rw [hx, hy])
    · rw [stem_append_suffix hy, hx, String.empty_append, stem_sourceSuffix] at hstem
      exact .inr (.inl ⟨by rw [hx, String.empty_append], by rw [← hstem]⟩)
  · by_cases hy : y = ""
    · rw [stem_append_suffix hx, hy, String.empty_append, stem_sourceSuffix] at hstem
      exact .inr (.inr ⟨by rw [hy, String.empty_append], by rw [hstem]⟩)
    · rw [stem_append_suffix hx, stem_append_suffix hy] at hstem
      exact .inl (by rw [hstem])

end Names

section Found

theorem foldl_stepInto (h : ∀ name ∈ rest, name ≠ "..") (place : Location) :
    rest.foldl FileTree.stepInto place = place ++ rest := by
  induction rest generalizing place with
  | nil => exact (List.append_nil place).symm
  | cons name rest ih =>
    rw [List.forall_mem_cons] at h
    rw [List.foldl_cons, ih h.2, FileTree.stepInto, if_neg h.1, List.append_assoc,
      List.singleton_append]

theorem resolve_append (h : ∀ name ∈ rest, name ≠ "..") (p : Path) :
    Path.resolve working ⟨p.anchor, p.parts ++ rest⟩ = p.resolve working ++ rest := by
  rw [Path.resolve, List.foldl_append]
  exact foldl_stepInto h _

/-- The path to a place, if a source is found there that is not excluded. -/
def found? (t : FileTree) (root : Path) (exclude : List Path) (place : Location) : Option Path :=
  let path := pathBelow root (root.resolve t.working) place
  let skipped := (exclude.map (Path.resolve t.working)).any fun excludedPlace =>
    Path.isBelow excludedPlace (path.resolve t.working)
  if isSourceName (place.getLast?.getD "") &&
      isListed t root (place.drop (root.resolve t.working).length) && !skipped then some path
  else none

theorem of_found? {place : Location} (h : found? t root exclude place = some f) :
    f = ⟨root.anchor, root.parts ++ place.drop (root.resolve t.working).length⟩ ∧
      isSourceName (place.getLast?.getD "") = true := by
  unfold found? at h
  dsimp only at h
  split at h
  next hname =>
    rw [Bool.and_eq_true, Bool.and_eq_true] at hname
    exact ⟨(Option.some.inj h).symm, hname.1.1⟩
  · cases h

/-- The paths to all sources that are found below the root and not excluded. -/
def sourcesBelow (t : FileTree) (root : Path) (exclude : List Path) : List Path :=
  ((t.below (root.resolve t.working)).map Prod.fst).filterMap (found? t root exclude)

theorem locate_of_isDirectory? (h : t.isDirectory? root = .ok true) :
    t.locate root = .ok (root.resolve t.working) := by
  cases hl : t.locate root with
  | ok directory => rw [FileTree.locate_eq hl]
  | error e =>
    rw [FileTree.isDirectory?, FileTree.status, hl] at h
    rcases e with ⟨_ | _ | _ | _ | _, _⟩ | _ | _ <;> cases h

theorem findSources_of_isDirectory? (hexclude : exclude.any Path.hasNull = false)
    (h : t.isDirectory? root = .ok true) (hdeep : tooDeep? t root (root.resolve t.working) = none) :
    findSources t root exclude =
      .ok ((sourcesBelow t root exclude).mergeSort fun p q => isOrdered p.parts q.parts) := by
  rw [sourcesBelow, List.filterMap_map]
  simp only [findSources, hexclude, Bool.false_eq_true, if_false, h, locate_of_isDirectory? h, hdeep]
  rfl

theorem findSources_perm (h : findSources t root exclude = .ok files) :
    files = [] ∨ root.hasNull = false ∧ files.Perm (sourcesBelow t root exclude) := by
  cases hexclude : exclude.any Path.hasNull with
  | true => simp [findSources, hexclude] at h
  | false =>
    cases hd : t.isDirectory? root with
    | error e => simp [findSources, hexclude, hd] at h
    | ok isDirectory =>
      cases isDirectory with
      | false =>
        left
        simpa [findSources, hexclude, hd] using h.symm
      | true =>
        have hnull : root.hasNull = false :=
          FileTree.hasNull_of_objection? (FileTree.locate_eq_ok.mp (locate_of_isDirectory? hd)).1
        have hdeep : tooDeep? t root (root.resolve t.working) = none := by
          cases hdeep : tooDeep? t root (root.resolve t.working) with
          | none => rfl
          | some path => simp [findSources, hexclude, hd, locate_of_isDirectory? hd, hdeep] at h
        rw [findSources_of_isDirectory? hexclude hd hdeep, Except.ok.injEq] at h
        exact .inr ⟨hnull, h ▸ List.mergeSort_perm _ _⟩

theorem mem_below {directory place : Location} (h : place ∈ (t.below directory).map Prod.fst) :
    ∃ rest, place = directory ++ rest ∧ rest ≠ [] ∧ ∃ entry, (place, entry) ∈ t.entries := by
  obtain ⟨⟨_, entry⟩, hmem, rfl⟩ := List.mem_map.mp h
  obtain ⟨hmem, hbelow⟩ := List.mem_filter.mp hmem
  simp only [Bool.and_eq_true, decide_eq_true_eq, Path.isBelow, List.isPrefixOf_iff_prefix] at hbelow
  obtain ⟨⟨rest, rfl⟩, hne⟩ := hbelow
  refine ⟨rest, rfl, ?_, entry, hmem⟩
  rintro rfl
  exact hne (List.append_nil directory)

/-- A source that is found lies below the root, under the name of a source. -/
structure Found (t : FileTree) (root f : Path) (rest : List String) : Prop where
  null : root.hasNull = false
  path : f = ⟨root.anchor, root.parts ++ rest⟩
  ne_nil : rest ≠ []
  source : isSourceName (rest.getLast?.getD "") = true
  names : ∀ name ∈ rest, IsFileName name

theorem exists_found (hnamed : t.Named) (h : findSources t root exclude = .ok files) (hf : f ∈ files) :
    ∃ rest, Found t root f rest := by
  rcases findSources_perm h with rfl | ⟨hnull, hperm⟩
  · cases hf
  · obtain ⟨place, hplace, hfound⟩ := List.mem_filterMap.mp (hperm.mem_iff.mp hf)
    obtain ⟨rest, rfl, hne, entry, hentry⟩ := mem_below hplace
    obtain ⟨hpath, hname⟩ := of_found? hfound
    rw [List.drop_left] at hpath
    rw [List.getLast?_append_of_ne_nil _ hne] at hname
    exact ⟨rest, hnull, hpath, hne, hname, fun name hmem =>
      hnamed _ hentry name (List.mem_append_right _ hmem)⟩

theorem nodup_findSources (h : findSources t root exclude = .ok files) : files.Nodup := by
  rcases findSources_perm h with rfl | ⟨-, hperm⟩
  · exact List.nodup_nil
  · have hplaces : ((t.below (root.resolve t.working)).map Prod.fst).Nodup := t.nodup_filter_entries _
    rw [hperm.nodup_iff, List.Nodup, sourcesBelow, List.pairwise_filterMap]
    refine hplaces.imp_of_mem fun {place place'} hmem hmem' hne path hpath path' hpath' => ?_
    rintro rfl
    obtain ⟨rest, rfl, -⟩ := mem_below hmem
    obtain ⟨rest', rfl, -⟩ := mem_below hmem'
    have hparts := (of_found? hpath).1.symm.trans (of_found? hpath').1
    simp only [List.drop_left, Files.Path.mk.injEq, List.append_cancel_left_eq, true_and] at hparts
    exact hne (by rw [hparts])

namespace Found

theorem resolve_eq (h : Found t root f rest) (working : Location) :
    f.resolve working = root.resolve working ++ rest := by
  rw [h.path]
  exact resolve_append (fun name hname => (h.names name hname).dots) root

theorem exists_sourceKey (h : Found t root f rest) (working : Location) :
    ∃ key, sourceKey working f root = .ok key := by
  have hparts : f.parts = root.parts ++ rest := by rw [h.path]
  have hnull : f.hasNull = false := by
    have hrest : (rest.any fun name => name.toList.contains '\x00') = false :=
      List.any_eq_false.mpr fun name hname => by simpa using (h.names name hname).null
    rw [Path.hasNull, hparts, List.any_append, hrest, Bool.or_false]
    exact h.null
  have hrelative : (Path.ofLocation (f.resolve working)).relativeTo?
      (Path.ofLocation (root.resolve working)) = some ⟨.working, rest⟩ := by
    rw [h.resolve_eq]
    simp [Path.relativeTo?, Path.ofLocation]
  have hstem : Path.withoutSuffix? ⟨.working, rest⟩ =
      some ⟨.working, rest.dropLast ++ [Path.stem (rest.getLast h.ne_nil)]⟩ := by
    rw [Path.withoutSuffix?, List.getLast?_eq_some_getLast h.ne_nil]
    rfl
  simp only [sourceKey, hnull, h.null, Bool.or_self, Bool.false_eq_true, if_false, hrelative, hstem]
  exact ⟨_, rfl⟩

end Found

end Found

section Keys

/-- Sources that their keys tell apart: no name below the root has a backslash, and a source that is named
as the suffix alone is not beside one that is named as twice the suffix. -/
structure Distinct (working : Location) (root : Path) (files : List Path) : Prop where
  backslash : ∀ f ∈ files, ∀ name ∈ (f.resolve working).drop (root.resolve working).length,
    '\\' ∉ name.toList
  bare : ∀ f ∈ files, ∀ g ∈ files, (f.resolve working).dropLast = (g.resolve working).dropLast →
    (f.resolve working).getLast? = some sourceSuffix →
    (g.resolve working).getLast? ≠ some (sourceSuffix ++ sourceSuffix)

instance (working : Location) (root : Path) (files : List Path) :
    Decidable (Distinct working root files) :=
  decidable_of_iff ((∀ f ∈ files, ∀ name ∈ (f.resolve working).drop (root.resolve working).length,
      '\\' ∉ name.toList) ∧
    ∀ f ∈ files, ∀ g ∈ files, (f.resolve working).dropLast = (g.resolve working).dropLast →
      (f.resolve working).getLast? = some sourceSuffix →
      (g.resolve working).getLast? ≠ some (sourceSuffix ++ sourceSuffix))
    ⟨fun h => ⟨h.1, h.2⟩, fun h => ⟨h.backslash, h.bare⟩⟩

theorem Distinct.isPlainName (h : Distinct t.working root files) (hf : f ∈ files)
    (hfound : Found t root f rest) : ∀ name ∈ (f.resolve t.working).drop (root.resolve t.working).length,
      IsPlainName name := by
  intro name hname
  have hback := h.backslash f hf name hname
  rw [hfound.resolve_eq, List.drop_left] at hname
  have hfile := hfound.names name hname
  exact ⟨hfile.slash, hback, hfile.empty, hfile.dot, hfile.dots⟩

theorem intercalate_injective {x y : List String} (hx : x ≠ []) (hy : y ≠ [])
    (hslash : ∀ part ∈ x, '/' ∉ part.toList) (hslash' : ∀ part ∈ y, '/' ∉ part.toList)
    (h : String.intercalate "/" x = String.intercalate "/" y) : x = y := by
  rw [← splitAt_key hx hslash, h, splitAt_key hy hslash']

theorem Distinct.rest_eq (h : Distinct t.working root files) (hf : f ∈ files) (hg : g ∈ files)
    {rest' : List String} (hfound : Found t root f rest) (hfound' : Found t root g rest')
    (hkey : sourceKey t.working f root = .ok key) (hkey' : sourceKey t.working g root = .ok key) :
    rest = rest' := by
  obtain ⟨below, last, hplace, hnames, rfl⟩ := sourceKey_of_plain hkey (h.isPlainName hf hfound)
  obtain ⟨below', last', hplace', hnames', heq⟩ := sourceKey_of_plain hkey' (h.isPlainName hg hfound')
  have slashes {below : List String} {last : String}
      (hnames : ∀ name ∈ below ++ [last], IsPlainName name) :
      ∀ part ∈ below ++ [Path.stem last], '/' ∉ part.toList := by
    rw [List.forall_mem_append, List.forall_mem_singleton] at hnames ⊢
    exact ⟨fun name hname => (hnames.1 name hname).slash,
      fun hc => hnames.2.slash (mem_of_mem_stem hc)⟩
  have hparts := intercalate_injective (by simp) (by simp) (slashes hnames) (slashes hnames') heq
  obtain ⟨rfl, hstem⟩ := List.append_inj' hparts rfl
  have hbare := h.bare f hf g hg
  have hbare' := h.bare g hg f hf
  simp only [hplace, hplace', ← List.append_assoc, List.dropLast_concat, List.getLast?_concat,
    Option.some.injEq, forall_const] at hbare hbare'
  rw [hfound.resolve_eq, List.append_cancel_left_eq] at hplace
  rw [hfound'.resolve_eq, List.append_cancel_left_eq] at hplace'
  subst hplace hplace'
  have hsource := hfound.source
  have hsource' := hfound'.source
  rw [List.getLast?_concat, Option.getD_some] at hsource hsource'
  -- The suffix alone keeps its name, so it has the stem of the suffix twice.
  rcases stem_cases hsource hsource' (List.cons.inj hstem).1 with rfl | ⟨rfl, rfl⟩ | ⟨rfl, rfl⟩
  · rfl
  · exact absurd rfl (hbare rfl)
  · exact absurd rfl (hbare' rfl)

end Keys

section Compiling

theorem keys_compileInto [Artifact.FieldChecks] (key : Path → String) (h : s.files.WellFormed)
    (hkey : ∀ f ∈ files, sourceKey s.files.working f root = .ok (key f))
    (hnodup : (m.keys ++ files.map key).Nodup) :
    (compileInto ids build root m files).Meets s (fun n _ => n.keys = m.keys ++ files.map key)
      fun _ => True := by
  induction files generalizing m s with
  | nil => exact .pure (List.append_nil m.keys).symm
  | cons f files ih =>
    rw [List.forall_mem_cons] at hkey
    have hnew : key f ∉ m.keys := fun hmem =>
      List.disjoint_of_nodup_append hnodup hmem List.mem_cons_self
    have hvacant : m.contains (key f) = false := by
      rw [← Bool.not_eq_true, OrderedMap.contains_iff]
      rintro ⟨c, hc⟩
      exact hnew (List.mem_map_of_mem (OrderedMap.get?_eq_some_iff.mp hc))
    unfold compileInto
    refine .get_bind ?_
    rw [hkey.1]
    dsimp only
    rw [hvacant, if_neg Bool.false_ne_true]
    refine .bind (compileFile_keeps ids f _ h) ?_
    rintro c t ⟨ht, hworking⟩
    have hinsert : (m.insert (key f) c).keys = m.keys ++ [key f] := by
      rw [OrderedMap.keys_insert, if_neg hnew]
    have hkeys : (m.insert (key f) c).keys ++ files.map key = m.keys ++ (f :: files).map key := by
      rw [hinsert, List.append_assoc]
      rfl
    refine (ih ht (hworking ▸ hkey.2) (hkeys ▸ hnodup)).imp (fun n u hn => ?_) fun _ _ => trivial
    rw [hn, hkeys]

/-- Sources that are found in a file tree without links, and that their keys tell apart, have a key and an
artifact each, and where compiling them gives a result, that has one entry for each of them. -/
theorem keys_compileFiles [Artifact.FieldChecks] (ids : Nat → String) (build : Path)
    (hwf : s.files.WellFormed) (hnamed : s.files.Named)
    (h : findSources s.files root exclude = .ok files) (hd : Distinct s.files.working root files) :
    ∃ key : Path → String, (∀ f ∈ files, sourceKey s.files.working f root = .ok (key f)) ∧
      (files.map key).Nodup ∧
      (files.map fun f => (artifactPath (key f) build).resolve s.files.working).Nodup ∧
      ∀ m t, compileFiles ids files build root s = .ok m t → m.keys = files.map key := by
  have hfound (f : Path) (hf : f ∈ files) := exists_found hnamed h hf
  have hexists (f : Path) (hf : f ∈ files) : ∃ key, sourceKey s.files.working f root = .ok key := by
    obtain ⟨rest, hrest⟩ := hfound f hf
    exact hrest.exists_sourceKey _
  choose! key hkey using hexists
  have injective : ∀ f ∈ files, ∀ g ∈ files, key f = key g → f = g := by
    intro f hf g hg he
    obtain ⟨rest, hrest⟩ := hfound f hf
    obtain ⟨rest', hrest'⟩ := hfound g hg
    have heq := hd.rest_eq hf hg hrest hrest' (hkey f hf) (he ▸ hkey g hg)
    rw [hrest.path, hrest'.path, heq]
  have separate : ∀ f ∈ files, ∀ g ∈ files, (artifactPath (key f) build).resolve s.files.working =
      (artifactPath (key g) build).resolve s.files.working → f = g := by
    intro f hf g hg he
    obtain ⟨rest, hrest⟩ := hfound f hf
    obtain ⟨rest', hrest'⟩ := hfound g hg
    exact injective f hf g hg (artifactPath_injective (hkey f hf) (hkey g hg)
      (hd.isPlainName hf hrest) (hd.isPlainName hg hrest') he)
  have hnodup := nodup_findSources h
  have hkeys : (files.map key).Nodup := hnodup.map_on injective
  refine ⟨key, hkey, hkeys, hnodup.map_on separate, fun m t hok => ?_⟩
  exact (keys_compileInto (m := .empty) key hwf hkey hkeys).ok hok

def scattered : Session where
  files := FileTree.bare.storeAll [(.ofString "src/.psp", ":A :B\n"),
    (.ofString "src/x/..psp", ":C :D\n"), (.ofString "src/x/.psp.psp", ":E :F\n"),
    (.ofString "src/out/a.psp", ":G :H\n")]

def scatteredSources : List Path :=
  ["src/.psp", "src/x/..psp", "src/x/.psp.psp"].map .ofString

theorem keys_compileFiles_scattered :
    scattered.files.WellFormed ∧ scattered.files.Named ∧
    findSources scattered.files (.ofString "src") [.ofString "src/out"] = .ok scatteredSources ∧
    Distinct scattered.files.working (.ofString "src") scatteredSources ∧
    (∃ key : Path → String, (∀ f ∈ scatteredSources,
        sourceKey scattered.files.working f (.ofString "src") = .ok (key f)) ∧
      (scatteredSources.map key).Nodup ∧
      (scatteredSources.map fun f => (artifactPath (key f) (.ofString "src/out")).resolve
        scattered.files.working).Nodup ∧
      ∀ m t, compileFiles Source.tally scatteredSources (.ofString "src/out") (.ofString "src")
        scattered = .ok m t → m.keys = scatteredSources.map key) ∧
    ((compileFiles Source.tally scatteredSources (.ofString "src/out") (.ofString "src")).run'
      scattered).map OrderedMap.keys = some [".psp", "x/.", "x/.psp"] := by
  have hwf : scattered.files.WellFormed := FileTree.wellFormed_bare.storeAll _
  have hnamed : scattered.files.Named := by decide +kernel
  have hd : Distinct scattered.files.working (.ofString "src") scatteredSources := by decide +kernel
  have hroot : (scattered.files.isDirectory? (.ofString "src")).toOption = some true := by decide +kernel
  have hfound : sourcesBelow scattered.files (.ofString "src") [.ofString "src/out"] =
      scatteredSources := by decide +kernel
  have hordered : scatteredSources.Pairwise fun p q => isOrdered p.parts q.parts = true := by
    decide +kernel
  have h : findSources scattered.files (.ofString "src") [.ofString "src/out"] =
      .ok scatteredSources := by
    rw [findSources_of_isDirectory? rfl (Source.result_eq_ok hroot) (by decide +kernel), hfound,
      List.mergeSort_of_pairwise hordered]
  exact ⟨hwf, hnamed, h, hd, keys_compileFiles Source.tally (.ofString "src/out") hwf hnamed h hd,
    by decide +kernel⟩

/-- Two sources that are named as the suffix and as twice the suffix, and two that a slash and a backslash
in a name tell apart. -/
def shadowed : Session where
  files := FileTree.bare.storeAll [(.ofString ".psp", ":A :B\n"), (.ofString ".psp.psp", ":C :D\n"),
    (.ofString "a/b.psp", ":E :F\n"), (.ofString "a\\b.psp", ":G :H\n")]

def shadowedSources : List Path := [".psp", ".psp.psp", "a/b.psp", "a\\b.psp"].map .ofString

/-- All four sources are found, but they have two keys, and two of them are skipped. -/
theorem keys_compileFiles_shadowed :
    findSources shadowed.files (.ofString ".") [.ofString "out"] = .ok shadowedSources ∧
    shadowedSources.Nodup ∧
    (shadowedSources.map fun f => (sourceKey [] f (.ofString ".")).toOption) =
      [some ".psp", some ".psp", some "a/b", some "a/b"] ∧
    ((compileFiles Source.tally shadowedSources (.ofString "out") (.ofString ".")).run'
      shadowed).map OrderedMap.keys = some [".psp", "a/b"] := by
  have hroot : (shadowed.files.isDirectory? (.ofString ".")).toOption = some true := by decide +kernel
  have hfound : sourcesBelow shadowed.files (.ofString ".") [.ofString "out"] = shadowedSources := by
    decide +kernel
  have hordered : shadowedSources.Pairwise fun p q => isOrdered p.parts q.parts = true := by
    decide +kernel
  refine ⟨?_, by decide +kernel, by decide +kernel, by decide +kernel⟩
  rw [findSources_of_isDirectory? rfl (Source.result_eq_ok hroot) (by decide +kernel), hfound,
    List.mergeSort_of_pairwise hordered]

end Compiling

end Workspace

end ContextRoles
