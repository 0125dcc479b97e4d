import ContextRoles.Workspace.Discovery

/-! # Where artifacts lie

The name of an artifact has a suffix of its own, so no source is an artifact. Where no name has a
backslash, artifacts lie below the build directory as their sources lie below the root, and sources with
different keys have different artifacts. A backslash in a name becomes a slash of the key: then a source
can share the artifact of another one, whose key is different.
-/

namespace ContextRoles

namespace Text

variable {mark : Char} {x : List Char}

theorem splitAt_ne_nil (mark : Char) (x : List Char) : splitAt mark x ≠ [] := by
  induction x with
  | nil => exact List.cons_ne_nil _ _
  | cons c x ih =>
    rw [splitAt]
    split
    · split <;> exact List.cons_ne_nil _ _
    next h => exact absurd h ih

theorem splitAt_cons_mark (mark : Char) (x : List Char) :
    splitAt mark (mark :: x) = [] :: splitAt mark x := by
  rw [splitAt]
  cases h : splitAt mark x with
  | nil => exact absurd h (splitAt_ne_nil mark x)
  | cons part parts => exact if_pos rfl

theorem splitAt_append_mark {part : List Char} (h : mark ∉ part) (x : List Char) :
    splitAt mark (part ++ mark :: x) = part :: splitAt mark x := by
  induction part with
  | nil => exact splitAt_cons_mark mark x
  | cons c part ih =>
    rw [List.mem_cons, not_or] at h
    rw [List.cons_append, splitAt, ih h.2]
    exact if_neg fun hc => h.1 hc.symm

theorem splitAt_of_notMem (h : mark ∉ x) : splitAt mark x = [x] := by
  induction x with
  | nil => rfl
  | cons c x ih =>
    rw [List.mem_cons, not_or] at h
    rw [splitAt, ih h.2]
    exact if_neg fun hc => h.1 hc.symm

theorem notMem_of_mem_splitAt {part : List Char} (h : part ∈ splitAt mark x) : mark ∉ part := by
  induction x generalizing part with
  | nil =>
    rw [splitAt, List.mem_singleton] at h
    exact h ▸ List.not_mem_nil
  | cons c x ih =>
    rw [splitAt] at h
    cases hx : splitAt mark x with
    | nil => exact absurd hx (splitAt_ne_nil mark x)
    | cons first parts =>
      rw [hx] at h ih
      have hfirst : mark ∉ first := ih List.mem_cons_self
      dsimp only at h
      split at h
      next =>
        rcases List.mem_cons.mp h with rfl | h
        · exact List.not_mem_nil
        · exact ih h
      next hc =>
        rcases List.mem_cons.mp h with rfl | h
        · rw [List.mem_cons, not_or]
          exact ⟨fun he => hc he.symm, hfirst⟩
        · exact ih (List.mem_cons_of_mem _ h)

theorem splitAt_intercalate {parts : List (List Char)} (hne : parts ≠ [])
    (h : ∀ part ∈ parts, mark ∉ part) : splitAt mark ([mark].intercalate parts) = parts := by
  induction parts with
  | nil => exact absurd rfl hne
  | cons part parts ih =>
    rw [List.forall_mem_cons] at h
    cases parts with
    | nil =>
      rw [List.intercalate_singleton]
      exact splitAt_of_notMem h.1
    | cons next parts =>
      rw [List.intercalate_cons_cons, List.append_assoc, List.singleton_append,
        splitAt_append_mark h.1, ih (List.cons_ne_nil _ _) h.2]

theorem notMem_intercalate {c : Char} {separator : List Char} {parts : List (List Char)}
    (hseparator : c ∉ separator) (h : ∀ part ∈ parts, c ∉ part) : c ∉ separator.intercalate parts := by
  induction parts with
  | nil => exact List.not_mem_nil
  | cons part parts ih =>
    rw [List.forall_mem_cons] at h
    cases parts with
    | nil =>
      rw [List.intercalate_singleton]
      exact h.1
    | cons next parts =>
      rw [List.intercalate_cons_cons, List.mem_append, List.mem_append, not_or, not_or]
      exact ⟨⟨h.1, hseparator⟩, ih h.2⟩

end Text

namespace Workspace

open Files

variable {p build root f g : Path} {name key key' : String} {working place : Location}

section Places

theorem child_eq (hslash : '/' ∉ name.toList) (hempty : name ≠ "") (hdot : name ≠ ".") :
    p.child name = ⟨p.anchor, p.parts ++ [name]⟩ := by
  have hanchor : Path.anchorOf name.toList = .working := by
    unfold Path.anchorOf
    split
    next heq => exact absurd (heq ▸ List.mem_cons_self) hslash
    next heq => exact absurd (heq ▸ List.mem_cons_self) hslash
    next heq => exact absurd (heq ▸ List.mem_cons_self) hslash
    next => rfl
  have hparts : (Path.ofString name).parts = [name] := by
    simp [Path.ofString, Text.splitAt_of_notMem hslash, String.ofList_toList, hempty, hdot]
  unfold Path.child Path.join
  rw [hparts, show (Path.ofString name).anchor = .working from hanchor]

theorem resolve_child (hslash : '/' ∉ name.toList) (hempty : name ≠ "") (hdot : name ≠ ".")
    (hdots : name ≠ "..") : (p.child name).resolve working = p.resolve working ++ [name] := by
  rw [child_eq hslash hempty hdot, Path.resolve, Path.resolve, List.foldl_append]
  exact if_neg hdots

theorem ne_of_getLast? {c : Char} {s t : String} (hs : s.toList.getLast? = some c)
    (ht : t.toList.getLast? ≠ some c) : s ≠ t := by
  rintro rfl
  exact ht hs

theorem getLast?_artifactName (stem : String) :
    (stem ++ Artifact.fileSuffix).toList.getLast? = some 'n' := by
  rw [String.toList_append, List.getLast?_append]
  rfl

theorem resolve_artifactName {stem : String} (h : '/' ∉ stem.toList) (p : Path) :
    (p.child (stem ++ Artifact.fileSuffix)).resolve working =
      p.resolve working ++ [stem ++ Artifact.fileSuffix] := by
  have hlast := getLast?_artifactName stem
  have hslash : '/' ∉ (stem ++ Artifact.fileSuffix).toList := by
    rw [String.toList_append, List.mem_append, not_or]
    exact ⟨h, by decide⟩
  exact resolve_child hslash (ne_of_getLast? hlast (by decide)) (ne_of_getLast? hlast (by decide))
    (ne_of_getLast? hlast (by decide))

theorem resolve_artifactPath (key : String) (build : Path) (working : Location) :
    ∃ directory stem,
      (artifactPath key build).resolve working = directory ++ [stem ++ Artifact.fileSuffix] := by
  let parts := (Text.splitAt '/' key.toList).map String.ofList
  let stem := parts.getLast?.getD ""
  have hstem : '/' ∉ stem.toList := by
    cases h : parts.getLast? with
    | none => simp [stem, h]
    | some last =>
      obtain ⟨part, hpart, rfl⟩ := List.mem_map.mp (List.mem_of_getLast? h)
      simpa [stem, h] using Text.notMem_of_mem_splitAt hpart
  exact ⟨_, stem, resolve_artifactName hstem _⟩

theorem artifact_ne_source (h : isSourceName (place.getLast?.getD "") = true) :
    (artifactPath key build).resolve working ≠ place := by
  rintro rfl
  obtain ⟨directory, stem, hplace⟩ := resolve_artifactPath key build working
  rw [hplace, List.getLast?_concat, Option.getD_some, isSourceName, List.isSuffixOf_iff_suffix] at h
  obtain ⟨rest, hrest⟩ := h
  have hlast := getLast?_artifactName stem
  rw [← hrest, List.getLast?_append, show sourceSuffix.toList.getLast? = some 'p' by decide,
    Option.some_or] at hlast
  exact absurd hlast (by decide)

end Places

section Layout

/-- A name that a directory can have and that has no backslash. -/
structure IsPlainName (name : String) : Prop where
  slash : '/' ∉ name.toList
  backslash : '\\' ∉ name.toList
  empty : name ≠ ""
  dot : name ≠ "."
  dots : name ≠ ".."

instance (name : String) : Decidable (IsPlainName name) :=
  decidable_of_iff (('/' ∉ name.toList ∧ '\\' ∉ name.toList) ∧ name ≠ "" ∧ name ≠ "." ∧ name ≠ "..")
    ⟨fun ⟨⟨h, h'⟩, h₁, h₂, h₃⟩ => ⟨h, h', h₁, h₂, h₃⟩,
      fun h => ⟨⟨h.slash, h.backslash⟩, h.empty, h.dot, h.dots⟩⟩

theorem foldl_child {names : List String} (h : ∀ name ∈ names, IsPlainName name) (p : Path) :
    (names.foldl Path.child p).resolve working = p.resolve working ++ names := by
  induction names generalizing p with
  | nil => exact (List.append_nil _).symm
  | cons name names ih =>
    rw [List.forall_mem_cons] at h
    rw [List.foldl_cons, ih h.2, resolve_child h.1.slash h.1.empty h.1.dot h.1.dots,
      List.append_assoc, List.singleton_append]

theorem mem_of_mem_stem {c : Char} (h : c ∈ (Path.stem name).toList) : c ∈ name.toList := by
  unfold Path.stem at h
  dsimp only at h
  split at h
  · rw [String.toList_ofList] at h
    exact List.mem_of_mem_take h
  · exact h

theorem relativeTo?_eq_some {directory : Location} {path : Path}
    (h : (Path.ofLocation place).relativeTo? (Path.ofLocation directory) = some path) :
    ∃ rest, place = directory ++ rest ∧ path = ⟨.working, rest⟩ := by
  unfold Path.relativeTo? Path.ofLocation at h
  simp only [if_true] at h
  split at h
  next hprefix =>
    cases h
    obtain ⟨rest, hrest⟩ := List.isPrefixOf_iff_prefix.mp hprefix
    exact ⟨rest, hrest.symm, by rw [← hrest, List.drop_left]⟩
  · cases h

theorem sourceKey_eq_ok (h : sourceKey working f root = .ok key) :
    ∃ below name, f.resolve working = root.resolve working ++ (below ++ [name]) ∧
      key = String.ofList ((Path.render ⟨.working, below ++ [Path.stem name]⟩).toList.map
        fun c => if c = '\\' then '/' else c) := by
  unfold sourceKey at h
  split at h
  · cases h
  dsimp only at h
  cases hr : (Path.ofLocation (f.resolve working)).relativeTo?
      (Path.ofLocation (root.resolve working)) with
  | none => simp [hr] at h
  | some path =>
    obtain ⟨rest, hrest, rfl⟩ := relativeTo?_eq_some hr
    rw [hr] at h
    rcases List.eq_nil_or_concat rest with rfl | ⟨below, name, rfl⟩
    · simp [Path.withoutSuffix?] at h
    · rw [List.concat_eq_append] at h hrest
      simp only [Path.withoutSuffix?, List.getLast?_concat, Option.map_some, List.dropLast_concat,
        Except.ok.injEq] at h
      exact ⟨below, name, hrest, h.symm⟩

theorem sourceKey_error {failure : Failure} (hroot : f.resolve working ≠ root.resolve working)
    (h : sourceKey working f root = .error failure) : failure = .compile (.outsideRoot f root) := by
  unfold sourceKey at h
  split at h
  · exact (Except.error.inj h).symm
  dsimp only at h
  cases hr : (Path.ofLocation (f.resolve working)).relativeTo?
      (Path.ofLocation (root.resolve working)) with
  | none =>
    rw [hr] at h
    exact (Except.error.inj h).symm
  | some path =>
    obtain ⟨rest, hrest, rfl⟩ := relativeTo?_eq_some hr
    have hne : rest ≠ [] := by
      rintro rfl
      exact hroot (hrest.trans (List.append_nil _))
    rw [hr] at h
    simp [Path.withoutSuffix?, List.getLast?_eq_some_getLast hne] at h

theorem hasNull_of_sourceKey (h : sourceKey working f root = .ok key) : f.hasNull = false := by
  unfold sourceKey at h
  split at h
  · cases h
  next hnull =>
    simp only [Bool.or_eq_true, not_or, Bool.not_eq_true] at hnull
    exact hnull.1

theorem splitAt_key {parts : List String} (hne : parts ≠ [])
    (h : ∀ part ∈ parts, '/' ∉ part.toList) :
    (Text.splitAt '/' (String.intercalate "/" parts).toList).map String.ofList = parts := by
  rw [String.toList_intercalate, show "/".toList = ['/'] from rfl,
    Text.splitAt_intercalate (by simpa using hne) (List.forall_mem_map.mpr h), List.map_map]
  exact (List.map_congr_left fun _ _ => String.ofList_toList).trans (List.map_id _)

theorem replace_backslash {text : String} (h : '\\' ∉ text.toList) :
    String.ofList (text.toList.map fun c => if c = '\\' then '/' else c) = text := by
  have hsame : ∀ c ∈ text.toList, (if c = '\\' then '/' else c) = c := by
    intro c hc
    refine if_neg ?_
    rintro rfl
    exact h hc
  rw [List.map_congr_left hsame, List.map_id', String.ofList_toList]

theorem resolve_artifactPath_intercalate {below : List String} {stem : String}
    (hbelow : ∀ name ∈ below, IsPlainName name) (hstem : '/' ∉ stem.toList) (build : Path) :
    (artifactPath (String.intercalate "/" (below ++ [stem])) build).resolve working =
      build.resolve working ++ (below ++ [stem ++ Artifact.fileSuffix]) := by
  have hsplit := splitAt_key (List.append_ne_nil_of_right_ne_nil below (List.cons_ne_nil stem []))
    (List.forall_mem_append.mpr
      ⟨fun name hname => (hbelow name hname).slash, List.forall_mem_singleton.mpr hstem⟩)
  rw [artifactPath, hsplit, List.dropLast_concat, List.getLast?_concat, Option.getD_some,
    resolve_artifactName hstem, foldl_child hbelow, List.append_assoc]

theorem stem_append_suffix (h : name ≠ "") : Path.stem (name ++ sourceSuffix) = name := by
  have hchars : (name ++ sourceSuffix).toList = name.toList ++ ".psp".toList := String.toList_append
  have hsuffix : (((name ++ sourceSuffix).toList.reverse.takeWhile (· ≠ '.')).reverse) =
      "psp".toList := by
    rw [hchars, List.reverse_append]
    rfl
  have hpos : 0 < name.toList.length := List.length_pos_iff.mpr (by simpa using h)
  have hlength : (name ++ sourceSuffix).toList.length = name.toList.length + 4 := by
    rw [hchars, List.length_append]
    rfl
  unfold Path.stem
  dsimp only
  rw [hsuffix, hlength, if_pos ⟨by simp, by simpa using hpos, by simp⟩, hchars]
  simp

theorem sourceKey_child {stem : String} (hplain : IsPlainName (stem ++ sourceSuffix)) (hstem : stem ≠ "")
    (hnull : (root.child (stem ++ sourceSuffix)).hasNull = false) (hroot : root.hasNull = false) :
    sourceKey working (root.child (stem ++ sourceSuffix)) root = .ok stem := by
  have hrelative : (Path.ofLocation ((root.child (stem ++ sourceSuffix)).resolve working)).relativeTo?
      (Path.ofLocation (root.resolve working)) = some ⟨.working, [stem ++ sourceSuffix]⟩ := by
    rw [resolve_child hplain.slash hplain.empty hplain.dot hplain.dots]
    simp [Path.relativeTo?, Path.ofLocation]
  have hsuffix : Path.withoutSuffix? ⟨.working, [stem ++ sourceSuffix]⟩ = some ⟨.working, [stem]⟩ := by
    simp [Path.withoutSuffix?, stem_append_suffix hstem]
  have hbackslash : '\\' ∉ stem.toList := fun hc =>
    hplain.backslash (by rw [String.toList_append]; exact List.mem_append_left _ hc)
  have hrender : Path.render ⟨.working, [stem]⟩ = stem := by
    rw [Path.render, if_neg (by simp), Anchor.text, String.empty_append]
    rfl
  simp only [sourceKey, hnull, hroot, Bool.or_self, Bool.false_eq_true, if_false, hrelative, hsuffix,
    hrender, replace_backslash hbackslash]

theorem artifactPath_of_name (h : '/' ∉ key.toList) (build : Path) :
    artifactPath key build = build.child (key ++ Artifact.fileSuffix) := by
  rw [artifactPath, Text.splitAt_of_notMem h, List.map_singleton, String.ofList_toList]
  rfl

/-- The key of a source with plain names is spelled from its names below the root, the last one without
its suffix. -/
theorem sourceKey_of_plain (h : sourceKey working f root = .ok key)
    (hplain : ∀ name ∈ (f.resolve working).drop (root.resolve working).length, IsPlainName name) :
    ∃ below last, f.resolve working = root.resolve working ++ (below ++ [last]) ∧
      (∀ name ∈ below ++ [last], IsPlainName name) ∧
      key = String.intercalate "/" (below ++ [Path.stem last]) := by
  obtain ⟨below, last, hplace, hkey⟩ := sourceKey_eq_ok h
  rw [hplace, List.drop_left] at hplain
  obtain ⟨hbelow, hlast⟩ := List.forall_mem_append.mp hplain
  rw [List.forall_mem_singleton] at hlast
  have hclean : '\\' ∉ (String.intercalate "/" (below ++ [Path.stem last])).toList := by
    rw [String.toList_intercalate]
    refine Text.notMem_intercalate (by decide) (List.forall_mem_map.mpr ?_)
    exact List.forall_mem_append.mpr ⟨fun name hname => (hbelow name hname).backslash,
      List.forall_mem_singleton.mpr fun hc => hlast.backslash (mem_of_mem_stem hc)⟩
  refine ⟨below, last, hplace, hplain, ?_⟩
  rw [hkey, Path.render, if_neg (by simp), Anchor.text, String.empty_append, replace_backslash hclean]

theorem resolve_artifactPath_of_plain (h : sourceKey working f root = .ok key)
    (hplain : ∀ name ∈ (f.resolve working).drop (root.resolve working).length, IsPlainName name)
    (build : Path) :
    ∃ below stem, key = String.intercalate "/" (below ++ [stem]) ∧
      (artifactPath key build).resolve working =
        build.resolve working ++ (below ++ [stem ++ Artifact.fileSuffix]) := by
  obtain ⟨below, last, -, hnames, rfl⟩ := sourceKey_of_plain h hplain
  obtain ⟨hbelow, hlast⟩ := List.forall_mem_append.mp hnames
  rw [List.forall_mem_singleton] at hlast
  exact ⟨below, Path.stem last, rfl, resolve_artifactPath_intercalate hbelow
    (fun hc => hlast.slash (mem_of_mem_stem hc)) build⟩

theorem artifactPath_injective (hf : sourceKey working f root = .ok key)
    (hg : sourceKey working g root = .ok key')
    (hplain : ∀ name ∈ (f.resolve working).drop (root.resolve working).length, IsPlainName name)
    (hplain' : ∀ name ∈ (g.resolve working).drop (root.resolve working).length, IsPlainName name)
    (h : (artifactPath key build).resolve working = (artifactPath key' build).resolve working) :
    key = key' := by
  obtain ⟨below, stem, rfl, hplace⟩ := resolve_artifactPath_of_plain hf hplain build
  obtain ⟨below', stem', rfl, hplace'⟩ := resolve_artifactPath_of_plain hg hplain' build
  rw [hplace, hplace', List.append_cancel_left_eq] at h
  obtain ⟨rfl, hstem⟩ := List.append_inj' h rfl
  rw [List.cons.injEq, String.append_left_inj] at hstem
  rw [hstem.1]

end Layout

end Workspace

end ContextRoles
