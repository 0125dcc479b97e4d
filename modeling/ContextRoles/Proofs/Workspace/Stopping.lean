import ContextRoles.Proofs.Workspace.Discarding

/-! # What stops compiling

Compiling fails with an error that is not its own where it cannot be told whether an artifact is newer,
where reading a newer one fails with no reason to discard it, and where something is in the way of the
artifact of a source that was parsed. A source can have a name that leaves no room for the suffix of its
artifact.
-/

namespace ContextRoles.Workspace

open Files

variable {ids : Nat → String} {build root f : Path} {files : List Path} {key : String} {s : Session}
  {c : Collection}

section Failures

variable [Artifact.FieldChecks]

theorem compileFiles_of_isUpToDate_error {e : FileError}
    (hkey : sourceKey s.files.working f root = .ok key)
    (hup : isUpToDate s.files f (artifactPath key build) = .error e) :
    compileFiles ids (f :: files) build root s = .error (.files e) s := by
  have hquery : Action.query (fun t => isUpToDate t f (artifactPath key build)) s =
      .error (.files e) s := by rw [Action.query, hup]
  rw [compileFiles, compileInto_of_vacant hkey rfl, compileFile, cached?]
  exact Action.bind_error (Action.bind_error (Action.bind_error hquery))

theorem compileFiles_of_readArtifact_error {failure : Failure}
    (hkey : sourceKey s.files.working f root = .ok key)
    (hup : isUpToDate s.files f (artifactPath key build) = .ok true)
    (hread : readArtifact s.files (artifactPath key build) = .error failure)
    (hreason : failure.reasonToDiscard? = none) :
    compileFiles ids (f :: files) build root s = .error failure s := by
  have hquery : Action.query (fun t => isUpToDate t f (artifactPath key build)) s = .ok true s := by
    rw [Action.query, hup]
  have hcached : cached? f (artifactPath key build) s = .error failure s := by
    rw [cached?, Action.bind_ok hquery, if_pos rfl, Action.get_bind]
    simp only [hread, hreason]
    rfl
  rw [compileFiles, compileInto_of_vacant hkey rfl, compileFile]
  exact Action.bind_error (Action.bind_error hcached)

theorem compileFiles_of_not_admits {text : String} (hwf : s.files.WellFormed)
    (hkey : sourceKey s.files.working f root = .ok key)
    (hup : isUpToDate s.files f (artifactPath key build) ≠ .ok true)
    (htext : s.files.readText f = .ok text) (hresult : (Source.read ids s.drawn text).result = .ok c)
    (hadmits : ¬ s.files.Admits (artifactPath key build)) :
    ∃ e t, compileFiles ids (f :: files) build root s = .error (.files e) t := by
  cases hquery : isUpToDate s.files f (artifactPath key build) with
  | error e => exact ⟨e, s, compileFiles_of_isUpToDate_error hkey hquery⟩
  | ok upToDate =>
    obtain rfl : upToDate = false := by
      rw [hquery] at hup
      simpa using hup
    have hquery : Action.query (fun t => isUpToDate t f (artifactPath key build)) s = .ok false s := by
      rw [Action.query, hquery]
    have hcached : cached? f (artifactPath key build) s = .ok none s := by
      rw [cached?, Action.bind_ok hquery]
      rfl
    cases hw : (s.files.store (artifactPath key build) (c.serialize .compact)).1 with
    | ok _ => exact absurd (.of_store hwf hw) hadmits
    | error e =>
      obtain ⟨t, ht⟩ := compileSource_of_unstorable htext hresult hw
      rw [compileFiles, compileInto_of_vacant hkey rfl, compileFile]
      exact ⟨e, t, Action.bind_error ((Action.bind_ok hcached).trans ht)⟩

end Failures

section Stops

/-- A source below a root is to be compiled, and the build directory can be made and written. Compiling
fails all the same, and not in words of its own. -/
structure Stops (s : Session) (root file : Path) (e : Failure) : Prop where
  wellFormed : s.files.WellFormed
  writable : ∀ text, (s.files.store (.ofString "build/z.psp.json") text).1 = .ok ()
  fails : ∃ t, compileFiles Source.tally [file] (.ofString "build") root s = .error e t

theorem writable_of_store {t : FileTree} {p : Path} (h : (t.store p "").1.toOption = some ())
    (text : String) : (t.store p text).1 = .ok () :=
  (FileTree.store_fst t p text "").trans (Source.result_eq_ok h)

theorem isSome_read_doos :
    (Source.read Source.tally 0 ":doos :A\n").result.toOption.isSome = true := by decide +kernel

theorem stops_of_not_admits {root : Path} (hwf : s.files.WellFormed) (hdrawn : s.drawn = 0)
    (hwritable : (s.files.store (.ofString "build/z.psp.json") "").1.toOption = some ())
    (hworking : s.files.working = []) (hkey : sourceKey [] f root = .ok key)
    (hup : isUpToDate s.files f (artifactPath key (.ofString "build")) ≠ .ok true)
    (htext : s.files.readText f = .ok ":doos :A\n")
    (hadmits : ¬ s.files.Admits (artifactPath key (.ofString "build"))) :
    ∃ e, Stops s root f (.files e) := by
  obtain ⟨c, hc⟩ := Option.isSome_iff_exists.mp isSome_read_doos
  rw [← hdrawn] at hc
  rw [← hworking] at hkey
  obtain ⟨e, t, ht⟩ := compileFiles_of_not_admits hwf hkey hup htext (Source.result_eq_ok hc) hadmits
  exact ⟨e, hwf, writable_of_store hwritable, t, ht⟩

/-- A stem that leaves room for the suffix of a source and not for that of its artifact. -/
structure IsLongStem (stem : String) : Prop where
  room : stem.utf8ByteSize + sourceSuffix.utf8ByteSize ≤ maxNameSize
  long : maxNameSize < stem.utf8ByteSize + Artifact.fileSuffix.utf8ByteSize
  plain : ∀ c ∈ stem.toList, c = 'n'

namespace IsLongStem

variable {stem suffix : String}

theorem append_ne (h : IsLongStem stem) {name : String} (hname : name.utf8ByteSize < 10) :
    stem ++ suffix ≠ name := by
  rintro rfl
  have hlong := h.long
  rw [String.utf8ByteSize_append] at hname
  rw [show Artifact.fileSuffix.utf8ByteSize = 9 by decide, maxNameSize] at hlong
  omega

theorem notMem_append (h : IsLongStem stem) {c : Char} (hc : c ≠ 'n') (hsuffix : c ∉ suffix.toList) :
    c ∉ (stem ++ suffix).toList := by
  rw [String.toList_append, List.mem_append, not_or]
  exact ⟨fun hmem => hc (h.plain c hmem), hsuffix⟩

/-- A source in a directory of its own, and an empty build directory. -/
def session (stem : String) : Session where
  files :=
    { entries := [(["build"], ⟨.directory, 0⟩), (["src"], ⟨.directory, 0⟩),
        (["src", stem ++ sourceSuffix], ⟨.file (.text ":doos :A\n"), 0⟩)]
      nodup := by simp }

def source (stem : String) : Path := ⟨.working, ["src", stem ++ sourceSuffix]⟩

theorem objection?_source (h : IsLongStem stem) :
    (session stem).files.objection? (source stem) = none := by
  have hnull : (source stem).hasNull = false := by
    have hlast : (stem ++ sourceSuffix).toList.contains '\x00' = false := by
      simpa using h.notMem_append (by decide) (by decide)
    rw [Path.hasNull, source, List.any_cons, List.any_cons, hlast]
    decide
  have hsize : ¬ maxPathSize < (source stem).render.utf8ByteSize := by
    have hrender : (source stem).render = "" ++ ("src" ++ "/" ++ (stem ++ sourceSuffix)) := rfl
    have hroom := h.room
    rw [hrender, String.utf8ByteSize_append, String.utf8ByteSize_append, String.utf8ByteSize_append,
      String.utf8ByteSize_append, show ("" : String).utf8ByteSize = 0 by decide,
      show "src".utf8ByteSize = 3 by decide, show "/".utf8ByteSize = 1 by decide, maxPathSize]
    rw [maxNameSize] at hroom
    omega
  rw [FileTree.objection?, hnull, if_neg Bool.false_ne_true, if_neg hsize]
  rfl

theorem readText_source (h : IsLongStem stem) :
    (session stem).files.readText (source stem) = .ok ":doos :A\n" := by
  have hl : (session stem).files.locate (source stem) = .ok ["src", stem ++ sourceSuffix] := by
    refine FileTree.locate_eq_ok.mpr ⟨h.objection?_source, ?_⟩
    have hroom := h.room
    rw [← String.utf8ByteSize_append] at hroom
    have hdots : stem ++ sourceSuffix ≠ ".." := h.append_ne (by decide)
    -- the stem is a variable, so the path is followed name by name and not by evaluation
    have hfirst : (session stem).files.isDirectoryAt [] = true := rfl
    have hsecond : (session stem).files.isDirectoryAt ["src"] = true := rfl
    show FileTree.walk _ [] ["src", _] = _
    rw [FileTree.walk_cons_eq, if_pos hfirst, if_neg (by decide), FileTree.stepInto, if_neg (by decide),
      List.nil_append, FileTree.walk_cons_eq, if_pos hsecond,
      if_neg fun hlong => Nat.not_lt.mpr hroom hlong.2, FileTree.stepInto, if_neg hdots]
    rfl
  have hstatus : (session stem).files.status (source stem) = .ok ⟨.file (.text ":doos :A\n"), 0⟩ := by
    rw [FileTree.status, hl]
    simp [FileTree.get?, session, List.lookup_cons]
  rw [FileTree.readText_of_status rfl hstatus]
  exact congrArg Except.ok (by decide +kernel)

theorem store_session (stem : String) :
    ((session stem).files.store (.ofString "build/z.psp.json") "").1.toOption = some () := by
  have hensure : (session stem).files.ensureDirectory (Path.parent (.ofString "build/z.psp.json")) =
      (.ok (), (session stem).files) := by
    rw [FileTree.ensureDirectory]
    rfl
  rw [FileTree.store, hensure]
  rfl

theorem sourceKey_source (h : IsLongStem stem) :
    sourceKey [] (source stem) (.ofString "src") = .ok stem := by
  have hplain : IsPlainName (stem ++ sourceSuffix) :=
    ⟨h.notMem_append (by decide) (by decide), h.notMem_append (by decide) (by decide),
      h.append_ne (by decide), h.append_ne (by decide), h.append_ne (by decide)⟩
  have hchild : (Path.ofString "src").child (stem ++ sourceSuffix) = source stem :=
    child_eq hplain.slash hplain.empty hplain.dot
  have hempty : stem ≠ "" := by
    rintro rfl
    exact absurd h.long (by decide)
  rw [← hchild]
  refine sourceKey_child hplain hempty ?_ rfl
  rw [hchild]
  exact FileTree.hasNull_of_objection? h.objection?_source

/-- A source with too long a name for its artifact stops compiling. -/
theorem stops (h : IsLongStem stem) :
    ∃ e, Stops (session stem) (.ofString "src") (source stem) (.files e) := by
  have hslash : '/' ∉ stem.toList := fun hmem => absurd (h.plain _ hmem) (by decide)
  have hartifact := artifactPath_of_name hslash (.ofString "build")
  refine stops_of_not_admits (.of_entries ?_ rfl) rfl (store_session stem) rfl
    h.sourceKey_source ?_ h.readText_source ?_
  · simp only [session, List.forall_mem_cons]
    exact ⟨rfl, rfl, rfl, List.forall_mem_nil _⟩
  · intro hup
    obtain ⟨stored, -, hstored, -⟩ := isUpToDate_eq_true hup
    have hplace := FileTree.status_eq_ok hstored
    have hbuild : Path.resolve (session stem).files.working (.ofString "build") = ["build"] := by
      show Path.resolve [] _ = _
      decide
    rw [hartifact, resolve_artifactName hslash, hbuild] at hplace
    simp [session, FileTree.get?, List.lookup_cons] at hplace
  · intro hadmits
    have hshort := hadmits.short
    rw [hartifact, child_eq (h.notMem_append (by decide) (by decide)) (h.append_ne (by decide))
      (h.append_ne (by decide)), List.getLast?_concat, Option.getD_some,
      String.utf8ByteSize_append] at hshort
    exact absurd h.long (Nat.not_lt.mpr hshort)

end IsLongStem

theorem utf8ByteSize_replicate (n : Nat) : (String.ofList (List.replicate n 'n')).utf8ByteSize = n := by
  induction n with
  | zero => rfl
  | succ n ih =>
    rw [List.replicate_succ, ← List.singleton_append, String.ofList_append,
      String.utf8ByteSize_append, ih, show (String.ofList ['n']).utf8ByteSize = 1 by decide]
    omega

theorem isLongStem_replicate {n : Nat} (hlong : 246 < n) (hroom : n ≤ 251) :
    IsLongStem (String.ofList (List.replicate n 'n')) where
  room := by
    rw [utf8ByteSize_replicate, show sourceSuffix.utf8ByteSize = 4 by decide, maxNameSize]
    omega
  long := by
    rw [utf8ByteSize_replicate, show Artifact.fileSuffix.utf8ByteSize = 9 by decide, maxNameSize]
    omega
  plain c hc := by
    rw [String.toList_ofList] at hc
    exact List.eq_of_mem_replicate hc

end Stops

section Runs

theorem stops_a (hwf : s.files.WellFormed) (hdrawn : s.drawn = 0) (hworking : s.files.working = [])
    (hwritable : (s.files.store (.ofString "build/z.psp.json") "").1.toOption = some ())
    (hup : (isUpToDate s.files (.ofString "a.psp") (.ofString "build/a.psp.json")).toOption = some false)
    (htext : (s.files.readText (.ofString "a.psp")).toOption = some ":doos :A\n")
    (hadmits : ¬ s.files.Admits (.ofString "build/a.psp.json")) :
    ∃ e, Stops s (.ofString ".") (.ofString "a.psp") (.files e) := by
  rw [← artifactPath_a] at hup hadmits
  refine stops_of_not_admits hwf hdrawn hwritable hworking sourceKey_a ?_ (Source.result_eq_ok htext)
    hadmits
  rw [Source.result_eq_ok hup]
  nofun

/-- A directory stands where the artifact should lie. -/
def occupied : Session where
  files := ((FileTree.bare.storeAll [(.ofString "a.psp", ":doos :A\n")]).ensureDirectory
    (.ofString "build/a.psp.json")).2

theorem stops_occupied : ∃ e, Stops occupied (.ofString ".") (.ofString "a.psp") (.files e) := by
  have hwf : occupied.files.WellFormed :=
    (FileTree.prepares_ensureDirectory (FileTree.wellFormed_bare.storeAll _) _).wellFormed
  exact stops_a hwf rfl (by decide +kernel) (by decide +kernel) (by decide +kernel) (by decide +kernel)
    fun hadmits => absurd hadmits.vacant (by decide +kernel)

/-- The artifact may not be written. -/
def locked : Session where
  files :=
    { FileTree.bare.storeAll [(.ofString "a.psp", ":doos :A\n"), (.ofString "build/a.psp.json", "x")]
      with denies := fun access p => access = .write && p = .ofString "build/a.psp.json" }

theorem stops_locked : ∃ e, Stops locked (.ofString ".") (.ofString "a.psp") (.files e) := by
  have hwf : locked.files.WellFormed := .of_entries (by decide +kernel) (by decide +kernel)
  exact stops_a hwf rfl (by decide +kernel) (by decide +kernel) (by decide +kernel) (by decide +kernel)
    fun hadmits => absurd hadmits.granted (by decide +kernel)

def longStem : String := String.ofList (List.replicate 251 'n')

/-- An artifact without its source, one that is no text and one with a number for a name stop compiling,
and so do a directory in the place of the artifact, an artifact that may not be written and one with too
long a name. -/
theorem stops_workshop :
    Stops (workshop none (some (.text "x"))) (.ofString ".") (.ofString "a.psp")
      (.files (.refused .missing (.ofString "a.psp"))) ∧
    Stops (workshop (some (.text ":doos :A\n")) (some .undecodable)) (.ofString ".") (.ofString "a.psp")
      (.files .undecodable) ∧
    Stops (workshop (some (.text ":doos :A\n")) (some (.text "\x7b\"v\":\"1\",\"name\":1\x7d")))
      (.ofString ".") (.ofString "a.psp")
      (.artifact (.wrongFields .collection [⟨[.key "name"], .notText⟩])) ∧
    (∃ e, Stops occupied (.ofString ".") (.ofString "a.psp") (.files e)) ∧
    (∃ e, Stops locked (.ofString ".") (.ofString "a.psp") (.files e)) ∧
    ∃ e, Stops (IsLongStem.session longStem) (.ofString "src") (IsLongStem.source longStem)
      (.files e) := by
  have hwf {source? artifact? : Option Content}
      (h : ∀ entry ∈ (workshop source? artifact?).files.entries,
        (workshop source? artifact?).files.isDirectoryAt entry.1.dropLast = true) :
      (workshop source? artifact?).files.WellFormed := .of_entries h rfl
  refine ⟨⟨hwf (by decide +kernel), writable_of_store (by decide +kernel), ?_⟩,
    ⟨hwf (by decide +kernel), writable_of_store (by decide +kernel), ?_⟩,
    ⟨hwf (by decide +kernel), writable_of_store (by decide +kernel), ?_⟩,
    stops_occupied, stops_locked, (isLongStem_replicate (by decide) (by decide)).stops⟩
  · refine ⟨_, compileFiles_of_isUpToDate_error sourceKey_a ?_⟩
    rw [artifactPath_a]
    rfl
  · refine ⟨_, compileFiles_of_readArtifact_error sourceKey_a ?_ ?_ rfl⟩ <;> rw [artifactPath_a] <;> rfl
  · refine ⟨_, compileFiles_of_readArtifact_error sourceKey_a ?_ ?_ rfl⟩ <;> rw [artifactPath_a]
    · rfl
    · rw [readArtifact_of_readText rfl]
      exact congrArg (Except.mapError Failure.artifact) Collection.deserialize_numbered

end Runs

end ContextRoles.Workspace
