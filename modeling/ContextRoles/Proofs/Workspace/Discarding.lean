import ContextRoles.Proofs.Files.Omission
import ContextRoles.Proofs.Workspace.Failure

/-! # Artifacts that are discarded

An artifact that is not decoded makes no difference: files are compiled as if it were not there. Two
sessions are compared, of which the second one lacks such artifacts. Each file is compiled alike in
both, and afterwards neither of them lacks its artifact.
-/

namespace ContextRoles.Workspace

open Files

variable {ids : Nat → String} {build root f file artifact : Path} {files : List Path} {key : String}
  {s s' : Session} {m : OrderedMap Collection} {c : Collection}
  {omitted : Location → Content → Prop}

section Omitting

variable {t t' : FileTree}

section Times

theorem isUpToDate_congr (ha : t'.status artifact = t.status artifact)
    (hf : t'.status file = t.status file) :
    isUpToDate t' file artifact = isUpToDate t file artifact := by
  rw [isUpToDate, isUpToDate, FileTree.exists?_congr ha, ha, hf]

theorem exists?_of_isUpToDate {upToDate : Bool} (h : isUpToDate t file artifact = .ok upToDate) :
    ∃ found, t.exists? artifact = .ok found := by
  cases hfound : t.exists? artifact with
  | ok found => exact ⟨found, rfl⟩
  | error e =>
    rw [isUpToDate, hfound] at h
    cases h

theorem isUpToDate_of_absent (h : t.exists? artifact = .ok false) :
    isUpToDate t file artifact = .ok false := by
  rw [isUpToDate, h]
  rfl

end Times

variable [Artifact.FieldChecks]

def Undecoded (content : Content) : Prop :=
  ∀ raw, content = .text raw → ∀ c,
    Collection.deserialize (String.ofList (Text.unifyLineEnds raw.toList)) ≠ .ok c

theorem status_of_kept? (h : kept? t file artifact = some c) :
    ∃ raw modified, t.status artifact = .ok ⟨.file (.text raw), modified⟩ ∧
      Collection.deserialize (String.ofList (Text.unifyLineEnds raw.toList)) = .ok c := by
  obtain ⟨hup, hread⟩ := isUpToDate_of_kept? h
  obtain ⟨stored, -, hstored, -⟩ := isUpToDate_eq_true hup
  obtain ⟨text, htext, hc⟩ := readArtifact_eq_ok hread
  obtain ⟨raw, modified, hfile, rfl⟩ := FileTree.readText_eq_ok htext
  rw [FileTree.file?_eq_some, FileTree.status_eq_ok hstored] at hfile
  cases hfile
  exact ⟨raw, modified, hstored, hc⟩

theorem kept?_of_undecoded {content : Content} {modified : Int}
    (h : t.status artifact = .ok ⟨.file content, modified⟩) (hu : Undecoded content) :
    kept? t file artifact = none := by
  refine Option.eq_none_iff_forall_ne_some.mpr fun c hc => ?_
  obtain ⟨raw, modified, hstatus, hdecoded⟩ := status_of_kept? hc
  cases h.symm.trans hstatus
  exact hu raw rfl c hdecoded

theorem kept?_of_directory {modified : Int} (h : t.status artifact = .ok ⟨.directory, modified⟩) :
    kept? t file artifact = none := by
  refine Option.eq_none_iff_forall_ne_some.mpr fun c hc => ?_
  obtain ⟨raw, modified, hstatus, -⟩ := status_of_kept? hc
  cases h.symm.trans hstatus

theorem kept?_congr (ha : t'.status artifact = t.status artifact)
    (hf : t'.status file = t.status file) (hd : t'.denies = t.denies) :
    kept? t' file artifact = kept? t file artifact := by
  rw [kept?, kept?, isUpToDate_congr ha hf, readArtifact, readArtifact, FileTree.readText_congr ha hd]

theorem kept?_of_absent (h : t.exists? artifact = .ok false) : kept? t file artifact = none := by
  rw [kept?, isUpToDate_of_absent h]

/-- The artifact of a source in a tree that lacks some files: it is absent from both trees, it was left
out, or it and the source are the same in both. -/
theorem Passable.artifact_cases (h : Passable t file artifact) (hwf : t.WellFormed)
    (ho : FileTree.Omits omitted t t')
    (hsource : ∀ content, ¬ omitted (file.resolve t.working) content)
    (hfile : t.isDirectory? file ≠ .ok true) :
    (t.exists? artifact = .ok false ∧ t'.exists? artifact = .ok false) ∨
    (∃ content modified, t.status artifact = .ok ⟨.file content, modified⟩ ∧
      omitted (artifact.resolve t.working) content ∧ t'.exists? artifact = .ok false) ∨
    t'.status artifact = t.status artifact ∧ t'.status file = t.status file := by
  obtain ⟨upToDate, hup⟩ := h.exists_isUpToDate hwf
  obtain ⟨found, hfound⟩ := exists?_of_isUpToDate hup
  cases found with
  | false => exact .inl ⟨hfound, ho.exists?_false hfound⟩
  | true =>
    right
    obtain ⟨stored, hstored⟩ := FileTree.exists?_eq_true.mp hfound
    obtain ⟨source, hs⟩ := h.sourced hfound
    have hsame : t'.status file = t.status file := by
      obtain ⟨source', hc, hs'⟩ := ho.status_ok hs
      cases hc with
      | directory m m' => exact absurd (by rw [FileTree.isDirectory?, hs]; rfl) hfile
      | file content m => exact hs'.trans hs.symm
      | lost m hl => exact absurd hl (hsource _)
    obtain ⟨stored', hc, hstored'⟩ := ho.status_ok hstored
    cases hc with
    | directory m m' =>
      have hdir := FileTree.isDirectoryAt_of_store hwf
        (h.writable hwf (kept?_of_directory hstored) "")
      rw [FileTree.isDirectoryAt, FileTree.status_eq_ok hstored] at hdir
      cases hdir
    | file content m => exact .inr ⟨hstored'.trans hstored.symm, hsame⟩
    | lost m hl =>
      refine .inl ⟨_, m, hstored, hl, ?_⟩
      rw [FileTree.exists?, hstored']
      rfl

theorem Passable.of_absent (h : t.exists? artifact = .ok false)
    (hdir : (t.ensureDirectory artifact.parent).1 = .ok ())
    (hr : t.readText file ≠ .error .undecodable) (ha : t.Admits artifact) :
    Passable t file artifact where
  directory := hdir
  sourced he := by rw [h] at he; cases he
  decodable hup := by rw [isUpToDate_of_absent h] at hup; cases hup
  settles hup := by rw [isUpToDate_of_absent h] at hup; cases hup
  readable _ := hr
  admits _ := ha

/-- A source that passes does so without the files that are left out, and has the same collection kept
for it. -/
theorem Passable.omits (h : Passable t file artifact) (hwf : t.WellFormed)
    (ho : FileTree.Omits omitted t t')
    (hundecoded : ∀ place content, omitted place content → Undecoded content)
    (hsource : ∀ content, ¬ omitted (file.resolve t.working) content)
    (hfile : t.isDirectory? file ≠ .ok true) :
    Passable t' file artifact ∧ kept? t' file artifact = kept? t file artifact := by
  have hdir := (ho.ensureDirectory hwf h.directory).1
  have hadmits (hkept : kept? t file artifact = none) : t'.Admits artifact :=
    ho.admits hwf h.directory (h.admits hkept)
  have hreadable (hkept : kept? t file artifact = none) : t'.readText file ≠ .error .undecodable := by
    rcases ho.readText hsource with he | ⟨_, _, -, he⟩
    · rw [he]
      exact h.readable hkept
    · rw [he]
      nofun
  -- nothing is kept where the second tree lacks the artifact, so the source has to pass in both
  rcases h.artifact_cases hwf ho hsource hfile with ⟨he, he'⟩ | ⟨content, m, hs, hl, he'⟩ | ⟨ha, hf⟩
  · have hkept : kept? t file artifact = none := kept?_of_absent he
    exact ⟨.of_absent he' hdir (hreadable hkept) (hadmits hkept), by rw [hkept, kept?_of_absent he']⟩
  · have hkept : kept? t file artifact = none := kept?_of_undecoded hs (hundecoded _ _ hl)
    exact ⟨.of_absent he' hdir (hreadable hkept) (hadmits hkept), by rw [hkept, kept?_of_absent he']⟩
  · have hkept : kept? t' file artifact = kept? t file artifact := kept?_congr ha hf ho.denies
    refine ⟨⟨hdir, ?_, ?_, ?_, hkept ▸ hreadable, hkept ▸ hadmits⟩, hkept⟩
    · rw [FileTree.exists?_congr ha, hf]
      exact h.sourced
    · rw [isUpToDate_congr ha hf, FileTree.readText_congr ha ho.denies]
      exact h.decodable
    · rw [isUpToDate_congr ha hf, FileTree.readText_congr ha ho.denies]
      exact h.settles

end Omitting

section Comparing

variable {α : Type}

/-- Errors that say the same, except perhaps for why a source cannot be read. -/
inductive CompileError.Agrees : CompileError → CompileError → Prop where
  | same (e : CompileError) : Agrees e e
  | unreadable (file : Path) (error error' : FileError) :
      Agrees (.unreadable file error) (.unreadable file error')

/-- The second session lacks some files of the first one. Its log aside, it is the same otherwise. -/
structure Session.Omits (omitted : Location → Content → Prop) (s s' : Session) : Prop where
  files : FileTree.Omits omitted s.files s'.files
  drawn : s'.drawn = s.drawn

/-- Both runs give the same result, or both fail with an error of compiling. The sessions that they end
in are related. -/
inductive Comparable (R F : Session → Session → Prop) :
    EStateM.Result Failure Session α → EStateM.Result Failure Session α → Prop where
  | ok (a : α) {t t' : Session} (h : R t t') : Comparable R F (.ok a t) (.ok a t')
  | error {e e' : CompileError} (he : e.Agrees e') {t t' : Session} (h : F t t') :
      Comparable R F (.error (.compile e) t) (.error (.compile e') t')

variable [Artifact.FieldChecks]

variable (ids) in
theorem compileSource_comparable (h : Passable s.files file artifact)
    (hkept : kept? s.files file artifact = none) (hnull : file.hasNull = false)
    (hwf : s.files.WellFormed) (ho : s.Omits omitted s')
    (hsource : ∀ content, ¬ omitted (file.resolve s.files.working) content) :
    Comparable
      (Session.Omits fun place content =>
        place ≠ artifact.resolve s.files.working ∧ omitted place content)
      (Session.Omits omitted) (compileSource ids file artifact s)
      (compileSource ids file artifact s') := by
  rcases h.readText_cases hkept hnull with ⟨text, htext⟩ | ⟨e, htext, he⟩
  · have htext' : s'.files.readText file = .ok text := by
      rcases ho.files.readText hsource with he | ⟨_, _, he, -⟩
      · rw [he, htext]
      · rw [htext] at he
        cases he
    cases hresult : (Source.read ids s.drawn text).result with
    | error e =>
      obtain ⟨u, hu, hdrawn, hfiles⟩ :=
        compileSource_of_unparsable artifact htext hresult
      rw [← ho.drawn] at hresult
      obtain ⟨u', hu', hdrawn', hfiles'⟩ :=
        compileSource_of_unparsable artifact htext' hresult
      rw [hu, hu']
      exact .error (.same _)
        ⟨by rw [hfiles, hfiles']; exact ho.files, by rw [hdrawn, hdrawn', ho.drawn]⟩
    | ok c =>
      have hw := h.writable hwf hkept (c.serialize .compact)
      obtain ⟨hw', hstore⟩ := ho.files.store hwf hw
      obtain ⟨u, hu, hdrawn, hfiles⟩ := compileSource_of_parsed htext hresult hw
      rw [← ho.drawn] at hresult
      obtain ⟨u', hu', hdrawn', hfiles'⟩ := compileSource_of_parsed htext' hresult hw'
      rw [hu, hu']
      exact .ok c ⟨by rw [hfiles, hfiles']; exact hstore, by rw [hdrawn, hdrawn', ho.drawn]⟩
  · obtain ⟨e', htext', he'⟩ : ∃ e', s'.files.readText file = .error e' ∧ e'.isOfSystem = true := by
      rcases ho.files.readText hsource with hsame | ⟨_, fault', -, hrefused⟩
      · exact ⟨e, by rw [hsame, htext], he⟩
      · exact ⟨.refused fault' file, hrefused, rfl⟩
    rw [compileSource_of_unreadable htext he, compileSource_of_unreadable htext' he']
    exact .error (.unreadable _ _ _) ho

variable (ids) in
theorem compileFile_comparable (h : Passable s.files file artifact) (hnull : file.hasNull = false)
    (hwf : s.files.WellFormed) (ho : s.Omits omitted s')
    (hundecoded : ∀ place content, omitted place content → Undecoded content)
    (hsource : ∀ content, ¬ omitted (file.resolve s.files.working) content)
    (hfile : s.files.isDirectory? file ≠ .ok true) :
    Comparable
      (Session.Omits fun place content =>
        place ≠ artifact.resolve s.files.working ∧ omitted place content)
      (Session.Omits omitted) (compileFile ids file artifact s) (compileFile ids file artifact s') := by
  obtain ⟨h', hkept⟩ := h.omits hwf ho.files hundecoded hsource hfile
  obtain ⟨t, halike, ht⟩ := compileFile_eq ids h hwf
  obtain ⟨t', halike', ht'⟩ := compileFile_eq ids h' (ho.files.wellFormed hwf)
  have hot : t.Omits omitted t' :=
    ⟨by rw [halike.files, halike'.files]; exact ho.files, by rw [halike'.drawn, ho.drawn, halike.drawn]⟩
  rw [ht, ht', hkept]
  cases hc : kept? s.files file artifact with
  | none =>
    have hcompiled := compileSource_comparable ids (halike.files ▸ h) (halike.files ▸ hc) hnull
      (halike.files ▸ hwf) hot (halike.files ▸ hsource)
    rw [halike.files] at hcompiled
    exact hcompiled
  | some c =>
    refine .ok c ⟨?_, hot.drawn⟩
    rw [halike.files, halike'.files]
    refine ho.files.restrict ?_
    have hstatus : s'.files.status artifact = s.files.status artifact := by
      rcases h.artifact_cases hwf ho.files hsource hfile with ⟨he, -⟩ | ⟨_, _, hs, hl, -⟩ | ⟨ha, -⟩
      · simp [kept?_of_absent he] at hc
      · simp [kept?_of_undecoded hs (hundecoded _ _ hl)] at hc
      · exact ha
    obtain ⟨_, _, hstored, -⟩ := status_of_kept? hc
    have hplace := FileTree.status_eq_ok (hstatus.trans hstored)
    rw [ho.files.working] at hplace
    rw [hplace, FileTree.status_eq_ok hstored]

end Comparing

section Files

theorem Session.Omits.mono {omitted' : Location → Content → Prop} (h : s.Omits omitted s')
    (ho : ∀ place content, omitted place content → omitted' place content) : s.Omits omitted' s' :=
  ⟨h.files.mono ho, h.drawn⟩

theorem Comparable.imp {α : Type} {R F R' F' : Session → Session → Prop}
    {r r' : EStateM.Result Failure Session α} (h : Comparable R F r r') (hR : ∀ t t', R t t' → R' t t')
    (hF : ∀ t t', F t t' → F' t t') : Comparable R' F' r r' := by
  cases h with
  | ok a h => exact .ok a (hR _ _ h)
  | error he h => exact .error he (hF _ _ h)

/-- Behind comparable runs that give a result, two sessions are related for what comes next. -/
theorem Comparable.bind {α β : Type} {R F R' F' : Session → Session → Prop} {x : Action α}
    {y : α → Action β} (h : Comparable R F (x s) (x s'))
    (hy : ∀ a t t', x s = .ok a t → R t t' → Comparable R' F' (y a t) (y a t'))
    (hF : ∀ t t', F t t' → F' t t') : Comparable R' F' ((x >>= y) s) ((x >>= y) s') := by
  generalize hrun : x s = r at h
  generalize hrun' : x s' = r' at h
  cases h with
  | ok a ht =>
    rw [Action.bind_ok hrun, Action.bind_ok hrun']
    exact hy a _ _ hrun ht
  | error he ht =>
    rw [Action.bind_error hrun, Action.bind_error hrun']
    exact .error he (hF _ _ ht)

/-- What is omitted still when the artifacts of the files were stored. -/
def Remaining (omitted : Location → Content → Prop) (working : Location) (build root : Path)
    (files : List Path) (place : Location) (content : Content) : Prop :=
  omitted place content ∧ ∀ f ∈ files, ∀ key, sourceKey working f root = .ok key →
    place ≠ (artifactPath key build).resolve working

theorem Remaining.cons {working place : Location} {content : Content}
    (hkey : sourceKey working f root = .ok key) (hplace : omitted place content)
    (hne : place ≠ (artifactPath key build).resolve working)
    (hfiles : ∀ g ∈ files, ∀ key', sourceKey working g root = .ok key' →
      place ≠ (artifactPath key' build).resolve working) :
    Remaining omitted working build root (f :: files) place content := by
  refine ⟨hplace, List.forall_mem_cons.mpr ⟨fun key' hkey' => ?_, hfiles⟩⟩
  obtain rfl := Except.ok.inj (hkey.symm.trans hkey')
  exact hne

variable [Artifact.FieldChecks]

theorem compileInto_comparable (hwf : s.files.WellFormed)
    (hroot : ∀ f ∈ files, f.resolve s.files.working ≠ root.resolve s.files.working)
    (hpass : ∀ f key u, Reaches ids build root m files s f key u →
      Passable u.files f (artifactPath key build))
    (hfile : ∀ f key u, Reaches ids build root m files s f key u → u.files.isDirectory? f ≠ .ok true)
    (ho : s.Omits omitted s') (hundecoded : ∀ place content, omitted place content → Undecoded content)
    (hsource : ∀ f ∈ files, ∀ content, ¬ omitted (f.resolve s.files.working) content)
    (hm : ∀ key, m.contains key = true → ∀ content,
      ¬ omitted ((artifactPath key build).resolve s.files.working) content) :
    Comparable (Session.Omits (Remaining omitted s.files.working build root files))
      (Session.Omits omitted) (compileInto ids build root m files s)
      (compileInto ids build root m files s') := by
  -- Each step leaves less omitted: a key of the map is one whose artifact neither session lacks, which
  -- is what allows a file to be skipped for its key.
  induction files generalizing m s s' omitted with
  | nil => exact .ok m (ho.mono fun place content h => ⟨h, nofun⟩)
  | cons f files ih =>
    rw [List.forall_mem_cons] at hroot hsource
    have hworking := ho.files.working
    cases hkey : sourceKey s.files.working f root with
    | error failure =>
      have hkey' : sourceKey s'.files.working f root = .error failure := by rw [hworking, hkey]
      rw [compileInto_of_outside hkey, compileInto_of_outside hkey', sourceKey_error hroot.1 hkey]
      exact .error (.same _) ho
    | ok key =>
      have hkey' : sourceKey s'.files.working f root = .ok key := by rw [hworking, hkey]
      cases hc : m.contains key with
      | true =>
        rw [compileInto_of_contains hkey hc, compileInto_of_contains hkey' hc]
        refine (ih hwf hroot.2 (fun g key' u h => hpass g key' u (h.of_contains hkey hc))
          (fun g key' u h => hfile g key' u (h.of_contains hkey hc)) ho hundecoded hsource.2 hm).imp
          (fun t t' h => h.mono ?_) fun _ _ h => h
        rintro place content ⟨hplace, hfiles⟩
        exact .cons hkey hplace (fun he => hm key hc content (he ▸ hplace)) hfiles
      | false =>
        have hreach := reaches_head ids build files hkey hc
        have hfirst := compileFile_comparable ids (hpass f key s hreach)
          (hasNull_of_sourceKey hkey) hwf ho hundecoded hsource.1 (hfile f key s hreach)
        rw [compileInto_of_vacant hkey hc, compileInto_of_vacant hkey' hc]
        refine hfirst.bind (fun c t t' hrun h => ?_) fun _ _ h => h
        obtain ⟨ht, hsame⟩ := (compileFile_keeps ids f (artifactPath key build) hwf).ok hrun
        have hrest := ih (m := m.insert key c) ht (hsame ▸ hroot.2)
          (fun g key' u h => hpass g key' u (h.of_vacant hkey hc hrun))
          (fun g key' u h => hfile g key' u (h.of_vacant hkey hc hrun)) h
          (fun place content h => hundecoded place content h.2)
          (by rw [hsame]; exact fun g hg content h => hsource.2 g hg content h.2) ?_
        · refine hrest.imp (fun u u' hu => hu.mono ?_) fun u u' hu => hu.mono fun _ _ h => h.2
          rw [hsame]
          rintro place content ⟨⟨hne, hplace⟩, hfiles⟩
          exact .cons hkey hplace hne hfiles
        · rw [hsame]
          intro key' hkey' content hplace
          rcases OrderedMap.contains_insert.mp hkey' with rfl | hkey'
          · exact hplace.1 rfl
          · exact hm key' hkey' content hplace.2

/-- The place of the artifact of one of the files. -/
def IsArtifactPlace (working : Location) (build root : Path) (files : List Path) (place : Location) :
    Prop :=
  ∃ f ∈ files, ∃ key, sourceKey working f root = .ok key ∧
    (artifactPath key build).resolve working = place

/-- An artifact of one of the files that is not decoded. -/
def Discardable (working : Location) (build root : Path) (files : List Path) (place : Location)
    (content : Content) : Prop :=
  IsArtifactPlace working build root files place ∧ Undecoded content

/-- Where every file that compiling comes to passes, in a file tree without links, it gives a result or
fails with an error of its own. What it does is what it does without the artifacts that are not decoded,
whatever they hold and however new they are: it gives the same and writes the same, or fails with such an
error in both cases. -/
theorem compileFiles_comparable (hwf : s.files.WellFormed)
    (hroot : ∀ f ∈ files, f.resolve s.files.working ≠ root.resolve s.files.working)
    (hpass : ∀ f key u, Reaches ids build root .empty files s f key u →
      Passable u.files f (artifactPath key build)) :
    ((∃ m t, compileFiles ids files build root s = .ok m t) ∨
      ∃ e t, compileFiles ids files build root s = .error (.compile e) t) ∧
    ∀ s', s.Omits (Discardable s.files.working build root files) s' →
      (∀ f ∈ files, ¬ IsArtifactPlace s.files.working build root files (f.resolve s.files.working)) →
      (∀ f key u, Reaches ids build root .empty files s f key u → u.files.isDirectory? f ≠ .ok true) →
      Comparable
        (fun t t' => t'.drawn = t.drawn ∧ ∀ place, t'.files.file? place = t.files.file? place)
        (Session.Omits (Discardable s.files.working build root files))
        (compileFiles ids files build root s) (compileFiles ids files build root s') := by
  refine ⟨compileInto_passes hwf hroot hpass, fun s' ho hsource hfile => ?_⟩
  refine (compileInto_comparable (m := .empty) hwf hroot hpass hfile ho (fun _ _ h => h.2)
    (fun f hf _ h => hsource f hf h.1) nofun).imp (fun t t' h => ⟨h.drawn, fun place => ?_⟩)
    fun _ _ h => h
  refine h.files.file?_eq ?_
  rintro content ⟨⟨⟨f, hf, key, hkey, hplace⟩, -⟩, hremaining⟩
  exact hremaining f hf key hkey hplace.symm

end Files

section Runs

/-- A source and an artifact that is newer, if they are there. -/
def workshop (source? artifact? : Option Content) : Session where
  files :=
    { entries := (source?.map fun content => (["a.psp"], ⟨.file content, 0⟩)).toList ++
        (["build"], ⟨.directory, 1⟩) ::
        (artifact?.map fun content => (["build", "a.psp.json"], ⟨.file content, 1⟩)).toList
      nodup := by cases source? <;> cases artifact? <;> simp
      now := 2 }

theorem sourceKey_a : sourceKey [] (.ofString "a.psp") (.ofString ".") = .ok "a" :=
  Source.result_eq_ok (by decide +kernel)

theorem artifactPath_a : artifactPath "a" (.ofString "build") = .ofString "build/a.psp.json" := by
  decide +kernel

theorem reaches_singleton {g : Path} (h : Reaches ids build root m [f] s g key u) : g = f ∧ u = s := by
  obtain ⟨before, after, n, hfiles, hrun, -⟩ := h
  rcases before with _ | ⟨_, _ | _⟩
  · cases hfiles
    cases hrun
    exact ⟨rfl, rfl⟩
  · cases hfiles
  · cases hfiles

theorem omits_workshop (source? : Option Content) {content : Content}
    (h : omitted ["build", "a.psp.json"] content) :
    (workshop source? (some content)).Omits omitted (workshop source? none) := by
  refine ⟨⟨⟨rfl, rfl, rfl⟩, fun place => ?_⟩, rfl⟩
  by_cases hplace : place = ["build", "a.psp.json"]
  · subst hplace
    cases source? <;> exact .lost 1 h
  · have hsame : (workshop source? none).files.get? place =
        (workshop source? (some content)).files.get? place := by
      cases place with
      | nil => rfl
      | cons name names =>
        have hne := beq_false_of_ne hplace
        show List.lookup _ _ = List.lookup _ _
        simp only [workshop, Option.map_some, Option.map_none, Option.toList_some, Option.toList_none,
          List.lookup_append, List.lookup_cons, List.lookup_nil, hne]
    rw [hsame]
    exact .refl _ _

def spoiled : Session := workshop (some (.text ":doos :A\n")) (some (.text "x"))

def cleared : Session := workshop (some (.text ":doos :A\n")) none

theorem readText_spoiled : spoiled.files.readText (.ofString "build/a.psp.json") = .ok "x" :=
  Source.result_eq_ok (by decide +kernel)

theorem passable_spoiled :
    Passable spoiled.files (.ofString "a.psp") (.ofString "build/a.psp.json") where
  directory := Source.result_eq_ok (by decide +kernel)
  admits _ := ⟨by decide +kernel, by decide +kernel, by decide +kernel, rfl⟩
  sourced _ := ⟨_, rfl⟩
  readable _ h := by
    have hread : spoiled.files.readText (.ofString "a.psp") = .ok ":doos :A\n" :=
      Source.result_eq_ok (by decide +kernel)
    rw [hread] at h
    cases h
  decodable _ h := by
    rw [readText_spoiled] at h
    cases h
  settles _ text htext := by
    rw [readText_spoiled] at htext
    cases htext
    exact Collection.settles_of_parse_error (e := ⟨.expectedValue, 0⟩) rfl

theorem isArtifactPlace_spoiled {place : Location} :
    IsArtifactPlace [] (.ofString "build") (.ofString ".") [.ofString "a.psp"] place ↔
      place = ["build", "a.psp.json"] := by
  have hplace : (artifactPath "a" (.ofString "build")).resolve [] = ["build", "a.psp.json"] := by
    decide +kernel
  constructor
  · rintro ⟨f, hf, key, hkey, rfl⟩
    rw [List.mem_singleton.mp hf, sourceKey_a] at hkey
    rw [← Except.ok.inj hkey, hplace]
  · rintro rfl
    exact ⟨_, List.mem_singleton.mpr rfl, "a", sourceKey_a, hplace⟩

theorem compileFiles_comparable_spoiled :
    spoiled.files.WellFormed ∧
    (∀ f ∈ [Path.ofString "a.psp"], f.resolve [] ≠ (Path.ofString ".").resolve []) ∧
    (∀ f key u, Reaches Source.tally (.ofString "build") (.ofString ".") .empty [.ofString "a.psp"]
      spoiled f key u → Passable u.files f (artifactPath key (.ofString "build"))) ∧
    spoiled.Omits (Discardable [] (.ofString "build") (.ofString ".") [.ofString "a.psp"]) cleared ∧
    Comparable
      (fun t t' => t'.drawn = t.drawn ∧ ∀ place, t'.files.file? place = t.files.file? place)
      (Session.Omits (Discardable [] (.ofString "build") (.ofString ".") [.ofString "a.psp"]))
      (compileFiles Source.tally [.ofString "a.psp"] (.ofString "build") (.ofString ".") spoiled)
      (compileFiles Source.tally [.ofString "a.psp"] (.ofString "build") (.ofString ".") cleared) ∧
    ((compileFiles Source.tally [.ofString "a.psp"] (.ofString "build") (.ofString ".")).run'
      spoiled).map OrderedMap.keys = some ["a"] := by
  have hwf : spoiled.files.WellFormed := .of_entries (by decide +kernel) rfl
  have hroot : ∀ f ∈ [Path.ofString "a.psp"], f.resolve [] ≠ (Path.ofString ".").resolve [] := by
    decide +kernel
  have hpass : ∀ f key u, Reaches Source.tally (.ofString "build") (.ofString ".") .empty
      [.ofString "a.psp"] spoiled f key u →
        Passable u.files f (artifactPath key (.ofString "build")) := by
    intro f key u h
    obtain ⟨rfl, rfl⟩ := reaches_singleton h
    obtain ⟨-, -, -, -, -, hkey, -⟩ := h
    obtain rfl := Except.ok.inj (sourceKey_a.symm.trans hkey)
    exact artifactPath_a ▸ passable_spoiled
  have hundecoded : Undecoded (.text "x") := by
    rintro _ ⟨⟩ c hc
    have hnone : (Collection.deserialize
      (String.ofList (Text.unifyLineEnds "x".toList))).toOption = none := by decide +kernel
    rw [hc] at hnone
    cases hnone
  have homits : spoiled.Omits
      (Discardable [] (.ofString "build") (.ofString ".") [.ofString "a.psp"]) cleared :=
    omits_workshop _ ⟨isArtifactPlace_spoiled.mpr rfl, hundecoded⟩
  refine ⟨hwf, hroot, hpass, homits, ?_, by decide +kernel⟩
  refine (compileFiles_comparable hwf hroot hpass).2 cleared homits ?_ ?_
  · intro f hf hplace
    rw [List.mem_singleton.mp hf] at hplace
    exact absurd (isArtifactPlace_spoiled.mp hplace) (by decide +kernel)
  · intro f key u h
    obtain ⟨rfl, rfl⟩ := reaches_singleton h
    have hfile : spoiled.files.isDirectory? (.ofString "a.psp") = .ok false := rfl
    rw [hfile]
    nofun

end Runs

end ContextRoles.Workspace
