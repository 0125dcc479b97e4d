import ContextRoles.Proofs.Artifact.Typing
import ContextRoles.Proofs.Workspace.Compile
import ContextRoles.Proofs.Workspace.Key

/-! # How compiling fails

Compiling fails in words of its own, unless something is in the way of an artifact, an artifact is there
without its source, a file holds bytes that are no text, or an artifact is neither decoded nor refused.
-/

namespace ContextRoles.Workspace

open Files

variable {ids : Nat → String} {build root f file artifact : Path} {files : List Path} {key : String}
  {s t u : Session} {m : OrderedMap Collection} {c : Collection}

section Steps

variable {α β : Type} {x : Action α} {y : α → Action β} {a : α} {e : Failure}

theorem Action.bind_ok (h : x s = .ok a t) : (x >>= y) s = y a t := by
  show EStateM.bind x y s = y a t
  rw [EStateM.bind, h]

theorem Action.bind_error (h : x s = .error e t) : (x >>= y) s = .error e t := by
  show EStateM.bind x y s = .error e t
  rw [EStateM.bind, h]

theorem Action.get_bind (y : Session → Action β) (s : Session) : (get >>= y) s = y s s := rfl

theorem Action.log_bind (event : Event) (y : Unit → Action β) (s : Session) :
    (Action.log event >>= y) s = y () { s with notices := s.notices ++ [.event event] } := rfl

theorem Action.change_ok (failure : FileError → Failure)
    {f : FileTree → Except FileError Unit × FileTree} {files : FileTree}
    (h : f s.files = (.ok (), files)) : Action.change failure f s = .ok () { s with files } := by
  rw [Action.change, h]

theorem Action.change_error (failure : FileError → Failure)
    {f : FileTree → Except FileError Unit × FileTree} {files : FileTree} {e : FileError}
    (h : f s.files = (.error e, files)) :
    Action.change failure f s = .error (failure e) { s with files } := by
  rw [Action.change, h]

theorem Action.readSource_bind (ids : Nat → String) (text : String)
    (y : Except Parsing.ParseError Collection → Action β) (s : Session) :
    (Action.readSource ids text >>= y) s =
      y (Source.read ids s.drawn text).result
        { s with drawn := (Source.read ids s.drawn text).drawn } := rfl

end Steps

section Sources

theorem writeArtifact_eq (h : (s.files.store artifact (c.serialize .compact)).1 = .ok ()) :
    writeArtifact c artifact s =
      .ok () { s with files := (s.files.store artifact (c.serialize .compact)).2 } := by
  rw [writeArtifact]
  exact Action.change_ok _ (Prod.ext h rfl)

theorem compileSource_of_unreadable {e : FileError} (h : s.files.readText file = .error e)
    (he : e.isOfSystem = true) :
    compileSource ids file artifact s = .error (.compile (.unreadable file e)) s := by
  have hsource : readSourceFile file s = .error (.compile (.unreadable file e)) s := by
    rw [readSourceFile, h]
    simp only [he, if_true]
  rw [compileSource, Action.bind_error hsource]

variable (artifact) in
theorem compileSource_of_unparsable {text : String} {e : Parsing.ParseError}
    (h : s.files.readText file = .ok text)
    (hresult : (Source.read ids s.drawn text).result = .error e) :
    ∃ u, compileSource ids file artifact s = .error (.compile (.unparsable file e)) u ∧
      u.drawn = (Source.read ids s.drawn text).drawn ∧ u.files = s.files := by
  have hsource : readSourceFile file s = .ok text s := by rw [readSourceFile, h]
  rw [compileSource, Action.bind_ok hsource, Action.log_bind, Action.readSource_bind]
  dsimp only
  rw [hresult]
  exact ⟨_, rfl, rfl, rfl⟩

theorem compileSource_of_parsed {text : String} (h : s.files.readText file = .ok text)
    (hresult : (Source.read ids s.drawn text).result = .ok c)
    (hw : (s.files.store artifact (c.serialize .compact)).1 = .ok ()) :
    ∃ u, compileSource ids file artifact s = .ok c u ∧
      u.drawn = (Source.read ids s.drawn text).drawn ∧
      u.files = (s.files.store artifact (c.serialize .compact)).2 := by
  have hsource : readSourceFile file s = .ok text s := by rw [readSourceFile, h]
  rw [compileSource, Action.bind_ok hsource, Action.log_bind, Action.readSource_bind]
  dsimp only
  rw [hresult]
  exact ⟨_, Action.bind_ok (writeArtifact_eq hw), rfl, rfl⟩

theorem compileSource_of_unstorable {text : String} {e : FileError}
    (h : s.files.readText file = .ok text) (hresult : (Source.read ids s.drawn text).result = .ok c)
    (hw : (s.files.store artifact (c.serialize .compact)).1 = .error e) :
    ∃ u, compileSource ids file artifact s = .error (.files e) u := by
  have hsource : readSourceFile file s = .ok text s := by rw [readSourceFile, h]
  rw [compileSource, Action.bind_ok hsource, Action.log_bind, Action.readSource_bind]
  dsimp only
  rw [hresult]
  exact ⟨_, Action.bind_error (Action.change_error _ (Prod.ext hw rfl))⟩

end Sources

section Artifacts

variable [Artifact.FieldChecks]

/-- The collection that an artifact keeps for a source, if it is newer and can be decoded. -/
def kept? (t : FileTree) (file artifact : Path) : Option Collection :=
  match isUpToDate t file artifact with
  | .ok true => (readArtifact t artifact).toOption
  | _ => none

/-- The directory of an artifact can be made, and neither the artifact nor its source is a file that stops
compiling: where there is an artifact there is a source, and a newer artifact is text that is decoded or
refused. Unless it keeps a collection, the source is no file of other bytes than text, and nothing is in
the way of the artifact in its directory. -/
structure Passable (t : FileTree) (file artifact : Path) : Prop where
  directory : (t.ensureDirectory artifact.parent).1 = .ok ()
  sourced : t.exists? artifact = .ok true → ∃ entry, t.status file = .ok entry
  decodable : isUpToDate t file artifact = .ok true → t.readText artifact ≠ .error .undecodable
  settles : isUpToDate t file artifact = .ok true → ∀ text, t.readText artifact = .ok text →
    Artifact.Settles (Collection.deserialize text)
  readable : kept? t file artifact = none → t.readText file ≠ .error .undecodable
  admits : kept? t file artifact = none → t.Admits artifact

theorem isUpToDate_of_kept? {t : FileTree} (h : kept? t file artifact = some c) :
    isUpToDate t file artifact = .ok true ∧ readArtifact t artifact = .ok c := by
  unfold kept? at h
  split at h
  next hup =>
    cases hread : readArtifact t artifact with
    | error failure => simp [hread, Except.toOption] at h
    | ok c' =>
      rw [hread] at h
      cases h
      exact ⟨hup, rfl⟩
  · cases h

theorem kept?_of_readArtifact_error {t : FileTree} {failure : Failure}
    (h : readArtifact t artifact = .error failure) : kept? t file artifact = none := by
  rw [kept?, h]
  split <;> rfl

theorem Passable.writable {t : FileTree} (h : Passable t file artifact) (hwf : t.WellFormed)
    (hkept : kept? t file artifact = none) (text : String) : (t.store artifact text).1 = .ok () :=
  (h.admits hkept).store hwf h.directory text

theorem Passable.exists_isUpToDate {t : FileTree} (h : Passable t file artifact) (hwf : t.WellFormed) :
    ∃ upToDate, isUpToDate t file artifact = .ok upToDate := by
  cases hkept : kept? t file artifact with
  | some c => exact ⟨true, (isUpToDate_of_kept? hkept).1⟩
  | none =>
    obtain ⟨found, hfound⟩ := FileTree.exists?_of_store hwf (h.writable hwf hkept "")
    cases found with
    | false => exact ⟨false, by rw [isUpToDate, hfound]; rfl⟩
    | true =>
      obtain ⟨stored, hstored⟩ := FileTree.exists?_eq_true.mp hfound
      obtain ⟨source, hsource⟩ := h.sourced hfound
      exact ⟨_, by rw [isUpToDate, hfound, hstored, hsource]; rfl⟩

theorem exists_reasonToDiscard {t : FileTree} (h : Passable t file artifact)
    (hup : isUpToDate t file artifact = .ok true) {failure : Failure}
    (hread : readArtifact t artifact = .error failure) :
    ∃ reason, failure.reasonToDiscard? = some reason := by
  cases hr : t.readText artifact with
  | ok text =>
    rw [readArtifact_of_readText hr] at hread
    rcases h.settles hup text hr with ⟨c, hc⟩ | ⟨e, he, hrefusal⟩
    · rw [hc] at hread
      cases hread
    · rw [he] at hread
      cases hread
      cases e <;> first | exact ⟨_, rfl⟩ | exact hrefusal.elim
  | error e =>
    have hsystem := FileTree.isOfSystem_of_readText
      (FileTree.hasNull_of_objection? (h.admits (kept?_of_readArtifact_error hread)).possible)
      (h.decodable hup) hr
    rw [readArtifact, hr] at hread
    obtain rfl : failure = .files e := (Except.error.inj hread).symm
    exact ⟨_, if_pos hsystem⟩

theorem cached?_eq (h : Passable s.files file artifact) (hwf : s.files.WellFormed) :
    ∃ t, cached? file artifact s = .ok (kept? s.files file artifact) t ∧ Alike s t := by
  obtain ⟨upToDate, hup⟩ := h.exists_isUpToDate hwf
  have hquery : (Action.query fun t => isUpToDate t file artifact) s = .ok upToDate s := by
    rw [Action.query, hup]
  rw [cached?, Action.bind_ok hquery, kept?, hup]
  cases upToDate with
  | false => exact ⟨s, rfl, rfl, rfl⟩
  | true =>
    rw [if_pos rfl, Action.get_bind]
    cases hread : readArtifact s.files artifact with
    | ok c => exact ⟨_, rfl, rfl, rfl⟩
    | error failure =>
      obtain ⟨reason, hreason⟩ := exists_reasonToDiscard h hup hread
      simp only [hreason]
      exact ⟨_, rfl, rfl, rfl⟩

theorem Passable.readText_cases {t : FileTree} (h : Passable t file artifact)
    (hkept : kept? t file artifact = none) (hnull : file.hasNull = false) :
    (∃ text, t.readText file = .ok text) ∨
      ∃ e, t.readText file = .error e ∧ e.isOfSystem = true := by
  cases hread : t.readText file with
  | ok text => exact .inl ⟨text, rfl⟩
  | error e => exact .inr ⟨e, rfl, FileTree.isOfSystem_of_readText hnull (h.readable hkept) hread⟩

theorem compileSource_passes (h : Passable s.files file artifact)
    (hkept : kept? s.files file artifact = none) (hnull : file.hasNull = false)
    (hwf : s.files.WellFormed) :
    (∃ c t, compileSource ids file artifact s = .ok c t) ∨
      ∃ e t, compileSource ids file artifact s = .error (.compile e) t := by
  rcases h.readText_cases hkept hnull with ⟨text, htext⟩ | ⟨e, htext, he⟩
  · cases hresult : (Source.read ids s.drawn text).result with
    | error e =>
      obtain ⟨u, hu, -⟩ := compileSource_of_unparsable artifact htext hresult
      exact .inr ⟨_, u, hu⟩
    | ok c =>
      obtain ⟨u, hu, -⟩ := compileSource_of_parsed htext hresult (h.writable hwf hkept _)
      exact .inl ⟨c, u, hu⟩
  · exact .inr ⟨_, s, compileSource_of_unreadable htext he⟩

variable (ids) in
theorem compileFile_eq (h : Passable s.files file artifact) (hwf : s.files.WellFormed) :
    ∃ t, Alike s t ∧ compileFile ids file artifact s =
      match kept? s.files file artifact with
      | some c => .ok c t
      | none => compileSource ids file artifact t := by
  obtain ⟨t, ht, halike⟩ := cached?_eq h hwf
  refine ⟨t, halike, ?_⟩
  rw [compileFile, Action.bind_ok ht]
  cases kept? s.files file artifact <;> rfl

variable (ids) in
theorem compileFile_passes (h : Passable s.files file artifact) (hnull : file.hasNull = false)
    (hwf : s.files.WellFormed) :
    (∃ c t, compileFile ids file artifact s = .ok c t) ∨
      ∃ e t, compileFile ids file artifact s = .error (.compile e) t := by
  obtain ⟨t, halike, ht⟩ := compileFile_eq ids h hwf
  rw [ht]
  cases hkept : kept? s.files file artifact with
  | some c => exact .inl ⟨c, t, rfl⟩
  | none =>
    rw [← halike.files] at h hwf hkept
    exact compileSource_passes h hkept hnull hwf

end Artifacts

section Files

variable [Artifact.FieldChecks]

theorem compileInto_of_outside {failure : Failure}
    (hkey : sourceKey s.files.working f root = .error failure) :
    compileInto ids build root m (f :: files) s = .error failure s := by
  rw [compileInto, Action.get_bind, hkey]
  rfl

theorem compileInto_of_contains (hkey : sourceKey s.files.working f root = .ok key)
    (hm : m.contains key = true) :
    compileInto ids build root m (f :: files) s = compileInto ids build root m files s := by
  rw [compileInto, Action.get_bind, hkey]
  simp only [hm, if_true]

theorem compileInto_of_vacant (hkey : sourceKey s.files.working f root = .ok key)
    (hm : m.contains key = false) :
    compileInto ids build root m (f :: files) s =
      (compileFile ids f (artifactPath key build) >>= fun c =>
        compileInto ids build root (m.insert key c) files) s := by
  rw [compileInto, Action.get_bind, hkey]
  simp only [hm, Bool.false_eq_true, if_false]

/-- Compiling files comes to one of them that has a key which no file before it had. -/
def Reaches (ids : Nat → String) (build root : Path) (m : OrderedMap Collection) (files : List Path)
    (s : Session) (f : Path) (key : String) (u : Session) : Prop :=
  ∃ before after n, files = before ++ f :: after ∧ compileInto ids build root m before s = .ok n u ∧
    sourceKey u.files.working f root = .ok key ∧ n.contains key = false

variable (ids build files) in
theorem reaches_head (hkey : sourceKey s.files.working f root = .ok key) (hm : m.contains key = false) :
    Reaches ids build root m (f :: files) s f key s := ⟨[], files, m, rfl, rfl, hkey, hm⟩

variable {g : Path} {key' : String}

theorem Reaches.of_contains (h : Reaches ids build root m files s g key' u)
    (hkey : sourceKey s.files.working f root = .ok key) (hm : m.contains key = true) :
    Reaches ids build root m (f :: files) s g key' u := by
  obtain ⟨before, after, n, rfl, hrun, hreached⟩ := h
  exact ⟨f :: before, after, n, rfl, (compileInto_of_contains hkey hm).trans hrun, hreached⟩

theorem Reaches.of_vacant (h : Reaches ids build root (m.insert key c) files t g key' u)
    (hkey : sourceKey s.files.working f root = .ok key) (hm : m.contains key = false)
    (hc : compileFile ids f (artifactPath key build) s = .ok c t) :
    Reaches ids build root m (f :: files) s g key' u := by
  obtain ⟨before, after, n, rfl, hrun, hreached⟩ := h
  exact ⟨f :: before, after, n, rfl,
    (compileInto_of_vacant hkey hm).trans ((Action.bind_ok hc).trans hrun), hreached⟩

/-- Where every file that compiling comes to passes, it gives a result or fails with an error of its
own. -/
theorem compileInto_passes (hwf : s.files.WellFormed)
    (hroot : ∀ f ∈ files, f.resolve s.files.working ≠ root.resolve s.files.working)
    (hpass : ∀ f key u, Reaches ids build root m files s f key u →
      Passable u.files f (artifactPath key build)) :
    (∃ n t, compileInto ids build root m files s = .ok n t) ∨
      ∃ e t, compileInto ids build root m files s = .error (.compile e) t := by
  induction files generalizing m s with
  | nil => exact .inl ⟨m, s, rfl⟩
  | cons f files ih =>
    rw [List.forall_mem_cons] at hroot
    cases hkey : sourceKey s.files.working f root with
    | error failure =>
      rw [compileInto_of_outside hkey, sourceKey_error hroot.1 hkey]
      exact .inr ⟨_, s, rfl⟩
    | ok key =>
      cases hm : m.contains key with
      | true =>
        rw [compileInto_of_contains hkey hm]
        exact ih hwf hroot.2 fun g key' u h => hpass g key' u (h.of_contains hkey hm)
      | false =>
        have hfile := hpass f key s (reaches_head ids build files hkey hm)
        rw [compileInto_of_vacant hkey hm]
        rcases compileFile_passes ids hfile (hasNull_of_sourceKey hkey) hwf with
          ⟨c, t, hc⟩ | ⟨e, t, hc⟩
        · obtain ⟨ht, hworking⟩ := (compileFile_keeps ids f (artifactPath key build) hwf).ok hc
          rw [Action.bind_ok hc]
          exact ih ht (hworking ▸ hroot.2) fun g key' u h => hpass g key' u (h.of_vacant hkey hm hc)
        · rw [Action.bind_error hc]
          exact .inr ⟨e, t, rfl⟩

end Files

end ContextRoles.Workspace
