import ContextRoles.Proofs.Artifact.RoundTrip
import ContextRoles.Proofs.Files.Tree
import ContextRoles.Proofs.Json.Printable
import ContextRoles.Proofs.Source.Keying
import ContextRoles.Workspace.Compile

/-! # What compiling a file does

Compiling a file either takes the artifact, which leaves everything as it is, or reads the source and
stores what it is read as. Where it fails, every file is as it was.
-/

namespace ContextRoles.Workspace

open Files

section Logic

variable {α β : Type} {x : Action α} {f : α → Action β} {s : Session} {P : α → Session → Prop}
  {Q : β → Session → Prop} {F : Session → Prop}

/-- An action that starts in `s` meets one condition when it succeeds and another one when it fails. -/
def Action.Meets (x : Action α) (s : Session) (P : α → Session → Prop) (F : Session → Prop) : Prop :=
  match x s with
  | .ok a t => P a t
  | .error _ t => F t

namespace Action.Meets

theorem imp {P' : α → Session → Prop} {F' : Session → Prop} (h : x.Meets s P F)
    (hP : ∀ a t, P a t → P' a t) (hF : ∀ t, F t → F' t) : x.Meets s P' F' := by
  unfold Meets at h ⊢
  split at h
  · exact hP _ _ h
  · exact hF _ h

theorem ok {a : α} {t : Session} (h : x.Meets s P F) (hx : x s = .ok a t) : P a t := by
  rwa [Meets, hx] at h

theorem error {e : Failure} {t : Session} (h : x.Meets s P F) (hx : x s = .error e t) : F t := by
  rwa [Meets, hx] at h

theorem bind (h : x.Meets s P F) (hf : ∀ a t, P a t → (f a).Meets t Q F) : (x >>= f).Meets s Q F := by
  unfold Meets at h
  show match EStateM.bind x f s with | .ok b t => Q b t | .error _ t => F t
  unfold EStateM.bind
  split at h
  next hx =>
    rw [hx]
    exact hf _ _ h
  next hx =>
    rw [hx]
    exact h

theorem pure {a : α} (h : P a s) : (Pure.pure a : Action α).Meets s P F := h

theorem throw {e : Failure} (h : F s) : (MonadExcept.throw e : Action α).Meets s P F := h

theorem get_bind {f : Session → Action β} (h : (f s).Meets s Q F) : (get >>= f).Meets s Q F := h

theorem log_bind {event : Event} {f : Unit → Action β}
    (h : ∀ t : Session, t.files = s.files → t.drawn = s.drawn → (f ()).Meets t Q F) :
    (Action.log event >>= f).Meets s Q F := h _ rfl rfl

theorem readSource_bind {ids : Nat → String} {text : String}
    {f : Except Parsing.ParseError Collection → Action β}
    (h : ∀ result (t : Session), Source.read ids s.drawn text = ⟨result, t.drawn⟩ →
      t.files = s.files → (f result).Meets t Q F) :
    (Action.readSource ids text >>= f).Meets s Q F := h _ _ rfl rfl

theorem query {ask : FileTree → Except FileError α} (hok : ∀ a, ask s.files = .ok a → P a s)
    (herror : F s) : (Action.query ask).Meets s P F := by
  unfold Meets Action.query
  cases ha : ask s.files with
  | ok a => exact hok a ha
  | error e => exact herror

end Action.Meets

attribute [irreducible] Action.Meets

end Logic

section Specifications

variable {ids : Nat → String} {file artifact : Path} {s t : Session} {c : Collection}

/-- Sessions with the same files and ids, whatever was reported. -/
structure Alike (s t : Session) : Prop where
  files : t.files = s.files
  drawn : t.drawn = s.drawn

theorem Alike.prepares (ha : Alike s t) (h : s.files.WellFormed) : s.files.Prepares t.files := by
  rw [ha.files]
  exact .refl h

/-- Looking for an artifact changes nothing, and what it gives was read from one that is newer. -/
theorem cached?_meets [Artifact.FieldChecks] (file artifact : Path) (s : Session) :
    (cached? file artifact).Meets s
      (fun c? t => Alike s t ∧ ∀ c, c? = some c →
        isUpToDate s.files file artifact = .ok true ∧ readArtifact s.files artifact = .ok c)
      (Alike s) := by
  have nothing (t : Session) (h : Alike s t) : (pure none : Action (Option Collection)).Meets t
      (fun c? t => Alike s t ∧ ∀ c, c? = some c →
        isUpToDate s.files file artifact = .ok true ∧ readArtifact s.files artifact = .ok c)
      (Alike s) := .pure ⟨h, nofun⟩
  unfold cached?
  refine .bind (P := fun upToDate t => isUpToDate s.files file artifact = .ok upToDate ∧ t = s)
    (.query (fun upToDate h => ⟨h, rfl⟩) ⟨rfl, rfl⟩) ?_
  rintro (_ | _) t ⟨hup, rfl⟩
  · exact nothing t ⟨rfl, rfl⟩
  · rw [if_pos rfl]
    refine .get_bind ?_
    split
    next c hread =>
      refine .log_bind fun u hfiles hdrawn => .pure ⟨⟨hfiles, hdrawn⟩, ?_⟩
      rintro _ ⟨⟩
      exact ⟨hup, hread⟩
    next failure hread =>
      split
      · exact .log_bind fun u hfiles hdrawn => nothing u ⟨hfiles, hdrawn⟩
      · exact .throw ⟨rfl, rfl⟩

theorem readSourceFile_meets (file : Path) (h : s.files.WellFormed) :
    (readSourceFile file).Meets s (fun text t => s.files.readText file = .ok text ∧ t = s)
      (fun t => s.files.Prepares t.files ∧ s.drawn ≤ t.drawn) := by
  unfold Action.Meets readSourceFile
  cases hr : s.files.readText file with
  | ok text => exact ⟨rfl, rfl⟩
  | error e => exact ⟨.refl h, Nat.le_refl _⟩

theorem writeArtifact_meets (c : Collection) (path : Path) (h : s.files.WellFormed) :
    (writeArtifact c path).Meets s
      (fun _ t => s.files.Stores (path.resolve s.files.working) (c.serialize .compact) t.files ∧
        t.drawn = s.drawn)
      (fun t => s.files.Prepares t.files ∧ t.drawn = s.drawn) := by
  have hcases := FileTree.store_cases h path (c.serialize .compact)
  unfold Action.Meets writeArtifact Action.change
  dsimp only
  cases hs : s.files.store path (c.serialize .compact) with
  | mk result files =>
    rw [hs] at hcases
    rcases hcases with ⟨e, rfl, hprepares⟩ | ⟨rfl, hstores⟩
    · exact ⟨hprepares, rfl⟩
    · exact ⟨hstores, rfl⟩

theorem compileSource_meets (ids : Nat → String) (file artifact : Path) (h : s.files.WellFormed) :
    (compileSource ids file artifact).Meets s
      (fun c t => ∃ text, s.files.readText file = .ok text ∧
        Source.read ids s.drawn text = ⟨.ok c, t.drawn⟩ ∧
        s.files.Stores (artifact.resolve s.files.working) (c.serialize .compact) t.files)
      (fun t => s.files.Prepares t.files ∧ s.drawn ≤ t.drawn) := by
  unfold compileSource
  refine .bind (readSourceFile_meets file h) ?_
  rintro text t ⟨htext, rfl⟩
  refine .log_bind fun u hfiles hdrawn => ?_
  refine .readSource_bind fun result v hread hv => ?_
  rw [hdrawn] at hread
  rw [hfiles] at hv
  have hle : t.drawn ≤ v.drawn := by
    have hle := Source.drawn_le_read ids t.drawn text
    rwa [hread] at hle
  cases result with
  | error e =>
    refine .throw ?_
    rw [hv]
    exact ⟨.refl h, hle⟩
  | ok c =>
    have hwrite := writeArtifact_meets (s := v) c artifact (hv ▸ h)
    rw [hv] at hwrite
    refine .bind (hwrite.imp (fun _ _ h => h) fun w hw => ⟨hw.1, hw.2 ▸ hle⟩) ?_
    rintro _ w ⟨hstores, hdrawn⟩
    refine .log_bind fun x hfiles hdrawn' => .pure ⟨text, htext, ?_, ?_⟩
    · rw [hdrawn', hdrawn]
      exact hread
    · rw [hfiles]
      exact hstores

/-- Compiling a file keeps everything in directories, and paths start where they did. -/
theorem compileFile_keeps [Artifact.FieldChecks] (ids : Nat → String) (file artifact : Path)
    (h : s.files.WellFormed) :
    (compileFile ids file artifact).Meets s
      (fun _ t => t.files.WellFormed ∧ t.files.working = s.files.working) fun _ => True := by
  unfold compileFile
  refine .bind ((cached?_meets file artifact s).imp (fun _ _ h => h) fun _ _ => trivial) ?_
  rintro c? t ⟨ha, -⟩
  have hp := ha.prepares h
  cases c? with
  | some c => exact .pure ⟨hp.wellFormed, hp.working⟩
  | none =>
    refine (compileSource_meets ids file artifact hp.wellFormed).imp ?_ fun _ _ => trivial
    rintro c u ⟨-, -, -, hstores⟩
    exact ⟨hstores.wellFormed, hstores.working.trans hp.working⟩

end Specifications

section Artifacts

variable {t : FileTree} {file artifact : Path} {c : Collection}

theorem isUpToDate_eq_true (h : isUpToDate t file artifact = .ok true) :
    ∃ stored source, t.status artifact = .ok stored ∧ t.status file = .ok source ∧
      source.modified < stored.modified := by
  unfold isUpToDate FileTree.exists? at h
  cases ha : t.status artifact with
  | error e =>
    rw [ha] at h
    rcases e with ⟨_ | _ | _ | _ | _, _⟩ | _ | _ | _ <;> cases h
  | ok stored =>
    cases hf : t.status file with
    | error e =>
      rw [ha, hf] at h
      cases h
    | ok source =>
      rw [ha, hf] at h
      exact ⟨stored, source, rfl, rfl, of_decide_eq_true (Except.ok.inj h)⟩

variable [Artifact.FieldChecks]

theorem readArtifact_of_readText {text : String} (h : t.readText artifact = .ok text) :
    readArtifact t artifact = (Collection.deserialize text).mapError .artifact := by
  rw [readArtifact, h]
  rfl

theorem readArtifact_eq_ok (h : readArtifact t artifact = .ok c) :
    ∃ text, t.readText artifact = .ok text ∧ Collection.deserialize text = .ok c := by
  cases hread : t.readText artifact with
  | error e =>
    rw [readArtifact, hread] at h
    cases h
  | ok text =>
    rw [readArtifact_of_readText hread] at h
    exact ⟨text, rfl, FileTree.mapError_eq_ok.mp h⟩

theorem deserialize_unifyLineEnds [Artifact.LawfulFieldChecks] (hkeyed : Source.Keyed c.entities) :
    Collection.deserialize (String.ofList (Text.unifyLineEnds (c.serialize .compact).toList)) = .ok c := by
  have hplain : PlainText (c.serialize .compact).toList := (Artifact.exact_encode c).plainText 0
  rw [hplain.unifyLineEnds_eq, String.ofList_toList]
  exact Collection.deserialize_serialize (Source.keyed_iff.mp hkeyed) _

theorem readArtifact_of_status [Artifact.LawfulFieldChecks] (hkeyed : Source.Keyed c.entities)
    (hgranted : t.denies .read artifact = false) {modified : Int}
    (h : t.status artifact = .ok ⟨.file (.text (c.serialize .compact)), modified⟩) :
    readArtifact t artifact = .ok c := by
  rw [readArtifact_of_readText (FileTree.readText_of_status hgranted h),
    deserialize_unifyLineEnds hkeyed]
  rfl

theorem compileFiles_of_isUpToDate (ids : Nat → String) {build root : Path} {s : Session} {key : String}
    (hkey : sourceKey s.files.working file root = .ok key)
    (hup : isUpToDate s.files file (artifactPath key build) = .ok true)
    (hread : readArtifact s.files (artifactPath key build) = .ok c) :
    (compileFiles ids [file] build root).Meets s
      (fun m t => m = .insert .empty key c ∧ Alike s t) fun _ => False := by
  have hquery : (Action.query fun t => isUpToDate t file (artifactPath key build)).Meets s
      (fun upToDate t => upToDate = true ∧ t = s) fun _ => False := by
    rw [Action.Meets, Action.query, hup]
    exact ⟨rfl, rfl⟩
  have hcached : (cached? file (artifactPath key build)).Meets s
      (fun c? t => c? = some c ∧ Alike s t) fun _ => False := by
    refine .bind hquery ?_
    rintro _ _ ⟨rfl, rfl⟩
    rw [if_pos rfl]
    refine .get_bind ?_
    rw [hread]
    exact .log_bind fun _ hfiles hdrawn => .pure ⟨rfl, hfiles, hdrawn⟩
  unfold compileFiles compileInto
  refine .get_bind ?_
  rw [hkey]
  refine .bind (P := fun c' t => c' = c ∧ Alike s t) (.bind hcached ?_) ?_
  · rintro _ t ⟨rfl, ht⟩
    exact .pure ⟨rfl, ht⟩
  · rintro _ t ⟨rfl, ht⟩
    exact .pure ⟨rfl, ht⟩

end Artifacts

end ContextRoles.Workspace
