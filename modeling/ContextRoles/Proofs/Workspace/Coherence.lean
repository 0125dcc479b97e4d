import ContextRoles.Proofs.Workspace.Compile
import ContextRoles.Proofs.Workspace.Key

/-! # Artifacts follow their sources

While sources are edited and compiled in any order and the clock does not go back, an artifact that is
newer than its source is what the text of the source is read as. This rests on the comparison of times,
which is strict, and on sources that do not share their artifacts.
-/

namespace ContextRoles.Workspace

open Files

/-- Sources that are compiled into one build directory. -/
structure Project where
  ids : Nat → String
  working : Location := []
  sources : List Path
  build : Path
  root : Path

/-- What can happen to a project: time passes, a source is created or replaced, or some are compiled. -/
inductive Change where
  | wait (duration : Nat)
  | edit (file : Path) (text : String)
  | compile (files : List Path)

namespace Project

variable {p : Project} {s t : Session} {f g : Path} {key : String} {c : Collection}

def Allows (p : Project) : Change → Prop
  | .wait _ => True
  | .edit file _ => file ∈ p.sources
  | .compile files => ∀ file ∈ files, file ∈ p.sources

instance (p : Project) : (change : Change) → Decidable (p.Allows change)
  | .wait _ => inferInstanceAs (Decidable True)
  | .edit file _ => inferInstanceAs (Decidable (file ∈ p.sources))
  | .compile files => inferInstanceAs (Decidable (∀ file ∈ files, file ∈ p.sources))

def key? (p : Project) (f : Path) : Option String := (sourceKey p.working f p.root).toOption

def artifactPlace? (p : Project) (f : Path) : Option Location :=
  (p.key? f).map fun key => (artifactPath key p.build).resolve p.working

/-- Every source has the suffix of sources, and only one file in the end has an artifact of its own. -/
structure Separate (p : Project) : Prop where
  source : ∀ f ∈ p.sources, isSourceName ((f.resolve p.working).getLast?.getD "") = true
  artifact : ∀ f ∈ p.sources, ∀ g ∈ p.sources, ∀ place ∈ p.artifactPlace? f,
    p.artifactPlace? g = some place → f.resolve p.working = g.resolve p.working

/-- A session before anything was compiled. -/
structure Start (p : Project) (s : Session) : Prop where
  wellFormed : s.files.WellFormed
  working : s.files.working = p.working
  vacant : ∀ f ∈ p.sources, ∀ place ∈ p.artifactPlace? f, s.files.file? place = none

def Produces (ids : Nat → String) (drawn : Nat) (text : String) (c : Collection) : Prop :=
  ∃ n, (Source.read ids n text).result = .ok c ∧ (Source.read ids n text).drawn ≤ drawn

section Runs

variable [Artifact.FieldChecks]

/-- The session after a change, whether it succeeds or not. -/
def apply (p : Project) (s : Session) : Change → Session
  | .wait duration => { s with files := { s.files with now := s.files.now + duration } }
  | .edit file text => { s with files := (s.files.store file text).2 }
  | .compile files =>
    match compileFiles p.ids files p.build p.root s with
    | .ok _ t => t
    | .error _ t => t

def run (p : Project) (s : Session) (changes : List Change) : Session := changes.foldl p.apply s

/-- What is kept and what compiling gives is what the sources are read as now. -/
structure Current (p : Project) (s : Session) : Prop where
  kept : ∀ f ∈ p.sources, ∀ key, sourceKey p.working f p.root = .ok key →
    isUpToDate s.files f (artifactPath key p.build) = .ok true →
    s.files.isDirectory? (artifactPath key p.build) = .ok false →
    ∃ text stored c, s.files.textAt? (f.resolve p.working) = some text ∧
      s.files.textAt? ((artifactPath key p.build).resolve p.working) = some stored ∧
      Collection.deserialize stored = .ok c ∧
      (s.files.denies .read (artifactPath key p.build) = false →
        readArtifact s.files (artifactPath key p.build) = .ok c) ∧
      Produces p.ids s.drawn text c
  compiled : ∀ files, (∀ f ∈ files, f ∈ p.sources) → ∀ m t,
    compileFiles p.ids files p.build p.root s = .ok m t → ∀ f ∈ files, ∃ key text c,
      sourceKey p.working f p.root = .ok key ∧ m.get? key = some c ∧
      s.files.textAt? (f.resolve p.working) = some text ∧ Produces p.ids t.drawn text c

end Runs

section Artifacts

theorem key?_eq_some : p.key? f = some key ↔ sourceKey p.working f p.root = .ok key :=
  ⟨Source.result_eq_ok, fun h => by rw [key?, h]; rfl⟩

theorem artifactPlace?_eq_some {place : Location} :
    p.artifactPlace? f = some place ↔ ∃ key, sourceKey p.working f p.root = .ok key ∧
      (artifactPath key p.build).resolve p.working = place := by
  simp only [artifactPlace?, Option.map_eq_some_iff, key?_eq_some]

theorem Separate.artifact_ne_source (h : p.Separate) (hg : g ∈ p.sources) {place : Location}
    (hplace : p.artifactPlace? f = some place) : place ≠ g.resolve p.working := by
  obtain ⟨key, -, rfl⟩ := artifactPlace?_eq_some.mp hplace
  exact Workspace.artifact_ne_source (h.source g hg)

theorem separate_of_plain
    (hsource : ∀ f ∈ p.sources, isSourceName ((f.resolve p.working).getLast?.getD "") = true)
    (hplain : ∀ f ∈ p.sources, ∀ name ∈ (f.resolve p.working).drop (p.root.resolve p.working).length,
      IsPlainName name)
    (hkeys : ∀ f ∈ p.sources, ∀ g ∈ p.sources, ∀ key ∈ p.key? f, p.key? g = some key →
      f.resolve p.working = g.resolve p.working) : p.Separate where
  source := hsource
  artifact f hf g hg place hplace hplace' := by
    obtain ⟨key, hkey, rfl⟩ := artifactPlace?_eq_some.mp hplace
    obtain ⟨key', hkey', he⟩ := artifactPlace?_eq_some.mp hplace'
    obtain rfl := artifactPath_injective hkey' hkey (hplain g hg) (hplain f hf) he
    exact hkeys f hf g hg key' (key?_eq_some.mpr hkey) (key?_eq_some.mpr hkey')

end Artifacts

section Invariant

theorem Produces.mono {ids : Nat → String} {m n : Nat} {text : String} (h : Produces ids m text c)
    (hle : m ≤ n) : Produces ids n text c :=
  h.imp fun _ h => ⟨h.1, Nat.le_trans h.2 hle⟩

/-- A collection is what the source was read as, unless the source was changed since. -/
structure Vouches (p : Project) (s : Session) (f : Path) (modified : Int) (c : Collection) : Prop where
  keyed : Source.Keyed c.entities
  le_now : modified ≤ s.files.now
  source : ∃ raw changed, s.files.file? (f.resolve p.working) = some (.text raw, changed) ∧
    (changed < modified → Produces p.ids s.drawn (String.ofList (Text.unifyLineEnds raw.toList)) c)

/-- Where an artifact is to lie, there is one that its source vouches for, or none. -/
structure Coherent (p : Project) (s : Session) : Prop where
  wellFormed : s.files.WellFormed
  working : s.files.working = p.working
  kept : ∀ f ∈ p.sources, ∀ place, p.artifactPlace? f = some place → ∀ content modified,
    s.files.file? place = some (content, modified) →
    ∃ c, content = .text (c.serialize .compact) ∧ p.Vouches s f modified c

theorem Start.coherent (h : p.Start s) : p.Coherent s where
  wellFormed := h.wellFormed
  working := h.working
  kept f hf place hplace content modified hfile := by
    rw [h.vacant f hf place hplace] at hfile
    cases hfile

theorem Coherent.of_files (h : p.Coherent s) (hwf : t.files.WellFormed)
    (hworking : t.files.working = s.files.working)
    (hfile : ∀ place, t.files.file? place = s.files.file? place) (hnow : s.files.now ≤ t.files.now)
    (hdrawn : s.drawn ≤ t.drawn) : p.Coherent t where
  wellFormed := hwf
  working := hworking.trans h.working
  kept f hf place hplace content modified hkept := by
    rw [hfile] at hkept
    obtain ⟨c, hc, hv⟩ := h.kept f hf place hplace content modified hkept
    obtain ⟨raw, changed, hsource, hproduces⟩ := hv.source
    refine ⟨c, hc, hv.keyed, Int.le_trans hv.le_now hnow, raw, changed, ?_, ?_⟩
    · rw [hfile, hsource]
    · exact fun hlt => (hproduces hlt).mono hdrawn

theorem Coherent.prepares (h : p.Coherent s) (hp : s.files.Prepares t.files)
    (hdrawn : s.drawn ≤ t.drawn) : p.Coherent t :=
  h.of_files hp.wellFormed hp.working hp.file? (Int.le_of_eq hp.now.symm) hdrawn

theorem Coherent.edit (h : p.Coherent s) (hs : p.Separate) (hf : f ∈ p.sources) {text : String}
    (hstores : s.files.Stores (f.resolve p.working) text t.files) (hdrawn : t.drawn = s.drawn) :
    p.Coherent t where
  wellFormed := hstores.wellFormed
  working := hstores.working.trans h.working
  kept g hg place hplace content modified hkept := by
    rw [hstores.file?_of_ne place (hs.artifact_ne_source hf hplace)] at hkept
    obtain ⟨c, hc, hv⟩ := h.kept g hg place hplace content modified hkept
    have hnow : modified ≤ t.files.now := hstores.now ▸ hv.le_now
    refine ⟨c, hc, hv.keyed, hnow, ?_⟩
    by_cases he : g.resolve p.working = f.resolve p.working
    · refine ⟨text, s.files.now, he ▸ hstores.file?_self, fun hlt => ?_⟩
      exact absurd hv.le_now (Int.not_le.mpr hlt)
    · rw [hstores.file?_of_ne _ he, hdrawn]
      exact hv.source

theorem Coherent.stores_artifact (h : p.Coherent s) (hs : p.Separate) (hf : f ∈ p.sources)
    {place : Location} (hplace : p.artifactPlace? f = some place)
    (hstores : s.files.Stores place (c.serialize .compact) t.files) (hkeyed : Source.Keyed c.entities)
    {raw : String} {changed : Int}
    (hsource : s.files.file? (f.resolve p.working) = some (.text raw, changed))
    (hproduces : Produces p.ids t.drawn (String.ofList (Text.unifyLineEnds raw.toList)) c)
    (hdrawn : s.drawn ≤ t.drawn) : p.Coherent t where
  wellFormed := hstores.wellFormed
  working := hstores.working.trans h.working
  kept g hg other hother content modified hkept := by
    have same : t.files.file? (g.resolve p.working) = s.files.file? (g.resolve p.working) :=
      hstores.file?_of_ne _ (hs.artifact_ne_source hg hplace).symm
    by_cases he : other = place
    · subst he
      rw [hstores.file?_self] at hkept
      cases hkept
      have hplaces := hs.artifact f hf g hg other hplace hother
      refine ⟨c, rfl, hkeyed, Int.le_of_eq hstores.now.symm, raw, changed, ?_, fun _ => hproduces⟩
      rw [same, ← hplaces, hsource]
    · rw [hstores.file?_of_ne other he] at hkept
      obtain ⟨c, hc, hv⟩ := h.kept g hg other hother content modified hkept
      obtain ⟨raw, changed, hsource, hproduces⟩ := hv.source
      exact ⟨c, hc, hv.keyed, hstores.now ▸ hv.le_now, raw, changed, same.trans hsource,
        fun hlt => (hproduces hlt).mono hdrawn⟩

end Invariant

section Compiling

theorem Coherent.kept_current [Artifact.FieldChecks] [Artifact.LawfulFieldChecks] (h : p.Coherent s)
    (hf : f ∈ p.sources) (hkey : sourceKey p.working f p.root = .ok key)
    (hup : isUpToDate s.files f (artifactPath key p.build) = .ok true)
    (hfile : s.files.isDirectory? (artifactPath key p.build) = .ok false) :
    ∃ text stored c, s.files.textAt? (f.resolve p.working) = some text ∧
      s.files.textAt? ((artifactPath key p.build).resolve p.working) = some stored ∧
      Collection.deserialize stored = .ok c ∧
      (s.files.denies .read (artifactPath key p.build) = false →
        readArtifact s.files (artifactPath key p.build) = .ok c) ∧
      Produces p.ids s.drawn text c := by
  obtain ⟨⟨node, modified⟩, source, hstored, hsource, hlt⟩ := isUpToDate_eq_true hup
  have hplace := artifactPlace?_eq_some.mpr ⟨key, hkey, rfl⟩
  cases node with
  | directory =>
    rw [FileTree.isDirectory?, hstored] at hfile
    cases hfile
  | file content =>
    have hkept := FileTree.status_eq_ok hstored
    rw [h.working, ← FileTree.file?_eq_some] at hkept
    obtain ⟨c, rfl, hv⟩ := h.kept f hf _ hplace content modified hkept
    obtain ⟨raw, changed, hraw, hproduces⟩ := hv.source
    have hentry := FileTree.status_eq_ok hsource
    rw [h.working, FileTree.file?_eq_some.mp hraw] at hentry
    cases hentry
    exact ⟨_, _, c, FileTree.textAt?_of_file? hraw, FileTree.textAt?_of_file? hkept,
      deserialize_unifyLineEnds hv.keyed,
      fun hgranted => readArtifact_of_status hv.keyed hgranted hstored, hproduces hlt⟩

/-- A session that is coherent like one before it, after more ids were drawn for the same sources. -/
structure Follows (p : Project) (s t : Session) : Prop where
  coherent : p.Coherent t
  drawn_le : s.drawn ≤ t.drawn
  textAt? : ∀ f ∈ p.sources,
    t.files.textAt? (f.resolve p.working) = s.files.textAt? (f.resolve p.working)

theorem Follows.refl (h : p.Coherent s) : p.Follows s s := ⟨h, Nat.le_refl _, fun _ _ => rfl⟩

theorem Follows.trans {u : Session} (h : p.Follows s t) (h' : p.Follows t u) : p.Follows s u :=
  ⟨h'.coherent, Nat.le_trans h.drawn_le h'.drawn_le,
    fun f hf => (h'.textAt? f hf).trans (h.textAt? f hf)⟩

theorem Follows.of_prepares (h : p.Coherent s) (hp : s.files.Prepares t.files)
    (hdrawn : s.drawn ≤ t.drawn) : p.Follows s t :=
  ⟨h.prepares hp hdrawn, hdrawn, fun f _ => by rw [FileTree.textAt?, hp.file?]; rfl⟩

theorem Follows.of_alike (h : p.Coherent s) (ha : Alike s t) : p.Follows s t :=
  .of_prepares h (ha.prepares h.wellFormed) (Nat.le_of_eq ha.drawn.symm)

theorem compileFile_meets [Artifact.FieldChecks] [Artifact.LawfulFieldChecks] (hs : p.Separate)
    (h : p.Coherent s) (hf : f ∈ p.sources) (hkey : sourceKey p.working f p.root = .ok key) :
    (compileFile p.ids f (artifactPath key p.build)).Meets s
      (fun c t => p.Follows s t ∧ ∃ text, s.files.textAt? (f.resolve p.working) = some text ∧
        Produces p.ids t.drawn text c)
      (p.Follows s) := by
  have hplace := artifactPlace?_eq_some.mpr ⟨key, hkey, rfl⟩
  unfold compileFile
  refine .bind ((cached?_meets f (artifactPath key p.build) s).imp (fun _ _ h => h)
    fun t ha => .of_alike h ha) ?_
  rintro c? t ⟨ha, hcached⟩
  have hfollows := Follows.of_alike h ha
  cases c? with
  | some c =>
    obtain ⟨hup, hread⟩ := hcached c rfl
    obtain ⟨stored, hstored, -⟩ := readArtifact_eq_ok hread
    obtain ⟨hgranted, hfile⟩ := FileTree.status_of_readText hstored
    obtain ⟨text, -, c', htext, -, -, hread', hproduces⟩ := h.kept_current hf hkey hup hfile
    have hread' := hread' hgranted
    rw [hread] at hread'
    cases hread'
    exact .pure ⟨hfollows, text, htext, hproduces.mono hfollows.drawn_le⟩
  | none =>
    have hcompile := compileSource_meets p.ids f (artifactPath key p.build) hfollows.coherent.wellFormed
    refine hcompile.imp ?_ fun u hu => hfollows.trans (.of_prepares hfollows.coherent hu.1 hu.2)
    rintro c u ⟨text, hread, hresult, hstores⟩
    obtain ⟨raw, changed, hraw, rfl⟩ := FileTree.readText_eq_ok hread
    rw [hfollows.coherent.working] at hraw hstores
    have hle := Source.drawn_le_read p.ids t.drawn (String.ofList (Text.unifyLineEnds raw.toList))
    have hproduces : Produces p.ids u.drawn (String.ofList (Text.unifyLineEnds raw.toList)) c :=
      ⟨t.drawn, congrArg Source.Reading.result hresult,
        Nat.le_of_eq (congrArg Source.Reading.drawn hresult)⟩
    rw [hresult] at hle
    have hcoherent := hfollows.coherent.stores_artifact hs hf hplace hstores
      (Source.keyed_of_read (congrArg Source.Reading.result hresult)) hraw hproduces hle
    refine ⟨hfollows.trans ⟨hcoherent, hle, fun g hg => ?_⟩, _, ?_, hproduces⟩
    · rw [FileTree.textAt?, hstores.file?_of_ne _ (hs.artifact_ne_source hg hplace).symm]
      rfl
    · rw [← hfollows.textAt? f hf, FileTree.textAt?_of_file? hraw]

/-- The collections of a map are what the texts of their sources are read as. -/
def Compiled (p : Project) (s : Session) (m : OrderedMap Collection) : Prop :=
  ∀ f ∈ p.sources, ∀ key c, sourceKey p.working f p.root = .ok key → m.get? key = some c →
    ∃ text, s.files.textAt? (f.resolve p.working) = some text ∧ Produces p.ids s.drawn text c

theorem Compiled.follows {m : OrderedMap Collection} (h : p.Compiled s m) (ht : p.Follows s t) :
    p.Compiled t m := by
  intro f hf key c hkey hc
  obtain ⟨text, htext, hproduces⟩ := h f hf key c hkey hc
  exact ⟨text, (ht.textAt? f hf).trans htext, hproduces.mono ht.drawn_le⟩

theorem Compiled.insert {m : OrderedMap Collection} (h : p.Compiled s m) (hs : p.Separate)
    (hf : f ∈ p.sources) (hkey : sourceKey p.working f p.root = .ok key) {text : String}
    (htext : s.files.textAt? (f.resolve p.working) = some text)
    (hproduces : Produces p.ids s.drawn text c) : p.Compiled s (m.insert key c) := by
  intro g hg key' c' hkey' hc'
  rw [OrderedMap.get?_insert] at hc'
  split at hc'
  next he =>
    cases hc'
    subst he
    have hplaces := hs.artifact f hf g hg _ (artifactPlace?_eq_some.mpr ⟨key', hkey, rfl⟩)
      (artifactPlace?_eq_some.mpr ⟨key', hkey', rfl⟩)
    exact ⟨text, hplaces ▸ htext, hproduces⟩
  · exact h g hg key' c' hkey' hc'

theorem compileInto_meets [Artifact.FieldChecks] [Artifact.LawfulFieldChecks] (hs : p.Separate)
    {files : List Path} (hfiles : ∀ f ∈ files, f ∈ p.sources)
    {m : OrderedMap Collection} (h : p.Coherent s) (hm : p.Compiled s m) :
    (compileInto p.ids p.build p.root m files).Meets s
      (fun n t => p.Follows s t ∧ p.Compiled t n ∧ (∀ k, m.contains k = true → n.contains k = true) ∧
        ∀ f ∈ files, ∃ k, sourceKey p.working f p.root = .ok k ∧ n.contains k = true)
      (p.Follows s) := by
  induction files generalizing m s with
  | nil => exact .pure ⟨.refl h, hm, fun _ hk => hk, nofun⟩
  | cons f files ih =>
    rw [List.forall_mem_cons] at hfiles
    obtain ⟨hf, hfiles⟩ := hfiles
    unfold compileInto
    refine .get_bind ?_
    rw [h.working]
    cases hkey : sourceKey p.working f p.root with
    | error failure => exact .throw (.refl h)
    | ok key =>
      dsimp only
      by_cases hcontains : m.contains key = true
      · rw [if_pos hcontains]
        refine (ih hfiles h hm).imp ?_ fun _ ht => ht
        rintro n t ⟨hfollows, hn, hkeeps, hall⟩
        exact ⟨hfollows, hn, hkeeps, List.forall_mem_cons.mpr
          ⟨⟨key, hkey, hkeeps key hcontains⟩, hall⟩⟩
      · rw [if_neg hcontains]
        refine .bind (compileFile_meets hs h hf hkey) ?_
        rintro c t ⟨ht, text, htext, hproduces⟩
        have hinsert := (hm.follows ht).insert hs hf hkey ((ht.textAt? f hf).trans htext) hproduces
        refine (ih hfiles ht.coherent hinsert).imp ?_ fun _ hu => ht.trans hu
        rintro n u ⟨hu, hn, hkeeps, hall⟩
        refine ⟨ht.trans hu, hn, fun k hk => hkeeps k ?_,
          List.forall_mem_cons.mpr ⟨⟨key, hkey, hkeeps key ?_⟩, hall⟩⟩
        · exact OrderedMap.contains_insert.mpr (.inr hk)
        · exact OrderedMap.contains_insert.mpr (.inl rfl)

theorem compileFiles_meets [Artifact.FieldChecks] [Artifact.LawfulFieldChecks] (hs : p.Separate)
    {files : List Path} (hfiles : ∀ f ∈ files, f ∈ p.sources) (h : p.Coherent s) :
    (compileFiles p.ids files p.build p.root).Meets s
      (fun m t => p.Follows s t ∧ ∀ f ∈ files, ∃ key text c, sourceKey p.working f p.root = .ok key ∧
        m.get? key = some c ∧ s.files.textAt? (f.resolve p.working) = some text ∧
        Produces p.ids t.drawn text c)
      (p.Follows s) := by
  have hempty : p.Compiled s .empty := nofun
  refine (compileInto_meets hs hfiles h hempty).imp ?_ fun _ ht => ht
  rintro m t ⟨ht, hm, -, hall⟩
  refine ⟨ht, fun f hf => ?_⟩
  obtain ⟨key, hkey, hcontains⟩ := hall f hf
  obtain ⟨c, hc⟩ := OrderedMap.contains_iff.mp hcontains
  obtain ⟨text, htext, hproduces⟩ := hm f (hfiles f hf) key c hkey hc
  exact ⟨key, text, c, hkey, hc, (ht.textAt? f (hfiles f hf)).symm.trans htext, hproduces⟩

end Compiling

section Changes

variable [Artifact.FieldChecks]

theorem Coherent.apply [Artifact.LawfulFieldChecks] (h : p.Coherent s) (hs : p.Separate)
    {change : Change} (hc : p.Allows change) : p.Coherent (p.apply s change) := by
  cases change with
  | wait duration =>
    exact h.of_files (h.wellFormed.setNow _) rfl (FileTree.file?_setNow _ _)
      (Int.le_add_of_nonneg_right (Int.natCast_nonneg duration)) (Nat.le_refl _)
  | edit file text =>
    rcases FileTree.store_cases h.wellFormed file text with ⟨e, -, hprepares⟩ | ⟨-, hstores⟩
    · exact h.prepares hprepares (Nat.le_refl _)
    · rw [h.working] at hstores
      exact h.edit hs hc hstores rfl
  | compile files =>
    have hmeets := compileFiles_meets hs hc h
    unfold Project.apply
    dsimp only
    split
    next hok => exact (hmeets.ok hok).1.coherent
    next herror => exact (hmeets.error herror).coherent

theorem Coherent.run [Artifact.LawfulFieldChecks] (h : p.Coherent s) (hs : p.Separate)
    {changes : List Change} (hchanges : ∀ change ∈ changes, p.Allows change) : p.Coherent (p.run s changes) := by
  induction changes generalizing s with
  | nil => exact h
  | cons change changes ih =>
    rw [List.forall_mem_cons] at hchanges
    exact ih (h.apply hs hchanges.1) hchanges.2

theorem Coherent.current [Artifact.LawfulFieldChecks] (h : p.Coherent s) (hs : p.Separate) :
    p.Current s where
  kept _ hf _ hkey hup hfile := h.kept_current hf hkey hup hfile
  compiled _ hfiles _ _ hok := ((compileFiles_meets hs hfiles h).ok hok).2

/-- Whatever happened to a project whose sources do not share artifacts, in a file tree without links: a
file that is newer than its source and kept for it is what the source is read as, and so is what
compiling gives. -/
theorem current_run [Artifact.LawfulFieldChecks] (p : Project) (hs : p.Separate) (hstart : p.Start s)
    {changes : List Change} (hchanges : ∀ change ∈ changes, p.Allows change) : p.Current (p.run s changes) :=
  (hstart.coherent.run hs hchanges).current hs

/-- An artifact that is newer than its source, though the text there is not read as what it holds: compiling
the source gives that nevertheless. -/
theorem stale (hf : f ∈ p.sources) (hworking : s.files.working = p.working)
    (hkey : sourceKey p.working f p.root = .ok key)
    (hup : isUpToDate s.files f (artifactPath key p.build) = .ok true)
    (hread : readArtifact s.files (artifactPath key p.build) = .ok c) {text : String}
    (htext : s.files.textAt? (f.resolve p.working) = some text)
    (hproduces : ¬ Produces p.ids s.drawn text c) :
    (∃ m t, compileFiles p.ids [f] p.build p.root s = .ok m t ∧ m.get? key = some c) ∧
      ¬ p.Current s := by
  have hmeets := compileFiles_of_isUpToDate p.ids (hworking ▸ hkey) hup hread
  cases hrun : compileFiles p.ids [f] p.build p.root s with
  | ok m t =>
    obtain ⟨rfl, halike⟩ := hmeets.ok hrun
    refine ⟨⟨_, t, rfl, OrderedMap.get?_insert_self _ _ _⟩, fun h => hproduces ?_⟩
    obtain ⟨key', text', c', hkey', hc, htext', hproduces'⟩ :=
      h.compiled [f] (List.forall_mem_singleton.mpr hf) _ t hrun f List.mem_cons_self
    obtain rfl := Except.ok.inj (hkey'.symm.trans hkey)
    obtain rfl := Option.some.inj (htext'.symm.trans htext)
    rw [OrderedMap.get?_insert_self] at hc
    cases hc
    rwa [halike.drawn] at hproduces'
  | error e t => exact (hmeets.error hrun).elim

end Changes

section Runs

/-- Without any files. -/
def blank : Session := { files := { entries := [], nodup := List.nodup_nil } }

theorem start_blank (h : p.working = []) : p.Start blank where
  wellFormed := by
    refine ⟨fun place hplace => ?_, rfl⟩
    cases place with
    | nil => rfl
    | cons => cases hplace
  working := h.symm
  vacant f _ place _ := by cases place <;> rfl

/-- Two sources that are compiled after a while. One of them is edited right then. -/
def mirrored : Project where
  ids n := String.ofList (List.replicate n 'i')
  sources := [.ofString "a.psp", .ofString "b/a.psp"]
  build := .ofString "build"
  root := .ofString "."

def editing : List Change := [
  .edit (.ofString "a.psp") ":A :B\n  :r => :X\n", .edit (.ofString "b/a.psp") ":kist :B\n", .wait 1,
  .compile mirrored.sources, .edit (.ofString "b/a.psp") ":kast :B\n"]

theorem current_run_editing :
    mirrored.Separate ∧ mirrored.Start blank ∧ (∀ change ∈ editing, mirrored.Allows change) ∧
    mirrored.Current (mirrored.run blank editing) ∧
    (isUpToDate (mirrored.run blank editing).files (.ofString "a.psp")
      (.ofString "build/a.psp.json")).toOption = some true ∧
    (isUpToDate (mirrored.run blank editing).files (.ofString "b/a.psp")
      (.ofString "build/b/a.psp.json")).toOption = some false := by
  have hs : mirrored.Separate := separate_of_plain (by decide +kernel) (by decide +kernel)
    (by decide +kernel)
  have hstart : mirrored.Start blank := start_blank rfl
  have hchanges : ∀ change ∈ editing, mirrored.Allows change := by decide +kernel
  exact ⟨hs, hstart, hchanges, current_run mirrored hs hstart hchanges, by decide +kernel,
    by decide +kernel⟩

/-- Two sources with different keys that name one artifact, as a backslash is taken for a slash. -/
def aliased : Project where
  ids n := String.ofList (List.replicate n 'i')
  sources := [.ofString ".\\b.psp", .ofString "b.psp"]
  build := .ofString "build"
  root := .ofString "."

def aliasing : List Change := [
  .edit (.ofString ".\\b.psp") ":doos :A\n", .edit (.ofString "b.psp") ":kist :B\n", .wait 1,
  .compile [.ofString ".\\b.psp"]]

/-- What the first of them is read as. -/
def doos : Collection where
  name := "doos"
  entities := .ofList [
    ("doos_buitenRol", .role
      { id := "doos_buitenRol", typeName := "model:Perspectives#BuitenRol", context := "doos",
        properties := .empty, filledRoles := .empty }),
    ("doos", .context
      { id := "doos", typeName := ":A", outerRole := "doos_buitenRol",
        innerRole :=
          { id := "doos_binnenRol", binding := some "doos_buitenRol", properties := .empty } })]

theorem not_produces_doos : ¬ Produces aliased.ids 0 ":kist :B\n" doos := by
  rintro ⟨n, hresult, hle⟩
  -- No ids were drawn, so none were before the text was read.
  have hn := Source.drawn_le_read aliased.ids n ":kist :B\n"
  obtain rfl : n = 0 := by omega
  have hread : (Source.read aliased.ids 0 ":kist :B\n").result.toOption ≠ some doos := by
    decide +kernel
  rw [hresult] at hread
  exact hread rfl

/-- After the first source is compiled, the second one seems to be up to date, and compiling it gives
what the first one is read as. -/
theorem not_current_aliased :
    aliased.sources.map aliased.key? = [some "./b", some "b"] ∧ aliased.Start blank ∧
    (∀ change ∈ aliasing, aliased.Allows change) ∧
    (∃ m t, compileFiles aliased.ids [.ofString "b.psp"] aliased.build aliased.root
      (aliased.run blank aliasing) = .ok m t ∧ m.get? "b" = some doos) ∧
    ¬ aliased.Current (aliased.run blank aliasing) := by
  have hkeyed : Source.Keyed doos.entities := Source.keyed_iff.mpr (by decide +kernel)
  have hstored : ((aliased.run blank aliasing).files.status (artifactPath "b" aliased.build)).toOption =
      some ⟨.file (.text (doos.serialize .compact)), 1⟩ := by decide +kernel
  have hup : (isUpToDate (aliased.run blank aliasing).files (.ofString "b.psp")
      (artifactPath "b" aliased.build)).toOption = some true := by decide +kernel
  have hproduces : ¬ Produces aliased.ids (aliased.run blank aliasing).drawn ":kist :B\n" doos := by
    rw [show (aliased.run blank aliasing).drawn = 0 by decide +kernel]
    exact not_produces_doos
  exact ⟨by decide +kernel, start_blank rfl, by decide +kernel,
    stale (f := .ofString "b.psp") (by decide +kernel) (by decide +kernel)
      (key?_eq_some.mp (by decide +kernel)) (Source.result_eq_ok hup)
      (readArtifact_of_status hkeyed (by decide +kernel) (Source.result_eq_ok hstored))
      (by decide +kernel) hproduces⟩

end Runs

end Project

end ContextRoles.Workspace
