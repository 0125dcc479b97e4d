import ContextRoles.Proofs.Workspace.Failure
import ContextRoles.Proofs.Workspace.Rendering
import ContextRoles.Workspace.Remote

/-! # Where remote sources are kept

The name of a remote source is read as a path below the target directory. Where no name leads out of it
and different names lead to different places, fetching changes these places only, and each of them holds
what the web has for its own source. A configuration tells names apart as they are written, so it may
have names that lead out, and names that lead to one place.
-/

namespace ContextRoles

namespace Text

theorem splitAt_append {mark : Char} (x : List Char) {y : List Char} (h : mark ∉ y) :
    ∃ parts last, splitAt mark (x ++ y) = parts ++ [last ++ y] := by
  induction x with
  | nil => exact ⟨[], [], splitAt_of_notMem h⟩
  | cons c x ih =>
    obtain ⟨parts, last, hparts⟩ := ih
    by_cases hc : c = mark
    · refine ⟨[] :: parts, last, ?_⟩
      rw [hc, List.cons_append, splitAt_cons_mark, hparts, List.cons_append]
    · rw [List.cons_append, splitAt, hparts]
      cases parts with
      | nil => exact ⟨[], c :: last, if_neg hc⟩
      | cons part parts => exact ⟨(c :: part) :: parts, last, if_neg hc⟩

end Text

namespace Files

section Places

variable {place other directory : Location} {parts : List String} {name : String}

/-- The place that names lead to from another, unless they lead out at its top. -/
def within? (place : Location) : List String → Option Location
  | [] => some place
  | part :: parts =>
    if part ≠ ".." then within? (place ++ [part]) parts
    else if place = [] then none
    else within? place.dropLast parts

theorem foldl_of_within? (h : within? place parts = some other) (directory : Location) :
    parts.foldl FileTree.stepInto (directory ++ place) = directory ++ other := by
  induction parts generalizing place with
  | nil =>
    cases h
    rfl
  | cons part parts ih =>
    rw [within?] at h
    rw [List.foldl_cons, FileTree.stepInto]
    split at h
    next hname =>
      rw [if_neg hname, List.append_assoc]
      exact ih h
    next hdots =>
      rw [if_pos (not_not.mp hdots)]
      split at h
      · cases h
      next hne =>
        rw [List.dropLast_append_of_ne_nil hne]
        exact ih h

theorem within?_concat (h : name ≠ "..") :
    within? place (parts ++ [name]) = (within? place parts).map (· ++ [name]) := by
  induction parts generalizing place with
  | nil =>
    rw [List.nil_append, within?.eq_2, if_pos h]
    rfl
  | cons part parts ih =>
    rw [List.cons_append, within?, within?, ih, ih]
    split
    · rfl
    · split <;> rfl

end Places

namespace FileTree

variable {t u : FileTree} {place other : Location} {p : Path} {text : String}

theorem status_of_locate {entry : Entry} (hl : t.locate p = .ok place)
    (h : t.get? place = some entry) : t.status p = .ok entry := by
  rw [status, hl]
  simp only [h]

theorem status_of_directories
    (h : ∀ place, t.isDirectoryAt place = true → u.isDirectoryAt place = true)
    (hsame : t.SameSetting u)
    (hfile : u.file? (p.resolve t.working) = t.file? (p.resolve t.working)) {content : Content}
    {modified : Int} (hs : t.status p = .ok ⟨.file content, modified⟩) :
    u.status p = .ok ⟨.file content, modified⟩ := by
  have hget := status_eq_ok hs
  rw [file?_eq_some.mpr hget, file?_eq_some] at hfile
  unfold status at hs
  cases hl : t.locate p with
  | error e =>
    rw [hl] at hs
    cases hs
  | ok place =>
    rw [← locate_eq hl] at hfile
    exact status_of_locate (locate_of_directories h hsame hl) hfile

theorem isDirectoryAt_write {content : Content} (hw : t.write p content = .ok u)
    (hd : t.isDirectoryAt other = true) : u.isDirectoryAt other = true := by
  obtain ⟨place, -, hplace, hfile, -, rfl⟩ := write_eq_ok hw
  have hne : other ≠ place := by
    rintro rfl
    rw [hd] at hfile
    cases hfile
  rw [isDirectoryAt_put _ hplace, if_neg hne, hd]

theorem isDirectoryAt_store (t : FileTree) (p : Path) (text : String)
    (hd : t.isDirectoryAt other = true) : (t.store p text).2.isDirectoryAt other = true := by
  have made := isDirectoryAt_ensureDirectory t p.parent hd
  unfold store
  cases he : t.ensureDirectory p.parent with
  | mk result u =>
    rw [he] at made
    cases result with
    | error e => exact made
    | ok _ =>
      dsimp only
      cases hw : u.write p (.text text) with
      | error e => exact made
      | ok v => exact isDirectoryAt_write hw made

theorem snd_store_of_ok (hok : (t.store p text).1 = .ok ()) :
    (t.ensureDirectory p.parent).2.write p (.text text) = .ok (t.store p text).2 := by
  unfold store at hok ⊢
  cases he : t.ensureDirectory p.parent with
  | mk result u =>
    cases result with
    | error e =>
      rw [he] at hok
      cases hok
    | ok _ =>
      simp only [he] at hok ⊢
      cases hw : u.write p (.text text) with
      | error e =>
        rw [hw] at hok
        cases hok
      | ok v => rfl

theorem status_store (h : t.WellFormed) (hok : (t.store p text).1 = .ok ()) :
    (t.store p text).2.status p = .ok ⟨.file (.text text), t.now⟩ := by
  have made := prepares_ensureDirectory h p.parent
  rcases store_cases h p text with ⟨e, he, -⟩ | ⟨-, hstores⟩
  · rw [he] at hok
    cases hok
  · have hsame := (SameSetting.refl t).of_changes made.toSameSetting hstores.toSameSetting
    have hl := locate_of_directories (fun _ => isDirectoryAt_write (snd_store_of_ok hok)) hsame
      (locate_of_store h hok).1
    exact status_of_locate hl (file?_eq_some.mp hstores.file?_self)

end FileTree

end Files

namespace Workspace

open Files

section Names

variable {source : RemoteSource} {sources : List RemoteSource} {working place : Location}

/-- The path that a source is kept under in a target directory. -/
def RemoteSource.file (source : RemoteSource) : Path := .ofString (source.name ++ sourceSuffix)

/-- Where a source is kept below every target directory, unless its name leads out of it. -/
def RemoteSource.place? (source : RemoteSource) : Option Location :=
  if source.file.anchor = .working then within? [] source.file.parts else none

theorem resolve_target (h : source.place? = some place) (directory : Path) (working : Location) :
    (source.target directory).resolve working = directory.resolve working ++ place := by
  unfold RemoteSource.place? at h
  split at h
  next hanchor =>
    have hplace := foldl_of_within? h (directory.resolve working)
    rw [List.append_nil] at hplace
    rw [← hplace, RemoteSource.target, Path.child, Path.join,
      show (Path.ofString (source.name ++ sourceSuffix)).anchor = .working from hanchor]
    exact List.foldl_append
  · cases h

theorem parts_file (source : RemoteSource) :
    ∃ parts name, source.file.parts = parts ++ [name] ∧ name ≠ ".." := by
  obtain ⟨parts, last, hsplit⟩ :=
    Text.splitAt_append source.name.toList (show '/' ∉ sourceSuffix.toList by decide)
  have hname (word : String) (hword : word.toList.getLast? ≠ some 'p') :
      String.ofList (last ++ sourceSuffix.toList) ≠ word := by
    refine ne_of_getLast? ?_ hword
    rw [String.toList_ofList, List.getLast?_append]
    rfl
  refine ⟨(parts.map String.ofList).filter fun part => part ≠ "" && part ≠ ".",
    String.ofList (last ++ sourceSuffix.toList), ?_, hname ".." (by decide)⟩
  rw [RemoteSource.file, Path.ofString, String.toList_append, hsplit, List.map_append,
    List.filter_append, List.map_singleton, List.filter_singleton]
  simp only [hname "" (by decide), hname "." (by decide), ne_eq, not_false_eq_true, decide_true,
    Bool.and_self, cond_true]

theorem place?_ne_nil (h : source.place? = some place) : place ≠ [] := by
  obtain ⟨parts, name, hparts, hname⟩ := parts_file source
  unfold RemoteSource.place? at h
  split at h
  · rw [hparts, within?_concat hname, Option.map_eq_some_iff] at h
    obtain ⟨before, -, rfl⟩ := h
    exact List.append_ne_nil_of_right_ne_nil _ (List.cons_ne_nil _ _)
  · cases h

/-- No name leads out of the target directory, and different names lead to different places in it. -/
structure Confined (sources : List RemoteSource) : Prop where
  inside : ∀ source ∈ sources, source.place?.isSome = true
  apart : ∀ source ∈ sources, ∀ other ∈ sources, source.place? = other.place? →
    source.name = other.name

instance (sources : List RemoteSource) : Decidable (Confined sources) :=
  decidable_of_iff ((∀ source ∈ sources, source.place?.isSome = true) ∧
      ∀ source ∈ sources, ∀ other ∈ sources, source.place? = other.place? →
        source.name = other.name)
    ⟨fun h => ⟨h.1, h.2⟩, fun h => ⟨h.inside, h.apart⟩⟩

theorem Confined.nodup_targets (h : Confined sources) (hnames : (sources.map RemoteSource.name).Nodup)
    (directory : Path) (working : Location) :
    (sources.map fun source => (source.target directory).resolve working).Nodup := by
  refine (List.Nodup.of_map _ hnames).map_on fun source hsource other hother he => ?_
  obtain ⟨place, hplace⟩ := Option.isSome_iff_exists.mp (h.inside source hsource)
  obtain ⟨place', hplace'⟩ := Option.isSome_iff_exists.mp (h.inside other hother)
  rw [resolve_target hplace, resolve_target hplace', List.append_cancel_left_eq] at he
  refine List.inj_on_of_nodup_map hnames hsource hother (h.apart source hsource other hother ?_)
  rw [hplace, hplace', he]

theorem nodup_names [YamlFormat] {text : String} {config : Config} (h : Config.parse text = .ok config) :
    (config.remoteSources.map RemoteSource.name).Nodup := (accepted_of_parse h).names

end Names

section Fetching

variable {web : Web} {directory : Path} {source : RemoteSource} {sources : List RemoteSource}
  {s t u : Session}

def Web.text? (web : Web) (url : String) : Option String :=
  match web url with
  | .response status body => if isSuccess status then some body else none
  | .failure _ => none
  | .malformed _ => none

theorem request_cases (web : Web) (url : String) (s : Session) :
    ∃ t, t.files = s.files ∧
      ((∃ text, web.text? url = some text ∧ request web url s = .ok text t) ∨
        ∃ e, request web url s = .error e t) := by
  refine ⟨{ s with notices := s.notices ++ [.event (.requesting url)] }, rfl, ?_⟩
  rw [request, Action.log_bind, Web.text?]
  cases web url with
  | failure reason => exact .inr ⟨_, rfl⟩
  | malformed reason => exact .inr ⟨_, rfl⟩
  | response status body =>
    cases hstatus : isSuccess status with
    | true => exact .inl ⟨body, if_pos hstatus, by simp only [hstatus]; rfl⟩
    | false => exact .inr ⟨.source (.badStatus url status), by simp only [hstatus]; rfl⟩

/-- The second tree has in the place of each source what the web has for it, and the other files of the
first one. -/
structure Fetched (web : Web) (directory : Path) (sources : List RemoteSource) (t t' : FileTree) :
    Prop extends FileTree.SameSetting t t' where
  wellFormed : t'.WellFormed
  isDirectoryAt : ∀ place, t.isDirectoryAt place = true → t'.isDirectoryAt place = true
  own : ∀ source ∈ sources, ∃ text, web.text? source.url = some text ∧
    t'.status (source.target directory) = .ok ⟨.file (.text text), t.now⟩
  others : ∀ place, (∀ source ∈ sources, place ≠ (source.target directory).resolve t.working) →
    t'.file? place = t.file? place

theorem Fetched.refl (web : Web) (directory : Path) {t : FileTree} (h : t.WellFormed) :
    Fetched web directory [] t t :=
  ⟨.refl t, h, fun _ hd => hd, nofun, fun _ _ => rfl⟩

theorem fetched_store {t : FileTree} {text : String} (directory : Path) (h : t.WellFormed)
    (htext : web.text? source.url = some text) :
    (∃ e, (t.store (source.target directory) text).1 = .error e ∧
        Fetched web directory [] t (t.store (source.target directory) text).2) ∨
      (t.store (source.target directory) text).1 = .ok () ∧
        Fetched web directory [source] t (t.store (source.target directory) text).2 := by
  have directories (place : Location) : t.isDirectoryAt place = true →
      (t.store (source.target directory) text).2.isDirectoryAt place = true :=
    FileTree.isDirectoryAt_store t (source.target directory) text
  rcases FileTree.store_cases h (source.target directory) text with
    ⟨e, he, hprepares⟩ | ⟨hok, hstores⟩
  · exact .inl ⟨e, he, hprepares.toSameSetting, hprepares.wellFormed, directories, nofun,
      fun place _ => hprepares.file? place⟩
  · refine .inr ⟨hok, hstores.toSameSetting, hstores.wellFormed, directories, ?_,
      fun place hplace => hstores.file?_of_ne place (hplace source List.mem_cons_self)⟩
    exact List.forall_mem_singleton.mpr ⟨text, htext, FileTree.status_store h hok⟩

theorem fetchSource_cases (web : Web) (directory : Path) (source : RemoteSource)
    (h : s.files.WellFormed) :
    ∃ t, (fetchSource web directory source s = .ok (source.target directory) t ∧
        Fetched web directory [source] s.files t.files) ∨
      ∃ e, fetchSource web directory source s = .error e t ∧
        Fetched web directory [] s.files t.files := by
  obtain ⟨t, hfiles, ⟨text, htext, hrequest⟩ | ⟨e, he⟩⟩ := request_cases web source.url s
  · have hfetch : fetchSource web directory source s = _ := Action.bind_ok hrequest
    have hcases := fetched_store directory h htext
    rw [← hfiles] at hcases ⊢
    cases hstore : t.files.store (source.target directory) text with
    | mk result files =>
      rw [hstore] at hcases
      rcases hcases with ⟨e, rfl, hfetched⟩ | ⟨rfl, hfetched⟩
      · have hchange := Action.change_error (f := fun t => t.store (source.target directory) text)
          (unwritable (source.target directory)) hstore
        exact ⟨_, .inr ⟨_, hfetch.trans (Action.bind_error hchange), hfetched⟩⟩
      · refine ⟨_, .inl ⟨hfetch.trans (Action.bind_ok (Action.change_ok _ hstore)), ?_⟩⟩
        exact hfetched
  · refine ⟨t, .inr ⟨e, Action.bind_error he, ?_⟩⟩
    rw [hfiles]
    exact .refl web directory h

/-- What the first sources got stays, where the later ones are kept in other places. -/
theorem Fetched.append {before after : List RemoteSource} {t t' t'' : FileTree}
    (h : Fetched web directory before t t') (h' : Fetched web directory after t' t'')
    (hapart : ∀ source ∈ before, ∀ other ∈ after,
      (source.target directory).resolve t.working ≠ (other.target directory).resolve t.working) :
    Fetched web directory (before ++ after) t t'' where
  toSameSetting := h.toSameSetting.trans h'.toSameSetting
  wellFormed := h'.wellFormed
  isDirectoryAt place hd := h'.isDirectoryAt place (h.isDirectoryAt place hd)
  own source hsource := by
    rcases List.mem_append.mp hsource with hsource | hsource
    · obtain ⟨text, htext, hstatus⟩ := h.own source hsource
      refine ⟨text, htext, FileTree.status_of_directories h'.isDirectoryAt h'.toSameSetting ?_ hstatus⟩
      rw [h.working]
      refine h'.others _ ?_
      rw [h.working]
      exact hapart source hsource
    · rw [← h.now]
      exact h'.own source hsource
  others place hplace := by
    rw [List.forall_mem_append] at hplace
    have hafter := h'.others place
    rw [h.working] at hafter
    exact (hafter hplace.2).trans (h.others place hplace.1)

/-- Sources that are kept in different places are written one after the other, up to the first one that
fails. -/
theorem fetchSources_cases (web : Web) (directory : Path) (h : s.files.WellFormed)
    (hnodup : (sources.map fun source => (source.target directory).resolve s.files.working).Nodup) :
    ∃ t, (fetchSources web directory sources s =
          .ok (sources.map fun source => source.target directory) t ∧
        Fetched web directory sources s.files t.files) ∨
      ∃ e before source after u, sources = before ++ source :: after ∧
        fetchSources web directory sources s = .error e t ∧
        fetchSources web directory before s =
          .ok (before.map fun source => source.target directory) u ∧
        fetchSource web directory source u = .error e t ∧
        Fetched web directory before s.files t.files := by
  induction sources generalizing s with
  | nil => exact ⟨s, .inl ⟨rfl, .refl web directory h⟩⟩
  | cons source sources ih =>
    rw [List.map_cons, List.nodup_cons] at hnodup
    obtain ⟨t, ⟨hfetch, hfetched⟩ | ⟨e, hfetch, hfetched⟩⟩ := fetchSource_cases web directory source h
    · have hnodup' := hnodup.2
      rw [← hfetched.working] at hnodup'
      have apart : ∀ other ∈ sources,
          (source.target directory).resolve s.files.working ≠
            (other.target directory).resolve s.files.working :=
        fun other hother he => hnodup.1 (he ▸ List.mem_map_of_mem hother)
      obtain ⟨u, ⟨hrest, hothers⟩ | ⟨e, before, last, after, v, rfl, herror, hbefore, hlast, hothers⟩⟩ :=
        ih hfetched.wellFormed hnodup'
      · refine ⟨u, .inl ⟨(Action.bind_ok hfetch).trans (Action.bind_ok hrest), ?_⟩⟩
        exact hfetched.append hothers (List.forall_mem_singleton.mpr apart)
      · refine ⟨u, .inr ⟨e, source :: before, last, after, v, rfl, ?_, ?_, hlast, ?_⟩⟩
        · exact (Action.bind_ok hfetch).trans (Action.bind_error herror)
        · exact (Action.bind_ok hfetch).trans (Action.bind_ok hbefore)
        · refine hfetched.append hothers (List.forall_mem_singleton.mpr fun other hother => ?_)
          exact apart other (List.mem_append_left _ hother)
    · exact ⟨t, .inr ⟨e, [], source, sources, s, rfl, Action.bind_error hfetch, rfl, hfetch, hfetched⟩⟩

/-- Where the names of a configuration keep its sources in different places of the target directory, in a
file tree without links, only files below it are changed, and each file that is given back holds the text
of its own source. If a source cannot be fetched, those before it have been written, and no other file
has. -/
theorem fetchSources_confined [YamlFormat] (web : Web) (directory : Path) {text : String} {config : Config}
    (hparse : Config.parse text = .ok config) (hconfined : Confined config.remoteSources)
    (h : s.files.WellFormed) :
    (∀ paths t, fetchSources web directory config.remoteSources s = .ok paths t →
      paths = config.remoteSources.map (fun source => source.target directory) ∧
      Fetched web directory config.remoteSources s.files t.files ∧
      ∀ place, t.files.file? place ≠ s.files.file? place →
        ∃ names, names ≠ [] ∧ place = directory.resolve s.files.working ++ names) ∧
    ∀ e t, fetchSources web directory config.remoteSources s = .error e t →
      ∃ before source after u, config.remoteSources = before ++ source :: after ∧
        fetchSources web directory before s =
          .ok (before.map fun source => source.target directory) u ∧
        fetchSource web directory source u = .error e t ∧
        Fetched web directory before s.files t.files := by
  obtain ⟨u, ⟨hok, hfetched⟩ | ⟨e, before, source, after, v, hsources, herror, hrun⟩⟩ :=
    fetchSources_cases web directory h
      (hconfined.nodup_targets (nodup_names hparse) directory s.files.working)
  · refine ⟨fun paths t ht => ?_, fun e t ht => ?_⟩
    · cases hok.symm.trans ht
      refine ⟨rfl, hfetched, fun place hplace => ?_⟩
      by_contra hbelow
      refine hplace (hfetched.others place fun source hsource he => hbelow ?_)
      obtain ⟨names, hnames⟩ := Option.isSome_iff_exists.mp (hconfined.inside source hsource)
      exact ⟨names, place?_ne_nil hnames,
        he.trans (resolve_target hnames directory s.files.working)⟩
    · cases hok.symm.trans ht
  · refine ⟨fun paths t ht => ?_, fun e' t ht => ?_⟩
    · cases herror.symm.trans ht
    · cases herror.symm.trans ht
      exact ⟨before, source, after, v, hsources, hrun⟩

/-- A web that has under every URL a text of its own. -/
def echo : Web := fun url => .response 200 url

/-- Two sources in the target directory, one of them in a directory of its own. -/
def shelved : List RemoteSource := [⟨"a", "http://h/1"⟩, ⟨"n/b", "http://h/2"⟩]

def shelvedText : String :=
  "build-directory: b\nremote-sources:\n- name: a\n  url: http://h/1\n" ++
    "- name: n/b\n  url: http://h/2\n"

theorem parse_shelvedText : Config.parse shelvedText = .ok ⟨"b", defaultSyncDirectory, shelved⟩ := by
  have hread : Yaml.read shelvedText = .ok (Config.toYaml ⟨"b", defaultSyncDirectory, shelved⟩) :=
    read_of_tokens (List.cons_ne_nil _ _) (Source.result_eq_ok (by decide +kernel)) rfl
  exact parse_of_read hread (by decide +kernel)

/-- A web that has only the first of these sources. -/
def lone : Web := fun url =>
  if url = "http://h/1" then .response 200 url else .response 404 ""

theorem exists_of_run' {α : Type} {x : Action α} {a : α} (h : x.run' s = some a) :
    ∃ t, x s = .ok a t := by
  delta EStateM.run' EStateM.run at h
  split at h
  next hx =>
    cases h
    exact ⟨_, hx⟩
  · cases h

theorem fetchSources_confined_shelved :
    Config.parse shelvedText = .ok ⟨"b", defaultSyncDirectory, shelved⟩ ∧ Confined shelved ∧
    FileTree.bare.WellFormed ∧
    (∃ t, fetchSources echo (.ofString "t") shelved { files := .bare } =
        .ok [.ofString "t/a.psp", .ofString "t/n/b.psp"] t ∧
      Fetched echo (.ofString "t") shelved .bare t.files ∧
      ∀ place, t.files.file? place ≠ FileTree.bare.file? place →
        ∃ names, names ≠ [] ∧ place = ["t"] ++ names) ∧
    ∃ e t, fetchSources lone (.ofString "t") shelved { files := .bare } = .error e t ∧
      ∃ before source after u, shelved = before ++ source :: after ∧
        fetchSources lone (.ofString "t") before { files := .bare } =
          .ok (before.map fun source => source.target (.ofString "t")) u ∧
        fetchSource lone (.ofString "t") source u = .error e t ∧
        Fetched lone (.ofString "t") before .bare t.files := by
  have hconfined : Confined shelved := by decide +kernel
  obtain ⟨written, -⟩ := fetchSources_confined (s := { files := .bare }) echo (.ofString "t")
    parse_shelvedText hconfined FileTree.wellFormed_bare
  obtain ⟨-, failed⟩ := fetchSources_confined (s := { files := .bare }) lone (.ofString "t")
    parse_shelvedText hconfined FileTree.wellFormed_bare
  obtain ⟨t, ht⟩ : ∃ t, fetchSources echo (.ofString "t") shelved { files := .bare } =
      .ok [.ofString "t/a.psp", .ofString "t/n/b.psp"] t := exists_of_run' (by decide +kernel)
  obtain ⟨-, hfetched, hbelow⟩ := written _ t ht
  refine ⟨parse_shelvedText, hconfined, FileTree.wellFormed_bare, ⟨t, ht, hfetched, hbelow⟩, ?_⟩
  have hnone : (fetchSources lone (.ofString "t") shelved).run' { files := .bare } = none := by
    decide +kernel
  cases hu : fetchSources lone (.ofString "t") shelved { files := .bare } with
  | ok paths u =>
    delta EStateM.run' EStateM.run at hnone
    rw [hu] at hnone
    cases hnone
  | error e u => exact ⟨e, u, rfl, failed e u hu⟩

/-- Two sources with one place, and one whose name leads out of the target directory. -/
def strayed : List RemoteSource :=
  [⟨"a", "http://h/1"⟩, ⟨"./a", "http://h/2"⟩, ⟨"../x", "http://h/3"⟩]

def strayedText : String :=
  "build-directory: b\nremote-sources:\n- name: a\n  url: http://h/1\n" ++
    "- name: ./a\n  url: http://h/2\n- name: ../x\n  url: http://h/3\n"

/-- Such a configuration is accepted. Then the second source is written over the first one, and the last
one outside of the target directory. -/
theorem not_fetched_strayed :
    Config.parse strayedText = .ok ⟨"b", defaultSyncDirectory, strayed⟩ ∧
    ∃ t, fetchSources echo (.ofString "t") strayed { files := .bare } =
        .ok [.ofString "t/a.psp", .ofString "t/a.psp", .ofString "t/../x.psp"] t ∧
      t.files.textAt? ["t", "a.psp"] = some "http://h/2" ∧
      t.files.textAt? ["x.psp"] = some "http://h/3" ∧ FileTree.bare.textAt? ["x.psp"] = none ∧
      Path.isBelow ["t"] ["x.psp"] = false := by
  have hread : Yaml.read strayedText = .ok (Config.toYaml ⟨"b", defaultSyncDirectory, strayed⟩) :=
    read_of_tokens (List.cons_ne_nil _ _) (Source.result_eq_ok (by decide +kernel)) rfl
  have hparse : Config.parse strayedText = .ok ⟨"b", defaultSyncDirectory, strayed⟩ :=
    parse_of_read hread (by decide +kernel)
  obtain ⟨t, ht⟩ : ∃ t, (fetchSources echo (.ofString "t") strayed >>= fun paths => do
      let s ← get
      pure (paths, s.files.textAt? ["t", "a.psp"], s.files.textAt? ["x.psp"]))
      { files := .bare } = .ok ([.ofString "t/a.psp", .ofString "t/a.psp", .ofString "t/../x.psp"],
        some "http://h/2", some "http://h/3") t := exists_of_run' (by decide +kernel)
  refine ⟨hparse, t, ?_⟩
  cases hrun : fetchSources echo (.ofString "t") strayed { files := .bare } with
  | error e u =>
    cases (Action.bind_error hrun).symm.trans ht
  | ok paths u =>
    have hu : EStateM.Result.ok (paths, u.files.textAt? ["t", "a.psp"], u.files.textAt? ["x.psp"]) u =
      .ok _ t := (Action.bind_ok hrun).symm.trans ht
    simp only [EStateM.Result.ok.injEq, Prod.mk.injEq] at hu
    obtain ⟨⟨rfl, ha, hx⟩, rfl⟩ := hu
    exact ⟨rfl, ha, hx, rfl, by decide⟩

end Fetching

end Workspace

end ContextRoles
