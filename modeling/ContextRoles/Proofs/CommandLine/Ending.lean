import ContextRoles.CommandLine.Run
import ContextRoles.Proofs.Lexeme.Literal
import ContextRoles.Proofs.Source.Totality
import ContextRoles.Proofs.Workspace.Failure
import ContextRoles.Proofs.Workspace.Rendering
import Mathlib.Data.List.Basic

/-! # How commands end

Parsing and fetching end with a status of zero, or complain of an error and end with a status of one.
Other failures are left to the caller: a file of bytes that are no text, a URL that cannot be asked for, a
place that cannot even be looked at, a path with the null character and a fetched file that is not below
the directory of the workspace. What is printed has no surrogates. An escape may name one all the same,
and texts where this matters are set apart by name.
-/

namespace ContextRoles.CommandLine

open Files Workspace

variable {α β : Type} {env : Surroundings} {web : Web} {s t u : Session} {place directory : Path}

/-- A quoted scalar in a text has an escape with the code point of a surrogate. -/
def NamesSurrogate (text : List Char) : Prop :=
  ∃ before letter digits rest, text = before ++ '\\' :: letter :: (digits ++ rest) ∧
    Yaml.escapeWidth? letter = some digits.length ∧ digits.all Yaml.isHexDigit = true ∧
    Lexeme.Literal.IsSurrogate (Lexeme.digitsValue 16 digits)

theorem not_namesSurrogate {text : List Char} (h : '\\' ∉ text) : ¬ NamesSurrogate text := by
  rintro ⟨before, letter, digits, rest, rfl, -⟩
  simp at h

section Notices

def Calm (s t : Session) : Prop :=
  ∃ kept, (∀ line, Notice.complaint line ∉ kept) ∧ t.notices = s.notices ++ kept

theorem Calm.of_notices (h : t.notices = s.notices) : Calm s t := ⟨[], nofun, by simp [h]⟩

theorem Calm.refl (s : Session) : Calm s s := .of_notices rfl

theorem Calm.trans (h : Calm s t) (h' : Calm t u) : Calm s u := by
  obtain ⟨kept, hkept, ht⟩ := h
  obtain ⟨kept', hkept', hu⟩ := h'
  refine ⟨kept ++ kept', fun line hmem => ?_, by rw [hu, ht, List.append_assoc]⟩
  exact (List.mem_append.mp hmem).elim (hkept line) (hkept' line)

theorem Calm.log (s : Session) (e : Event) :
    Calm s { s with notices := s.notices ++ [.event e] } := ⟨[.event e], by simp, rfl⟩

theorem Calm.print (s : Session) (line : String) :
    Calm s { s with notices := s.notices ++ [.output line] } := ⟨[.output line], by simp, rfl⟩

/-- A command ends, with a status of zero if it complained of nothing, or of one if it complained of an
error at last. -/
def Settles (x : Action Nat) (s : Session) : Prop :=
  ∃ status t, x s = .ok status t ∧
    (status = 0 ∧ Calm s t ∨
      status = failureStatus ∧ ∃ u, ∃ line : String, Calm s u ∧
        t.notices = u.notices ++ [.complaint s!"Error: {line}"])

theorem settles_pure (h : Calm s t) {x : Action Nat} (hx : x s = .ok 0 t) : Settles x s :=
  ⟨0, t, hx, .inl ⟨rfl, h⟩⟩

theorem settles_giveUp (h : Calm s t) {x : Action Nat} {line : String}
    (hx : x s = giveUp line t) : Settles x s :=
  ⟨failureStatus, { t with notices := t.notices ++ [.complaint s!"Error: {line}"] }, hx,
    .inr ⟨rfl, t, line, h, rfl⟩⟩

def events (notices : List Notice) : List Event := notices.filterMap fun
  | .event e => some e
  | _ => none

theorem errors_of_calm (verbose : Bool) (status : Nat) {kept : List Notice}
    (h : ∀ line, Notice.complaint line ∉ kept) :
    (Result.ofNotices verbose kept status).errors =
      linesOf ((events kept).filterMap (logLine? verbose)) := by
  unfold Result.ofNotices events
  rw [List.filterMap_filterMap]
  refine congrArg linesOf (List.filterMap_congr fun n hn => ?_)
  cases n with
  | event e => rfl
  | output line => rfl
  | complaint line => exact absurd hn (h line)

theorem errors_concat (verbose : Bool) (status : Nat) {kept : List Notice} (line : String)
    (h : ∀ line, Notice.complaint line ∉ kept) :
    (Result.ofNotices verbose (kept ++ [.complaint line]) status).errors =
      linesOf ((events kept).filterMap (logLine? verbose) ++ [line]) := by
  have hcalm := errors_of_calm verbose status h
  simp only [Result.ofNotices, linesOf, List.filterMap_append, List.map_append,
    String.join_append] at hcalm ⊢
  rw [hcalm]
  rfl

end Notices

section Parsing

theorem attempt_ok {x : Action α} {y : Except Failure α → Action β} {a : α} (h : x s = .ok a t) :
    (Action.attempt x >>= y) s = y (.ok a) t :=
  Action.bind_ok (by rw [Action.attempt, h])

theorem attempt_error {x : Action α} {y : Except Failure α → Action β} {e : Failure}
    (h : x s = .error e t) : (Action.attempt x >>= y) s = y (.error e) t :=
  Action.bind_ok (by rw [Action.attempt, h])

/-- An action gives a result or fails as a source does, without a complaint. -/
def Loads (x : Action α) (s : Session) (P : α → Prop) : Prop :=
  ∃ t, Calm s t ∧ ((∃ a, x s = .ok a t ∧ P a) ∨ ∃ e, x s = .error (.source e) t)

theorem loads_request {url : String} (s : Session) (h : ∀ reason, web url ≠ .malformed reason) :
    Loads (request web url) s fun _ => True := by
  refine ⟨_, .log s (.requesting url), ?_⟩
  unfold request
  rw [Action.log_bind]
  cases hanswer : web url with
  | malformed reason => exact absurd hanswer (h reason)
  | failure reason => exact .inr ⟨_, rfl⟩
  | response status body =>
    cases hstatus : isSuccess status with
    | true => exact .inl ⟨body, by simp only [hstatus]; rfl, trivial⟩
    | false => exact .inr ⟨.badStatus url status, by simp only [hstatus]; rfl⟩

/-- The path has no null character, and no file of bytes that are no text is there. -/
structure Readable (t : FileTree) (p : Path) : Prop where
  noNull : p.hasNull = false
  decodable : t.readText p ≠ .error .undecodable

/-- A source is loaded without a failure other than its own, and what is read of it can be printed. Without
indentation all that is printed is ASCII. -/
structure Parsable (env : Surroundings) (s : Session) (source : String) (indent : Int) : Prop where
  readable : isUrl source = false → Readable s.files (.ofString source)
  askable : isUrl source = true → ∀ reason, env.web source ≠ .malformed reason
  printable : indent ≠ 0 → ∀ text t, loadSource env.web source s = .ok text t →
    ¬ Lexeme.Literal.NamesSurrogate text.toList

theorem loads_source {location : String}
    (h : isUrl location = false → Readable s.files (.ofString location))
    (hweb : isUrl location = true → ∀ reason, web location ≠ .malformed reason) :
    Loads (loadSource web location) s fun _ => True := by
  unfold loadSource
  cases hurl : isUrl location with
  | true => exact loads_request s (hweb hurl)
  | false =>
    refine ⟨s, .refl s, ?_⟩
    rw [if_neg Bool.false_ne_true]
    unfold loadFile
    cases hread : s.files.readText (.ofString location) with
    | ok text => exact .inl ⟨text, rfl, trivial⟩
    | error e =>
      have hsystem := FileTree.isOfSystem_of_readText (h hurl).noNull (h hurl).decodable hread
      exact .inr ⟨.unreadable location e, by simp only [hsystem, if_true]⟩

theorem settles_parse {source : String} {indent : Int} (h : Parsable env s source indent) :
    Settles (runParse env source indent) s := by
  obtain ⟨t, hcalm, ⟨text, htext, -⟩ | ⟨e, he⟩⟩ := loads_source h.readable h.askable
  · have hrun : runParse env source indent s = _ := (attempt_ok htext).trans
      (Action.readSource_bind env.ids text _ t)
    cases hresult : (Source.read env.ids t.drawn text).result with
    | error e =>
      rw [hresult] at hrun
      refine settles_giveUp ?_ hrun
      exact hcalm.trans (.of_notices rfl)
    | ok c =>
      rw [hresult] at hrun
      refine settles_pure ?_ hrun
      exact hcalm.trans (.trans (.of_notices rfl) (.print _ _))
  · exact settles_giveUp hcalm (attempt_error he)

end Parsing

section Fetching

/-- The directory that an argument means. -/
def placeOf (working : Location) (directory : String) : Path :=
  .ofLocation ((Path.ofString directory).resolve working)

def configFile (place : Path) : Path := place.child configFileName

theorem resolveDirectory_eq {directory : String} (h : (Path.ofString directory).hasNull = false)
    (hpresent : (Path.ofString directory).anchor = .working →
      s.files.isDirectoryAt s.files.working = true) :
    resolveDirectory directory s = .ok (placeOf s.files.working directory) s := by
  have hthere : ¬ ((Path.ofString directory).anchor = .working ∧
      ¬ s.files.isDirectoryAt s.files.working = true) := fun hgone => hgone.2 (hpresent hgone.1)
  show (if (Path.ofString directory).hasNull then _ else _ : Action Path) s = _
  rw [h, if_neg Bool.false_ne_true]
  show (if _ then _ else _ : Action Path) s = _
  rw [if_neg hthere]
  rfl

theorem fileExists_bind {p : Path} {found : Bool} {y : Bool → Action β}
    (h : s.files.exists? p = .ok found) : (fileExists p >>= y) s = y found s :=
  Action.bind_ok (by rw [fileExists, Action.query, h])

theorem loads_fetchSource {source : RemoteSource} {directory : Path} (s : Session)
    (hweb : ∀ reason, web source.url ≠ .malformed reason)
    (hnull : (source.target directory).hasNull = false) :
    Loads (fetchSource web directory source) s fun file => file = source.target directory := by
  obtain ⟨t, hcalm, ⟨text, hrequest, -⟩ | ⟨e, he⟩⟩ := loads_request s hweb
  · have hfetch : fetchSource web directory source s = _ := Action.bind_ok hrequest
    cases hstore : t.files.store (source.target directory) text with
    | mk result files =>
      cases result with
      | ok _ =>
        have hlogged := Calm.log { t with files } (.fetched source.url (source.target directory))
        refine ⟨_, hcalm.trans (.trans (.of_notices rfl) hlogged), .inl ⟨_, ?_, rfl⟩⟩
        exact hfetch.trans (Action.bind_ok (Action.change_ok _ hstore))
      | error e =>
        have hsystem := FileTree.isOfSystem_of_store hnull (congrArg Prod.fst hstore)
        have hchange := Action.change_error (f := fun t => t.store (source.target directory) text)
          (unwritable (source.target directory)) hstore
        rw [unwritable, if_pos hsystem] at hchange
        exact ⟨{ t with files }, hcalm.trans (.of_notices rfl),
          .inr ⟨_, hfetch.trans (Action.bind_error hchange)⟩⟩
  · exact ⟨t, hcalm, .inr ⟨e, Action.bind_error he⟩⟩

theorem loads_fetchSources {sources : List RemoteSource} {directory : Path} (s : Session)
    (hweb : ∀ source ∈ sources, ∀ reason, web source.url ≠ .malformed reason)
    (hnull : ∀ source ∈ sources, (source.target directory).hasNull = false) :
    Loads (fetchSources web directory sources) s fun files =>
      files = sources.map fun source => source.target directory := by
  induction sources generalizing s with
  | nil => exact ⟨s, .refl s, .inl ⟨[], rfl, rfl⟩⟩
  | cons source sources ih =>
    rw [List.forall_mem_cons] at hnull hweb
    obtain ⟨t, hcalm, ⟨file, hfile, rfl⟩ | ⟨e, he⟩⟩ := loads_fetchSource s hweb.1 hnull.1
    · obtain ⟨u, hcalm', ⟨files, hfiles, rfl⟩ | ⟨e, he⟩⟩ := ih t hweb.2 hnull.2
      · refine ⟨u, hcalm.trans hcalm', .inl ⟨_, ?_, rfl⟩⟩
        exact (Action.bind_ok hfile).trans (Action.bind_ok hfiles)
      · exact ⟨u, hcalm.trans hcalm', .inr ⟨e, (Action.bind_ok hfile).trans (Action.bind_error he)⟩⟩
    · exact ⟨t, hcalm, .inr ⟨e, Action.bind_error he⟩⟩

theorem listFiles_eq {files : List Path} (s : Session)
    (h : ∀ file ∈ files, (file.relativeTo? directory).isSome) :
    ∃ t, listFiles directory files s = .ok () t ∧ Calm s t ∧ t.files = s.files := by
  induction files generalizing s with
  | nil => exact ⟨s, rfl, .refl s, rfl⟩
  | cons file files ih =>
    rw [List.forall_mem_cons] at h
    obtain ⟨path, hpath⟩ := Option.isSome_iff_exists.mp h.1
    obtain ⟨t, ht, hcalm, hfiles⟩ :=
      ih { s with notices := s.notices ++ [.output s!"  {path.render}"] } h.2
    refine ⟨t, ?_, .trans (.print s s!"  {path.render}") hcalm, hfiles⟩
    rw [listFiles, hpath]
    exact ht

variable [YamlFormat]

def fetchedFile (place : Path) (config : Config) (source : RemoteSource) : Path :=
  source.target (place.child config.remoteSyncDirectory)

/-- A workspace is looked for in a directory, and its configuration read, without a failure other than its
own. All sources in it can be asked for, their files are kept below the directory, and their names can be
printed. -/
structure Fetchable (web : Web) (t : FileTree) (directory : String) : Prop where
  noNull : (Path.ofString directory).hasNull = false
  present : (Path.ofString directory).anchor = .working → t.isDirectoryAt t.working = true
  answers : ∃ found, t.exists? (placeOf t.working directory) = .ok found
  finds : t.exists? (placeOf t.working directory) = .ok true →
    ∃ found, t.exists? (configFile (placeOf t.working directory)) = .ok found
  decodable : t.readText (configFile (placeOf t.working directory)) ≠ .error .undecodable
  sensible : ∀ text, t.readText (configFile (placeOf t.working directory)) = .ok text →
    ∀ scalar, YamlFormat.read text ≠ .error (.badScalar scalar)
  printable : ∀ text config, t.readText (configFile (placeOf t.working directory)) = .ok text →
    Config.parse text = .ok config → ¬ NamesSurrogate text.toList
  askable : ∀ config, Config.load t (configFile (placeOf t.working directory)) = .ok config →
    ∀ source ∈ config.remoteSources, ∀ reason, web source.url ≠ .malformed reason
  contained : ∀ config, Config.load t (configFile (placeOf t.working directory)) = .ok config →
    ∀ source ∈ config.remoteSources,
      (fetchedFile (placeOf t.working directory) config source).hasNull = false ∧
      ((fetchedFile (placeOf t.working directory) config source).relativeTo?
        (placeOf t.working directory)).isSome

theorem openWorkspace_of_exists (hplace : s.files.exists? place = .ok true)
    (hfile : s.files.exists? (configFile place) = .ok true) :
    openWorkspace place s = match Config.load s.files (configFile place) with
      | .ok config => .ok (some config) s
      | .error (.config e) =>
        .ok none { s with notices := s.notices ++ [.complaint s!"Error: {e.message}"] }
      | .error failure => .error failure s := by
  have hopen : openWorkspace place s = _ := (fileExists_bind hplace).trans (fileExists_bind hfile)
  rw [hopen]
  show (match Config.load s.files (configFile place) with
    | .ok config => (pure (some config) : Action (Option Config))
    | .error (.config e) => complain e.message >>= fun _ => pure none
    | .error failure => throw failure) s = _
  rcases Config.load s.files (configFile place) with (_ | _ | _ | _ | _ | _ | _ | _) | _ <;> rfl

theorem openWorkspace_cases {directory : String} (h : Fetchable web s.files directory) :
    (∃ config, openWorkspace (placeOf s.files.working directory) s = .ok (some config) s ∧
      Config.load s.files (configFile (placeOf s.files.working directory)) = .ok config) ∨
    ∃ line : String, openWorkspace (placeOf s.files.working directory) s =
      .ok none { s with notices := s.notices ++ [.complaint s!"Error: {line}"] } := by
  obtain ⟨found, hplace⟩ := h.answers
  cases found with
  | false => exact .inr ⟨_, fileExists_bind hplace⟩
  | true =>
    obtain ⟨found, hfile⟩ := h.finds hplace
    cases found with
    | false => exact .inr ⟨_, (fileExists_bind hplace).trans (fileExists_bind hfile)⟩
    | true =>
      rw [openWorkspace_of_exists hplace hfile]
      have hnull := FileTree.hasNull_of_exists? hfile
      rcases load_cases hnull h.decodable h.sensible with ⟨config, hload⟩ | ⟨e, hload⟩
      · exact .inl ⟨config, by rw [hload], hload⟩
      · exact .inr ⟨e.message, by rw [hload]⟩

theorem runFetch_of_opened {directory : String} (hnull : (Path.ofString directory).hasNull = false)
    (hpresent : (Path.ofString directory).anchor = .working →
      s.files.isDirectoryAt s.files.working = true) {config : Config}
    (hopen : openWorkspace (placeOf s.files.working directory) s = .ok (some config) s)
    (hne : config.remoteSources ≠ []) {files : List Path}
    (hfetch : fetchSources env.web
      ((placeOf s.files.working directory).child config.remoteSyncDirectory) config.remoteSources s =
        .ok files t) :
    ∃ line, runFetch env directory s =
      (listFiles (placeOf s.files.working directory) files >>= fun _ =>
        print line >>= fun _ => pure 0) t := by
  have hrun : runFetch env directory s = _ :=
    (Action.bind_ok (resolveDirectory_eq hnull hpresent)).trans (Action.bind_ok hopen)
  dsimp only at hrun
  rw [if_neg (mt List.isEmpty_iff.mp hne)] at hrun
  exact ⟨_, hrun.trans (attempt_ok hfetch)⟩

theorem runFetch_of_fetched {directory : String}
    (h : Fetchable env.web s.files directory) {config : Config}
    (hopen : openWorkspace (placeOf s.files.working directory) s = .ok (some config) s)
    (hload : Config.load s.files (configFile (placeOf s.files.working directory)) = .ok config)
    {files : List Path}
    (hfetch : fetchSources env.web
      ((placeOf s.files.working directory).child config.remoteSyncDirectory) config.remoteSources s =
        .ok files t) :
    ∃ u, runFetch env directory s = .ok 0 u ∧ Calm s u ∧ u.files = t.files := by
  have hcontained := h.contained config hload
  by_cases hempty : config.remoteSources = []
  · have hrun : runFetch env directory s = _ :=
      (Action.bind_ok (resolveDirectory_eq h.noNull h.present)).trans (Action.bind_ok hopen)
    dsimp only at hrun
    rw [hempty] at hfetch
    cases hfetch
    rw [if_pos (List.isEmpty_iff.mpr hempty)] at hrun
    exact ⟨_, hrun, .print s _, rfl⟩
  · obtain ⟨line, hrun⟩ := runFetch_of_opened h.noNull h.present hopen hempty hfetch
    obtain ⟨_, hcalm, ⟨_, hfetch', rfl⟩ | ⟨e, he⟩⟩ :=
      loads_fetchSources s (h.askable config hload) fun source hsource => (hcontained source hsource).1
    · cases hfetch'.symm.trans hfetch
      have hbelow : ∀ file ∈ config.remoteSources.map
          (fetchedFile (placeOf s.files.working directory) config),
          (file.relativeTo? (placeOf s.files.working directory)).isSome :=
        List.forall_mem_map.mpr fun source hsource => (hcontained source hsource).2
      obtain ⟨u, hlist, hcalm', hfiles⟩ := listFiles_eq t hbelow
      refine ⟨_, hrun.trans (Action.bind_ok hlist), ?_, hfiles⟩
      exact hcalm.trans (hcalm'.trans (.print u line))
    · cases he.symm.trans hfetch

theorem settles_fetch {directory : String} (h : Fetchable env.web s.files directory) :
    Settles (runFetch env directory) s := by
  rcases openWorkspace_cases h with ⟨config, hopen, hload⟩ | ⟨line, hline⟩
  · obtain ⟨t, hcalm, ⟨files, hfetch, -⟩ | ⟨e, he⟩⟩ :=
      loads_fetchSources s (h.askable config hload) fun source hsource =>
        (h.contained config hload source hsource).1
    · obtain ⟨u, hu, hcalm', -⟩ := runFetch_of_fetched h hopen hload hfetch
      exact settles_pure hcalm' hu
    · have hrun : runFetch env directory s = _ :=
        (Action.bind_ok (resolveDirectory_eq h.noNull h.present)).trans (Action.bind_ok hopen)
      dsimp only at hrun
      have hne : ¬ config.remoteSources.isEmpty = true := by
        intro hempty
        rw [List.isEmpty_iff.mp hempty] at he
        cases he
      rw [if_neg hne] at hrun
      exact settles_giveUp hcalm (hrun.trans (attempt_error he))
  · have hrun : runFetch env directory s = _ :=
      (Action.bind_ok (resolveDirectory_eq h.noNull h.present)).trans (Action.bind_ok hline)
    exact ⟨failureStatus, _, hrun, .inr ⟨rfl, s, line, .refl s, rfl⟩⟩

end Fetching

section Program

variable [YamlFormat] [Artifact.FieldChecks]

/-- The program ends. Its status is zero and its error channel has the log, or its status is one and
there is an error behind the log. -/
def Ends (env : Surroundings) (verbose : Bool) (arguments : List String) (s : Session) : Prop :=
  ∃ result t, ∃ log : List Event, run env arguments s = .ok result t ∧
    (result.status = 0 ∧ result.errors = linesOf (log.filterMap (logLine? verbose)) ∨
      result.status = 1 ∧ ∃ line : String,
        result.errors = linesOf (log.filterMap (logLine? verbose) ++ [s!"Error: {line}"]))

theorem run_eq {verbose : Bool} {command : Command} {arguments : List String} {status : Nat}
    (hread : Invocation.ofArguments arguments = .ok ⟨verbose, some command⟩)
    (h : command.run env { s with notices := [] } = .ok status t) :
    run env arguments s = .ok (.ofNotices verbose t.notices status) t := by
  rw [run, hread]
  exact Action.bind_ok h

theorem ends_of_settles {verbose : Bool} {command : Command} {arguments : List String}
    (hread : Invocation.ofArguments arguments = .ok ⟨verbose, some command⟩)
    (h : Settles (command.run env) { s with notices := [] }) : Ends env verbose arguments s := by
  obtain ⟨status, t, hrun, ⟨rfl, kept, hkept, ht⟩ | ⟨rfl, u, line, ⟨kept, hkept, hu⟩, ht⟩⟩ := h
  · refine ⟨_, t, events kept, run_eq hread hrun, .inl ⟨rfl, ?_⟩⟩
    rw [ht]
    exact errors_of_calm verbose 0 hkept
  · refine ⟨_, t, events kept, run_eq hread hrun, .inr ⟨rfl, line, ?_⟩⟩
    rw [ht, hu]
    exact errors_concat verbose failureStatus _ hkept

/-- Parsing and fetching end with a status of zero, or of one after an error, in a file tree without
links. Set apart are files of bytes that are no text, malformed URLs, places that cannot be looked at, the
null character in a path, surrogates that would be printed and remote sources that are kept outside of the
directory. Once all files are fetched the status is zero. Reading a source does not stall, so what is
wrong with it is an error in its text. -/
theorem parse_and_fetch_end (env : Surroundings) (s : Session) (verbose : Bool)
    (arguments : List String) :
    (∀ source indent, Invocation.ofArguments arguments = .ok ⟨verbose, some (.parse source indent)⟩ →
      Parsable env { s with notices := [] } source indent → Ends env verbose arguments s) ∧
    (∀ drawn text, Source.sourceFile env.ids { Parsing.State.start text with drawn } ≠ .stalled) ∧
    ∀ directory, Invocation.ofArguments arguments = .ok ⟨verbose, some (.fetch directory)⟩ →
      Fetchable env.web s.files directory →
      Ends env verbose arguments s ∧
      ∀ config files t u,
        openWorkspace (placeOf s.files.working directory) { s with notices := [] } =
          .ok (some config) t →
        fetchSources env.web
          ((placeOf s.files.working directory).child config.remoteSyncDirectory)
          config.remoteSources t = .ok files u →
        ∃ result v, run env arguments s = .ok result v ∧ result.status = 0 ∧ v.files = u.files := by
  refine ⟨fun source indent hread h => ends_of_settles hread (settles_parse h),
    fun drawn text => Source.total_sourceFile env.ids _ (Parsing.State.sound_start text), ?_⟩
  intro directory hread h
  refine ⟨ends_of_settles hread (settles_fetch h), fun config files t u hopened hfetch => ?_⟩
  rcases openWorkspace_cases (s := { s with notices := [] }) h with ⟨_, hopen, hload⟩ | ⟨line, hline⟩
  · cases hopen.symm.trans hopened
    obtain ⟨v, hv, -, hfiles⟩ :=
      runFetch_of_fetched (s := { s with notices := [] }) h hopen hload hfetch
    exact ⟨_, v, run_eq hread hv, rfl, hfiles⟩
  · cases hline.symm.trans hopened

theorem not_ends_of_error {verbose : Bool} {command : Command} {arguments : List String} {e : Failure}
    (hread : Invocation.ofArguments arguments = .ok ⟨verbose, some command⟩) (hs : s.notices = [])
    (h : command.run env s = .error e t) : ¬ Ends env verbose arguments s := by
  have hstart : ({ s with notices := [] } : Session) = s := by rw [← hs]
  rintro ⟨result, u, log, hrun, -⟩
  rw [← hstart] at h
  rw [run, hread] at hrun
  cases (Action.bind_error h).symm.trans hrun

end Program

/-- A configuration with a remote source that is kept below one place, wherever the workspace is. -/
def sharedConfigText : String :=
  "build-directory: b\nremote-sync-directory: /ws/r\nremote-sources:\n- name: n\n  url: http://h/n\n"

def sharedYaml : Yaml :=
  .map [(.str "build-directory", .str "b"), (.str "remote-sync-directory", .str "/ws/r"),
    (.str "remote-sources", .seq [.map [(.str "name", .str "n"), (.str "url", .str "http://h/n")]])]

def sharedConfig : Config := ⟨"b", "/ws/r", [⟨"n", "http://h/n"⟩]⟩

/-- A text and a file that is none, and three workspaces. Two of them have one configuration, and the
third has one that is no text. -/
def shelves : Session where
  files :=
    { entries :=
        [(["a.psp"], ⟨.file (.text ":doos :A\n"), 0⟩), (["b.psp"], ⟨.file .undecodable, 0⟩),
          (["ws"], ⟨.directory, 0⟩), (["ws", configFileName], ⟨.file (.text sharedConfigText), 0⟩),
          (["other"], ⟨.directory, 0⟩),
          (["other", configFileName], ⟨.file (.text sharedConfigText), 0⟩),
          (["bad"], ⟨.directory, 0⟩), (["bad", configFileName], ⟨.file .undecodable, 0⟩)]
      nodup := by decide +kernel }

def answering : Surroundings where
  ids := Source.tally
  web _ := .response 200 ":kist :B\n"

theorem read_sharedConfigText : Yaml.read sharedConfigText = .ok sharedYaml := by
  -- values are read by well-founded recursion, which unfolds by its equations and not by evaluation
  have htokens : Yaml.tokens sharedConfigText = .ok [.blockMappingStart,
      .key, .scalar "build-directory" true, .value, .scalar "b" true,
      .key, .scalar "remote-sync-directory" true, .value, .scalar "/ws/r" true,
      .key, .scalar "remote-sources" true, .value, .blockEntry, .blockMappingStart,
      .key, .scalar "name" true, .value, .scalar "n" true,
      .key, .scalar "url" true, .value, .scalar "http://h/n" true, .blockEnd, .blockEnd] :=
    Source.result_eq_ok (by decide +kernel)
  have hnode : Yaml.ofNode 0 (.mapping .map
      [(.scalar .text "build-directory", .scalar .text "b"),
        (.scalar .text "remote-sync-directory", .scalar .text "/ws/r"),
        (.scalar .text "remote-sources", .sequence .seq [.mapping .map
          [(.scalar .text "name", .scalar .text "n"),
            (.scalar .text "url", .scalar .text "http://h/n")]])]) = .ok sharedYaml := by
    simp only [Yaml.ofNode, Yaml.ofMembers, Yaml.gather, Yaml.ofKey, Yaml.ofItems]
    rfl
  exact read_eq_ok _ _ htokens rfl hnode

theorem parse_sharedConfigText : Config.parse sharedConfigText = .ok sharedConfig :=
  parse_of_read read_sharedConfigText (by decide +kernel)

theorem load_sharedConfig {place : Path} (h : shelves.files.readText place = .ok sharedConfigText) :
    Config.load shelves.files place = .ok sharedConfig := by
  rw [Config.load, h]
  simp only [parse_sharedConfigText]

theorem readText_shelves (workspace : String) (h : workspace = "ws" ∨ workspace = "other") :
    shelves.files.readText (configFile (placeOf shelves.files.working workspace)) =
      .ok sharedConfigText := by
  rcases h with rfl | rfl <;> exact rfl

theorem parsable_shelves : Parsable answering shelves "a.psp" 2 := by
  have hread : shelves.files.readText (.ofString "a.psp") = .ok ":doos :A\n" := rfl
  refine ⟨fun _ => ⟨rfl, by simp [hread]⟩, fun hurl => ?_, fun _ text t hload => ?_⟩
  · exact absurd hurl (by decide +kernel)
  · rw [loadSource, if_neg (by decide +kernel), loadFile, hread] at hload
    cases hload
    exact Lexeme.Literal.not_namesSurrogate (by decide +kernel)

theorem fetchable_shelves : Fetchable answering.web shelves.files "ws" where
  noNull := rfl
  present _ := rfl
  answers := ⟨true, rfl⟩
  finds _ := ⟨true, rfl⟩
  decodable h := by
    rw [readText_shelves "ws" (.inl rfl)] at h
    cases h
  sensible text htext scalar h := by
    rw [readText_shelves "ws" (.inl rfl)] at htext
    cases htext
    cases read_sharedConfigText.symm.trans h
  printable text config htext _ := by
    rw [readText_shelves "ws" (.inl rfl)] at htext
    cases htext
    exact not_namesSurrogate (by decide +kernel)
  askable _ _ _ _ := nofun
  contained config hload := by
    cases (load_sharedConfig (readText_shelves "ws" (.inl rfl))).symm.trans hload
    decide +kernel

theorem opened_shelves (workspace : String) (h : workspace = "ws" ∨ workspace = "other") :
    openWorkspace (placeOf shelves.files.working workspace) shelves =
      .ok (some sharedConfig) shelves := by
  have hfound : shelves.files.exists? (placeOf shelves.files.working workspace) = .ok true ∧
      shelves.files.exists? (configFile (placeOf shelves.files.working workspace)) = .ok true := by
    rcases h with rfl | rfl <;>
      exact ⟨rfl, rfl⟩
  rw [openWorkspace_of_exists hfound.1 hfound.2, load_sharedConfig (readText_shelves workspace h)]

theorem fetched_shelves (place : Path) : ∃ t,
    fetchSources answering.web (place.child sharedConfig.remoteSyncDirectory)
      sharedConfig.remoteSources shelves = .ok [.ofString "/ws/r/n.psp"] t := by
  have hchild : place.child sharedConfig.remoteSyncDirectory = .ofString "/ws/r" := by
    have hr : Path.ofString "/ws/r" = ⟨.top, ["ws", "r"]⟩ := rfl
    rw [show sharedConfig.remoteSyncDirectory = "/ws/r" from rfl, Path.child, hr]
    rfl
  have hrun : (fetchSources answering.web (.ofString "/ws/r") sharedConfig.remoteSources).run' shelves =
      some [.ofString "/ws/r/n.psp"] := by decide +kernel
  rw [hchild]
  delta EStateM.run' EStateM.run at hrun
  cases hfetch : fetchSources answering.web (.ofString "/ws/r") sharedConfig.remoteSources shelves with
  | ok files t =>
    rw [hfetch] at hrun
    exact ⟨t, by rw [Option.some.inj hrun]⟩
  | error e t =>
    rw [hfetch] at hrun
    cases hrun

theorem parse_and_fetch_end_shelves :
    Invocation.ofArguments ["parse", "a.psp"] = .ok ⟨false, some (.parse "a.psp" 2)⟩ ∧
    Parsable answering shelves "a.psp" 2 ∧ Ends answering false ["parse", "a.psp"] shelves ∧
    Invocation.ofArguments ["fetch", "ws"] = .ok ⟨false, some (.fetch "ws")⟩ ∧
    Fetchable answering.web shelves.files "ws" ∧ Ends answering false ["fetch", "ws"] shelves ∧
    ∃ t, fetchSources answering.web
        ((placeOf shelves.files.working "ws").child sharedConfig.remoteSyncDirectory)
        sharedConfig.remoteSources shelves = .ok [.ofString "/ws/r/n.psp"] t ∧
      ∃ result u, run answering ["fetch", "ws"] shelves = .ok result u ∧ result.status = 0 ∧
        u.files = t.files := by
  have hparse : Invocation.ofArguments ["parse", "a.psp"] = .ok ⟨false, some (.parse "a.psp" 2)⟩ := rfl
  have hfetch : Invocation.ofArguments ["fetch", "ws"] = .ok ⟨false, some (.fetch "ws")⟩ := rfl
  obtain ⟨t, ht⟩ := fetched_shelves (placeOf shelves.files.working "ws")
  obtain ⟨parses, -, -⟩ := parse_and_fetch_end answering shelves false ["parse", "a.psp"]
  obtain ⟨-, -, fetches⟩ := parse_and_fetch_end answering shelves false ["fetch", "ws"]
  obtain ⟨ends, written⟩ := fetches "ws" hfetch fetchable_shelves
  exact ⟨hparse, parsable_shelves, parses _ _ hparse parsable_shelves, hfetch, fetchable_shelves, ends,
    t, ht, written _ _ _ _ (opened_shelves "ws" (.inl rfl)) ht⟩

/-- Surroundings where no URL can be asked for. -/
def refusing : Surroundings where
  ids := Source.tally
  web _ := .malformed "Invalid port: 'x'"

/-- The shelves where there is no permission to look at any place. -/
def hidden : Session where
  files := { shelves.files with denies := fun access _ => access = .find }

/-- A source of bytes that are no text and such a configuration end the program with another failure, and
so do a malformed URL and a place that may not be looked at. A fetched file that is not below the
directory of the workspace does so, too, although it is written. -/
theorem not_ends_shelves :
    ¬ Ends answering false ["parse", "b.psp"] shelves ∧
    ¬ Ends refusing false ["parse", "http://h:x"] shelves ∧
    ¬ Ends answering false ["fetch", "bad"] shelves ∧
    ¬ Ends answering false ["fetch", "ws"] hidden ∧
    openWorkspace (placeOf shelves.files.working "other") shelves = .ok (some sharedConfig) shelves ∧
    (∃ t, fetchSources answering.web
      ((placeOf shelves.files.working "other").child sharedConfig.remoteSyncDirectory)
      sharedConfig.remoteSources shelves = .ok [.ofString "/ws/r/n.psp"] t) ∧
    ¬ Ends answering false ["fetch", "other"] shelves := by
  obtain ⟨t, ht⟩ := fetched_shelves (placeOf shelves.files.working "other")
  refine ⟨?source, ?url, ?configuration, ?place, opened_shelves "other" (.inr rfl), ⟨t, ht⟩, ?outside⟩
  case source =>
    have hread : shelves.files.readText (.ofString "b.psp") = .error .undecodable := rfl
    have hload : loadSource answering.web "b.psp" shelves = .error (.files .undecodable) shelves := by
      rw [loadSource, if_neg (by decide +kernel), loadFile, hread]
      rfl
    have hrun : (Command.parse "b.psp" 2).run answering shelves =
        .error (.files .undecodable) shelves := attempt_error hload
    exact not_ends_of_error rfl rfl hrun
  case url =>
    have hload : loadSource refusing.web "http://h:x" shelves = .error
        (.malformedUrl "http://h:x" "Invalid port: 'x'")
        { shelves with notices := [.event (.requesting "http://h:x")] } := by
      rw [loadSource, if_pos (by decide +kernel), request, Action.log_bind]
      rfl
    have hrun : (Command.parse "http://h:x" 2).run refusing shelves = _ := attempt_error hload
    exact not_ends_of_error rfl rfl hrun
  case configuration =>
    have hread : shelves.files.readText (configFile (placeOf shelves.files.working "bad")) =
        .error .undecodable := rfl
    have hopen : openWorkspace (placeOf shelves.files.working "bad") shelves =
        .error (.files .undecodable) shelves := by
      rw [openWorkspace_of_exists rfl rfl, Config.load, hread]
      rfl
    have hrun : (Command.fetch "bad").run answering shelves = .error (.files .undecodable) shelves :=
      (Action.bind_ok (resolveDirectory_eq rfl fun _ => rfl)).trans (Action.bind_error hopen)
    exact not_ends_of_error rfl rfl hrun
  case place =>
    have hopen : openWorkspace (placeOf hidden.files.working "ws") hidden =
        .error (.files (.denied (placeOf hidden.files.working "ws"))) hidden :=
      Action.bind_error rfl
    have hrun : (Command.fetch "ws").run answering hidden = _ :=
      (Action.bind_ok (resolveDirectory_eq rfl fun _ => rfl)).trans (Action.bind_error hopen)
    exact not_ends_of_error rfl rfl hrun
  case outside =>
    have hnull : (Path.ofString "other").hasNull = false := rfl
    obtain ⟨line, hrun⟩ := runFetch_of_opened hnull (fun _ => rfl) (opened_shelves "other" (.inr rfl))
      (List.cons_ne_nil _ _) ht
    have hnone : (Path.ofString "/ws/r/n.psp").relativeTo?
        (placeOf shelves.files.working "other") = none := rfl
    have hlist : listFiles (placeOf shelves.files.working "other") [.ofString "/ws/r/n.psp"] t =
        .error (.notBelow (.ofString "/ws/r/n.psp") (placeOf shelves.files.working "other")) t := by
      rw [listFiles, hnone]
      rfl
    have hstop : (Command.fetch "other").run answering shelves = _ :=
      hrun.trans (Action.bind_error hlist)
    exact not_ends_of_error rfl rfl hstop

end ContextRoles.CommandLine
