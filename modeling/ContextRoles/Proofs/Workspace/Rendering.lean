import ContextRoles.Proofs.Source.Coherence
import ContextRoles.Proofs.Workspace.Configuration
import ContextRoles.Yaml.Writer

/-! # Writing a configuration and reading it back

What is left out of the text of a configuration is what its reader fills in. So where the YAML is read as
it was written, a configuration with URLs and different names for its sources comes back, and any other
one is refused: for its first source without a URL, or else for the names that it repeats. The reader of
YAML is asked for nothing but the value of the configuration at hand.
-/

namespace ContextRoles.Workspace

/-- The text of a value is read as this value. -/
def Kept [YamlFormat] (value : Yaml) : Prop :=
  YamlFormat.read (YamlFormat.render value) = .ok value

variable {config : Config} {source : RemoteSource} {sources before after : List RemoteSource}

/-- What is wrong with a configuration whose fields are all there. -/
inductive Config.Refused (config : Config) : ConfigFault → Prop where
  /-- The first source without a URL. The names are not looked at. -/
  | url {before after : List RemoteSource} {source : RemoteSource}
      (split : config.remoteSources = before ++ source :: after)
      (urls : ∀ other ∈ before, isUrl other.url = true) (wrong : isUrl source.url = false) :
      Refused config (.noSourceUrl before.length source.name)
  /-- All names that occur more than once, each of them one time and in ascending order. -/
  | names {repeated : List String} (urls : ∀ source ∈ config.remoteSources, isUrl source.url = true)
      (found : repeated ≠ []) (ascending : repeated.Pairwise (· < ·))
      (all : ∀ name, name ∈ repeated ↔ 1 < (config.remoteSources.map RemoteSource.name).count name) :
      Refused config (.duplicateNames repeated)

/-! ## The sources -/

theorem readSource_toYaml (index : Nat) (source : RemoteSource) :
    Config.readSource index (Config.RemoteSource.toYaml source) =
      if isUrl source.url then .ok source else .error (.noSourceUrl index source.name) := rfl

theorem readSources_toYaml (first : Nat) (h : ∀ source ∈ sources, isUrl source.url = true) :
    Config.readSources first (sources.map Config.RemoteSource.toYaml) = .ok sources := by
  induction sources generalizing first with
  | nil => rfl
  | cons source sources ih =>
    rw [List.forall_mem_cons] at h
    rw [List.map_cons, Config.readSources, readSource_toYaml, if_pos h.1, ih (first + 1) h.2]
    rfl

theorem readSources_toYaml_wrong (first : Nat) (h : ∀ other ∈ before, isUrl other.url = true)
    (hwrong : isUrl source.url = false) :
    Config.readSources first ((before ++ source :: after).map Config.RemoteSource.toYaml) =
      .error (.noSourceUrl (first + before.length) source.name) := by
  induction before generalizing first with
  | nil =>
    rw [List.nil_append, List.map_cons, Config.readSources, readSource_toYaml, hwrong]
    rfl
  | cons other before ih =>
    rw [List.forall_mem_cons] at h
    rw [List.cons_append, List.map_cons, Config.readSources, readSource_toYaml, if_pos h.1,
      ih (first + 1) h.2, List.length_cons, Nat.add_comm before.length, ← Nat.add_assoc]
    rfl

theorem urls_or_wrong (sources : List RemoteSource) :
    (∀ source ∈ sources, isUrl source.url = true) ∨
      ∃ before source after, sources = before ++ source :: after ∧
        (∀ other ∈ before, isUrl other.url = true) ∧ isUrl source.url = false := by
  cases hfind : sources.find? (fun source => !isUrl source.url) with
  | none => exact .inl (by simpa using hfind)
  | some source =>
    obtain ⟨hwrong, before, after, hsources, hurls⟩ := List.find?_eq_some_iff_append.mp hfind
    exact .inr ⟨before, source, after, hsources, by simpa using hurls, by simpa using hwrong⟩

/-! ## The configuration -/

theorem ofYaml_toYaml (config : Config) :
    Config.ofYaml config.toYaml =
      (Config.readSources 0 (config.remoteSources.map Config.RemoteSource.toYaml) >>= fun sources =>
        if (Config.repeatedNames sources).isEmpty then .ok { config with remoteSources := sources }
        else .error (.duplicateNames (Config.repeatedNames sources))) := by
  obtain ⟨build, sync, sources⟩ := config
  unfold Config.toYaml
  split
  next hsync =>
    dsimp only at hsync
    subst hsync
    cases sources <;> rfl
  next hsync =>
    cases sources <;> rfl

theorem ofYaml_toYaml_of_accepted (h : config.Accepted) : Config.ofYaml config.toYaml = .ok config := by
  rw [ofYaml_toYaml, readSources_toYaml 0 h.urls]
  exact if_pos (List.isEmpty_iff.mpr (repeatedNames_eq_nil_iff.mpr h.names))

theorem refused_of_not_accepted (h : ¬config.Accepted) :
    ∃ fault, config.Refused fault ∧ Config.ofYaml config.toYaml = .error fault := by
  rw [ofYaml_toYaml]
  obtain hurls | ⟨before, source, after, hsources, hurls, hwrong⟩ := urls_or_wrong config.remoteSources
  · have hrepeated : Config.repeatedNames config.remoteSources ≠ [] :=
      fun hnil => h ⟨hurls, repeatedNames_eq_nil_iff.mp hnil⟩
    refine ⟨_, .names hurls hrepeated (ascending_repeatedNames _) (fun _ => mem_repeatedNames), ?_⟩
    rw [readSources_toYaml 0 hurls]
    exact if_neg (mt List.isEmpty_iff.mp hrepeated)
  · refine ⟨_, .url hsources hurls hwrong, ?_⟩
    rw [hsources, readSources_toYaml_wrong 0 hurls hwrong, Nat.zero_add]
    rfl

theorem parse_of_kept [YamlFormat] (h : Kept config.toYaml) :
    Config.parse config.render = Config.ofYaml config.toYaml := by
  have hread : YamlFormat.read config.render = .ok config.toYaml := h
  rw [Config.parse, hread]

/-! ## Values whose text is read back -/

theorem parse_of_read {text : String} {value : Yaml} (hread : Yaml.read text = .ok value)
    (h : (Config.ofYaml value).toOption = some config) : Config.parse text = .ok config := by
  rw [Config.parse, show YamlFormat.read text = _ from hread]
  exact Source.result_eq_ok h

theorem read_eq_ok {text : String} {value : Yaml} (tokens : List Yaml.Token) (node : Yaml.Node)
    (htokens : Yaml.tokens text = .ok tokens) (hnode : Yaml.Node.ofTokens? tokens = .ok (some node))
    (hvalue : Yaml.ofNode 0 node = .ok value) : Yaml.read text = .ok value := by
  rw [Yaml.read, htokens]
  show ((Yaml.Node.ofTokens? tokens).mapError Yaml.ReadError.ofFault >>= _) = _
  rw [hnode]
  exact congrArg (Except.mapError Prod.snd) hvalue

/-- The tokens of a configuration with plain texts for the names and the URLs. -/
def plainTokens (build : String) (sources : List RemoteSource) : List Yaml.Token :=
  [.blockMappingStart, .key, .scalar "build-directory" true, .value, .scalar build true,
    .key, .scalar "remote-sources" true, .value] ++
  (sources.flatMap fun source => [.blockEntry, .blockMappingStart,
    .key, .scalar "name" true, .value, .scalar source.name true,
    .key, .scalar "url" true, .value, .scalar source.url true, .blockEnd]) ++ [.blockEnd]

def plainNode (build : String) (sources : List RemoteSource) : Yaml.Node :=
  .mapping .map [(.scalar .text "build-directory", .scalar .text build),
    (.scalar .text "remote-sources", .sequence .seq (sources.map fun source =>
      .mapping .map [(.scalar .text "name", .scalar .text source.name),
        (.scalar .text "url", .scalar .text source.url)]))]

theorem all_ofItems_plain (level : Nat) (sources : List RemoteSource) :
    Yaml.Leveled.all (Yaml.ofItems level (sources.map fun source =>
      .mapping .map [(.scalar .text "name", .scalar .text source.name),
        (.scalar .text "url", .scalar .text source.url)])) =
      .ok (sources.map Config.RemoteSource.toYaml) := by
  induction sources with
  | nil =>
    simp only [List.map_nil, Yaml.ofItems]
    rfl
  | cons source sources ih =>
    simp only [List.map_cons, Yaml.ofItems, Yaml.ofNode, Yaml.ofMembers, Yaml.gather, Yaml.ofKey,
      Yaml.Leveled.all, ih]
    rfl

theorem read_of_tokens {text build : String} (hne : sources ≠ [])
    (htokens : Yaml.tokens text = .ok (plainTokens build sources))
    (hnode : Yaml.Node.ofTokens? (plainTokens build sources) = .ok (some (plainNode build sources))) :
    Yaml.read text = .ok (Config.toYaml ⟨build, defaultSyncDirectory, sources⟩) := by
  refine read_eq_ok _ _ htokens hnode ?_
  rw [Config.toYaml, if_pos rfl, if_neg (mt List.isEmpty_iff.mp hne), plainNode]
  simp only [Yaml.ofNode, Yaml.ofMembers, Yaml.gather, Yaml.ofKey, all_ofItems_plain]
  rfl

/-! ## There and back -/

/-- Where the YAML of a configuration is read as it was written, the configuration comes back from its
text if its sources have URLs and different names, and is refused otherwise. Whatever is read is such a
configuration, so it comes back from its text. -/
theorem parse_rendered [YamlFormat] :
    (∀ config : Config, Kept config.toYaml →
      (config.Accepted → Config.parse config.render = .ok config) ∧
      (¬config.Accepted → ∃ fault, config.Refused fault ∧ Config.parse config.render = .error fault)) ∧
    ∀ (text : String) (config : Config), Config.parse text = .ok config →
      config.Accepted ∧ (Kept config.toYaml → Config.parse config.render = .ok config) := by
  have accepted (config : Config) (hkept : Kept config.toYaml) (h : config.Accepted) :
      Config.parse config.render = .ok config := by
    rw [parse_of_kept hkept, ofYaml_toYaml_of_accepted h]
  refine ⟨fun config hkept => ⟨accepted config hkept, fun h => ?_⟩, fun text config h => ?_⟩
  · rw [parse_of_kept hkept]
    exact refused_of_not_accepted h
  · have haccepted := accepted_of_parse h
    exact ⟨haccepted, fun hkept => accepted config hkept haccepted⟩

def single : Config := ⟨"b", defaultSyncDirectory, [⟨"a", "http://h"⟩]⟩

def doubled : Config := ⟨"b", defaultSyncDirectory, [⟨"a", "http://h"⟩, ⟨"a", "http://i"⟩]⟩

/-- Another directory than by default, and nothing to fetch into it. -/
def moved : Config := ⟨"b", "r", []⟩

theorem parse_rendered_single :
    Kept single.toYaml ∧ single.Accepted ∧ Config.parse single.render = .ok single ∧
    Kept doubled.toYaml ∧ ¬doubled.Accepted ∧
    (∃ fault, doubled.Refused fault ∧ Config.parse doubled.render = .error fault) ∧
    Config.parse "build-directory: b\nremote-sync-directory: r\n" = .ok moved ∧ moved.Accepted ∧
    Kept moved.toYaml ∧ Config.parse moved.render = .ok moved := by
  have hsingle : Kept single.toYaml :=
    read_of_tokens (List.cons_ne_nil _ _) (Source.result_eq_ok (by decide +kernel)) rfl
  have haccepted : single.Accepted := by decide +kernel
  have hdoubled : Kept doubled.toYaml :=
    read_of_tokens (List.cons_ne_nil _ _) (Source.result_eq_ok (by decide +kernel)) rfl
  have hrefused : ¬doubled.Accepted := by decide +kernel
  have hrender : moved.render = "build-directory: b\nremote-sync-directory: r\n" := by decide +kernel
  have hmoved : Kept moved.toYaml := by
    rw [Kept, show YamlFormat.render moved.toYaml = _ from hrender]
    refine read_eq_ok
      [.blockMappingStart, .key, .scalar "build-directory" true, .value, .scalar "b" true,
        .key, .scalar "remote-sync-directory" true, .value, .scalar "r" true, .blockEnd]
      (.mapping .map [(.scalar .text "build-directory", .scalar .text "b"),
        (.scalar .text "remote-sync-directory", .scalar .text "r")])
      (Source.result_eq_ok (by decide +kernel)) rfl ?_
    simp only [Yaml.ofNode, Yaml.ofMembers, Yaml.gather, Yaml.ofKey]
    rfl
  have hparse : Config.parse "build-directory: b\nremote-sync-directory: r\n" = .ok moved := by
    rw [← hrender]
    exact parse_of_read hmoved (by decide +kernel)
  obtain ⟨hmovedAccepted, hback⟩ := parse_rendered.2 _ moved hparse
  exact ⟨hsingle, haccepted, (parse_rendered.1 single hsingle).1 haccepted,
    hdoubled, hrefused, (parse_rendered.1 doubled hdoubled).2 hrefused,
    hparse, hmovedAccepted, hmoved, hback hmoved⟩

end ContextRoles.Workspace
