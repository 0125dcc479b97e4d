import ContextRoles.Proofs.Files.Tree
import ContextRoles.Workspace.ConfigFile
import Mathlib.Data.List.Nodup
import Mathlib.Data.String.Basic

/-! # Reading a configuration

Reading a configuration file fails in the words of the configuration, unless the file is no text or the
reader of YAML meets a scalar that makes no sense. In a configuration that is read every source has a URL,
and a name of its own.
-/

namespace ContextRoles.Workspace

open Files

variable {α β : Type} {fault : ConfigFault}

/-- Of all faults only a scalar that makes no sense is not of the configuration itself. -/
def Worded (x : Except ConfigFault α) : Prop := ∀ fault, x ≠ .error (.badScalar fault)

theorem Worded.ok (a : α) : Worded (.ok a) := nofun

theorem Worded.error (h : ∀ scalar, fault ≠ .badScalar scalar) :
    Worded (.error fault : Except ConfigFault α) :=
  fun scalar he => h scalar (Except.error.inj he)

theorem Worded.bind {x : Except ConfigFault α} {f : α → Except ConfigFault β} (hx : Worded x)
    (hf : ∀ a, Worded (f a)) : Worded (x >>= f) := by
  cases x with
  | ok a => exact hf a
  | error fault => exact .error fun scalar he => hx scalar (congrArg _ he)

theorem worded_requireText (members : List (Yaml × Yaml)) (name : String)
    {missing wrong : ConfigFault} (hmissing : ∀ scalar, missing ≠ .badScalar scalar)
    (hwrong : ∀ scalar, wrong ≠ .badScalar scalar) :
    Worded (Config.requireText members name missing wrong) := by
  unfold Config.requireText
  split
  · exact .error hmissing
  · exact .ok _
  · exact .error hwrong

theorem worded_readSource (index : Nat) (entry : Yaml) : Worded (Config.readSource index entry) := by
  unfold Config.readSource
  split
  · refine .bind (worded_requireText _ _ (by simp) (by simp)) fun name =>
      .bind (worded_requireText _ _ (by simp) (by simp)) fun url => ?_
    split
    · exact .ok _
    · exact .error (by simp)
  · exact .error (by simp)

theorem worded_readSources (first : Nat) (entries : List Yaml) :
    Worded (Config.readSources first entries) := by
  induction entries generalizing first with
  | nil => exact .ok _
  | cons entry entries ih =>
    exact .bind (worded_readSource first entry) fun _ => .bind (ih _) fun _ => .ok _

theorem worded_ofYaml (value : Yaml) : Worded (Config.ofYaml value) := by
  unfold Config.ofYaml
  split
  next members =>
    refine .bind (worded_requireText _ _ (by simp) (by simp)) fun build => ?_
    have checked (c : Config) (repeated : List String) :
        Worded (if repeated.isEmpty then .ok c else .error (.duplicateNames repeated)) := by
      split
      · exact .ok _
      · exact .error (by simp)
    dsimp only
    split
    · refine .bind (worded_requireText _ _ (by simp) (by simp)) fun sync => ?_
      split
      · exact .bind (.ok _) fun _ => checked _ _
      · exact .bind (worded_readSources 0 _) fun _ => checked _ _
      · exact .bind (.error (by simp)) fun _ => checked _ _
    · refine .bind (.ok _) fun sync => ?_
      split
      · exact .bind (.ok _) fun _ => checked _ _
      · exact .bind (worded_readSources 0 _) fun _ => checked _ _
      · exact .bind (.error (by simp)) fun _ => checked _ _
  · exact .error (by simp)

theorem read_of_parse [YamlFormat] {text : String} {scalar : Yaml.ScalarFault}
    (h : Config.parse text = .error (.badScalar scalar)) :
    YamlFormat.read text = .error (.badScalar scalar) := by
  unfold Config.parse at h
  cases hread : YamlFormat.read text with
  | ok value =>
    rw [hread] at h
    exact absurd h (worded_ofYaml value scalar)
  | error e =>
    rw [hread] at h
    cases e <;> cases h
    rfl

theorem load_cases [YamlFormat] {file : Path} {t : FileTree} (hnull : file.hasNull = false)
    (hd : t.readText file ≠ .error .undecodable)
    (hy : ∀ text, t.readText file = .ok text → ∀ scalar,
      YamlFormat.read text ≠ .error (.badScalar scalar)) :
    (∃ config, Config.load t file = .ok config) ∨ ∃ e, Config.load t file = .error (.config e) := by
  unfold Config.load
  cases hread : t.readText file with
  | error e =>
    have hsystem := FileTree.isOfSystem_of_readText hnull hd hread
    right
    split
    · exact ⟨_, rfl⟩
    next heq =>
      cases heq
      exact ⟨_, by rw [if_pos hsystem]⟩
    next heq => cases heq
  | ok text =>
    cases hparse : Config.parse text with
    | ok config => exact .inl ⟨config, by simp only [hparse]⟩
    | error fault =>
      cases fault with
      | badScalar scalar => exact absurd (read_of_parse hparse) (hy text hread scalar)
      | _ => exact .inr (by simp [hparse])

section Accepting

variable {config : Config} {source : RemoteSource} {sources : List RemoteSource}

/-- What a configuration is checked for: its sources have URLs, and different names. -/
structure Config.Accepted (config : Config) : Prop where
  urls : ∀ source ∈ config.remoteSources, isUrl source.url = true
  names : (config.remoteSources.map RemoteSource.name).Nodup

instance (config : Config) : Decidable config.Accepted :=
  decidable_of_iff ((∀ source ∈ config.remoteSources, isUrl source.url = true) ∧
      (config.remoteSources.map RemoteSource.name).Nodup)
    ⟨fun h => ⟨h.1, h.2⟩, fun h => ⟨h.urls, h.names⟩⟩

theorem mem_repeatedNames {name : String} :
    name ∈ Config.repeatedNames sources ↔ 1 < (sources.map RemoteSource.name).count name := by
  rw [Config.repeatedNames, List.mem_mergeSort, List.mem_eraseDups, List.mem_filter, decide_eq_true_iff]
  exact and_iff_right_of_imp fun hcount => List.count_pos_iff.mp (Nat.zero_lt_of_lt hcount)

theorem nodup_eraseDups {α : Type} [DecidableEq α] (l : List α) : l.eraseDups.Nodup := by
  match l with
  | [] => exact List.nodup_nil
  | a :: l =>
    rw [List.eraseDups_cons, List.nodup_cons]
    refine ⟨fun ha => ?_, nodup_eraseDups _⟩
    rw [List.mem_eraseDups, List.mem_filter] at ha
    simp at ha
termination_by l.length
decreasing_by exact Nat.lt_succ_of_le (List.length_filter_le _ _)

theorem ascending_repeatedNames (sources : List RemoteSource) :
    (Config.repeatedNames sources).Pairwise (· < ·) := by
  have hnodup : (Config.repeatedNames sources).Nodup :=
    (nodup_eraseDups _).perm (List.mergeSort_perm _ _).symm
  have hsorted : (Config.repeatedNames sources).Pairwise fun a b => decide (a ≤ b) = true := by
    refine List.pairwise_mergeSort (fun a b c hab hbc => ?_) (fun a b => ?_) _
    · exact decide_eq_true (le_trans (of_decide_eq_true hab) (of_decide_eq_true hbc))
    · simpa using le_total a b
  exact (hsorted.and hnodup).imp fun h => lt_of_le_of_ne (of_decide_eq_true h.1) h.2

theorem repeatedNames_eq_nil_iff :
    Config.repeatedNames sources = [] ↔ (sources.map RemoteSource.name).Nodup := by
  rw [List.nodup_iff_count_le_one, List.eq_nil_iff_forall_not_mem]
  exact forall_congr' fun name => mem_repeatedNames.not.trans Nat.not_lt

theorem bind_eq_ok {x : Except ConfigFault α} {f : α → Except ConfigFault β} {b : β}
    (h : (x >>= f) = .ok b) : ∃ a, x = .ok a ∧ f a = .ok b := by
  cases x with
  | ok a => exact ⟨a, rfl, h⟩
  | error fault => cases h

theorem isUrl_of_readSource {index : Nat} {entry : Yaml}
    (h : Config.readSource index entry = .ok source) : isUrl source.url = true := by
  unfold Config.readSource at h
  split at h
  · obtain ⟨name, -, h⟩ := bind_eq_ok h
    obtain ⟨url, -, h⟩ := bind_eq_ok h
    split at h
    next hurl =>
      cases h
      exact hurl
    · cases h
  · cases h

theorem isUrl_of_readSources {first : Nat} {entries : List Yaml}
    (h : Config.readSources first entries = .ok sources) :
    ∀ source ∈ sources, isUrl source.url = true := by
  induction entries generalizing first sources with
  | nil =>
    cases h
    exact nofun
  | cons entry entries ih =>
    obtain ⟨source, hsource, h⟩ := bind_eq_ok h
    obtain ⟨others, hothers, h⟩ := bind_eq_ok h
    cases h
    exact List.forall_mem_cons.mpr ⟨isUrl_of_readSource hsource, ih hothers⟩

theorem accepted_of_ofYaml {value : Yaml} (h : Config.ofYaml value = .ok config) :
    config.Accepted := by
  unfold Config.ofYaml at h
  split at h
  next members =>
    obtain ⟨build, -, h⟩ := bind_eq_ok h
    have checked {read : Except ConfigFault (List RemoteSource)} {sync : String}
        (hurls : ∀ sources, read = .ok sources → ∀ source ∈ sources, isUrl source.url = true)
        (h : (read >>= fun sources =>
          if (Config.repeatedNames sources).isEmpty then .ok ⟨build, sync, sources⟩
          else .error (.duplicateNames (Config.repeatedNames sources))) = .ok config) :
        config.Accepted := by
      obtain ⟨sources, hread, h⟩ := bind_eq_ok h
      split at h
      next hempty =>
        cases h
        exact ⟨hurls sources hread, repeatedNames_eq_nil_iff.mp (List.isEmpty_iff.mp hempty)⟩
      · cases h
    have unlisted : ∀ sources, (.ok [] : Except ConfigFault (List RemoteSource)) = .ok sources →
        ∀ source ∈ sources, isUrl source.url = true := by
      rintro _ ⟨⟩
      exact nofun
    have refused (fault : ConfigFault) (sources : List RemoteSource)
        (h : (.error fault : Except ConfigFault (List RemoteSource)) = .ok sources) :
        ∀ source ∈ sources, isUrl source.url = true := by cases h
    dsimp only at h
    split at h <;> obtain ⟨sync, -, h⟩ := bind_eq_ok h <;> split at h
    · exact checked unlisted h
    · exact checked (fun _ => isUrl_of_readSources) h
    · exact checked (refused _) h
    · exact checked unlisted h
    · exact checked (fun _ => isUrl_of_readSources) h
    · exact checked (refused _) h
  · cases h

/-- In a configuration that is read every source has a URL, and a name of its own. -/
theorem accepted_of_parse [YamlFormat] {text : String} (h : Config.parse text = .ok config) :
    config.Accepted := by
  unfold Config.parse at h
  cases hread : YamlFormat.read text with
  | ok value =>
    rw [hread] at h
    exact accepted_of_ofYaml h
  | error e =>
    rw [hread] at h
    cases e <;> cases h

end Accepting

end ContextRoles.Workspace
