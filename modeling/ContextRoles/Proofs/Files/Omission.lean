import ContextRoles.Proofs.Files.Tree

/-! # Trees that lack some files

A tree and a second one that lacks some of its files are asked the same questions. A path that can be
followed in the first one leads to the same place in the second one, and what can be stored in the first
one can be stored in the second one, which then lacks one file less if it lacked that one.

Directories may have been changed at different times.
-/

namespace ContextRoles.Files

/-- What stands in a place of a tree, and what stands there in one that lacks some files. -/
inductive Counterpart (omitted : Content → Prop) : Option Entry → Option Entry → Prop where
  | nothing : Counterpart omitted none none
  | directory (modified modified' : Int) :
      Counterpart omitted (some ⟨.directory, modified⟩) (some ⟨.directory, modified'⟩)
  | file (content : Content) (modified : Int) :
      Counterpart omitted (some ⟨.file content, modified⟩) (some ⟨.file content, modified⟩)
  | lost {content : Content} (modified : Int) (h : omitted content) :
      Counterpart omitted (some ⟨.file content, modified⟩) none

namespace Counterpart

variable {omitted omitted' : Content → Prop} {entry entry' : Option Entry}

theorem refl (omitted : Content → Prop) (entry : Option Entry) : Counterpart omitted entry entry := by
  rcases entry with _ | ⟨_ | _, _⟩
  · exact .nothing
  · exact .file _ _
  · exact .directory _ _

theorem mono (h : Counterpart omitted entry entry')
    (ho : ∀ content, omitted content → omitted' content) :
    Counterpart omitted' entry entry' := by
  cases h with
  | nothing => exact .nothing
  | directory m m' => exact .directory m m'
  | file c m => exact .file c m
  | lost m h => exact .lost m (ho _ h)

theorem any_isDirectory (h : Counterpart omitted entry entry') :
    entry'.any Entry.isDirectory = entry.any Entry.isDirectory := by cases h <;> rfl

theorem isSome (h : Counterpart omitted entry entry') :
    entry'.isSome = entry.isSome ∨ entry.isSome = true ∧ entry'.isSome = false := by
  cases h <;> simp

theorem eq_none (h : Counterpart omitted none entry') : entry' = none := by
  cases h
  rfl

theorem touch (h : Counterpart omitted entry entry') (hd : entry.any Entry.isDirectory = true)
    {now : Int} {changed changed' : Option Entry}
    (hc : changed = entry ∨ changed = entry.map ({ · with modified := now }))
    (hc' : changed' = entry' ∨ changed' = entry'.map ({ · with modified := now })) :
    Counterpart omitted changed changed' := by
  cases h with
  | directory m m' => rcases hc with rfl | rfl <;> rcases hc' with rfl | rfl <;> exact .directory _ _
  | nothing => cases hd
  | file c m => cases hd
  | lost m h => cases hd

end Counterpart

namespace FileTree

variable {t t' u : FileTree} {place other : Location} {node : Node} {p : Path}
  {omitted : Location → Content → Prop}

/-- The second tree lacks some files of the first one and is the same otherwise. -/
structure Omits (omitted : Location → Content → Prop) (t t' : FileTree) : Prop
    extends SameSetting t t' where
  counterpart : ∀ place, Counterpart (omitted place) (t.get? place) (t'.get? place)

namespace Omits

theorem mono {omitted' : Location → Content → Prop} (h : Omits omitted t t')
    (ho : ∀ place content, omitted place content → omitted' place content) : Omits omitted' t t' :=
  ⟨h.toSameSetting, fun place => (h.counterpart place).mono (ho place)⟩

variable (h : Omits omitted t t')

include h

theorem restrict (hp : t'.get? place = t.get? place) :
    Omits (fun other content => other ≠ place ∧ omitted other content) t t' where
  toSameSetting := h.toSameSetting
  counterpart other := by
    by_cases hne : other = place
    · rw [hne, hp]
      exact .refl _ _
    · exact (h.counterpart other).mono fun _ ho => ⟨hne, ho⟩

theorem isDirectoryAt (place : Location) : t'.isDirectoryAt place = t.isDirectoryAt place :=
  (h.counterpart place).any_isDirectory

theorem get?_eq_none (hn : t.get? place = none) : t'.get? place = none :=
  Counterpart.eq_none (hn ▸ h.counterpart place)

theorem wellFormed (hwf : t.WellFormed) : t'.WellFormed where
  parent place hp := by
    rw [h.isDirectoryAt]
    refine hwf.parent (Option.isSome_iff_ne_none.mpr fun hn => ?_)
    rw [h.get?_eq_none hn] at hp
    cases hp
  working := by rw [h.isDirectoryAt, h.working, hwf.working]

/-- A path can be followed in both trees, or it leads through a file that the second one lacks. -/
theorem walk (place : Location) (parts : List String) :
    t'.walk place parts = t.walk place parts ∨
      t.walk place parts = .error .notDirectory ∧ t'.walk place parts = .error .missing := by
  induction parts generalizing place with
  | nil => exact .inl rfl
  | cons part parts ih =>
    rw [walk_cons_eq, walk_cons_eq, h.isDirectoryAt]
    split
    · split
      · exact .inl rfl
      · exact ih _
    · rcases (h.counterpart place).isSome with he | ⟨he, he'⟩
      · exact .inl (by rw [he])
      · exact .inr (by rw [he, he']; exact ⟨rfl, rfl⟩)

theorem locate (p : Path) :
    t'.locate p = t.locate p ∨
      t.locate p = .error (.refused .notDirectory p) ∧ t'.locate p = .error (.refused .missing p) := by
  unfold FileTree.locate
  rw [h.toSameSetting.objection?, h.toSameSetting.start]
  cases t.objection? p with
  | some e => exact .inl rfl
  | none =>
    rcases h.walk (t.start p) p.parts with he | ⟨he, he'⟩
    · exact .inl (by rw [he])
    · exact .inr (by rw [he, he']; exact ⟨rfl, rfl⟩)

theorem locate_ok (hl : t.locate p = .ok place) : t'.locate p = .ok place := by
  rcases h.locate p with he | ⟨he, -⟩
  · rw [he, hl]
  · rw [hl] at he
    cases he

theorem status_error {e : FileError} (hs : t.status p = .error e) :
    t'.status p = .error e ∨
      e = .refused .notDirectory p ∧ t'.status p = .error (.refused .missing p) := by
  unfold FileTree.status at hs ⊢
  cases hl : t.locate p with
  | ok place =>
    rw [hl] at hs
    rw [h.locate_ok hl]
    cases hp : t.get? place with
    | none =>
      simp only [hp] at hs
      simp only [h.get?_eq_none hp]
      exact .inl hs
    | some entry => simp [hp] at hs
  | error e' =>
    simp only [hl] at hs
    cases hs
    rcases h.locate p with he | ⟨he, he'⟩
    · rw [he, hl]
      exact .inl rfl
    · rw [he', ← Except.error.inj (hl.symm.trans he)]
      exact .inr ⟨rfl, rfl⟩

theorem status_ok {entry : Entry} (hs : t.status p = .ok entry) :
    ∃ entry', Counterpart (omitted (p.resolve t.working)) (some entry) entry' ∧
      t'.status p = match entry' with
        | some entry' => .ok entry'
        | none => .error (.refused .missing p) := by
  have hentry := status_eq_ok hs
  have hc := h.counterpart (p.resolve t.working)
  rw [hentry] at hc
  refine ⟨_, hc, ?_⟩
  unfold FileTree.status at hs ⊢
  cases hl : t.locate p with
  | error e => simp [hl] at hs
  | ok place =>
    rewrite [h.locate_ok hl, locate_eq hl]
    rfl

theorem put (hplace : place ≠ []) (hdir : t.isDirectoryAt place.dropLast = true) (node : Node) :
    Omits (fun other content => other ≠ place ∧ omitted other content) (t.put place node)
      (t'.put place node) where
  toSameSetting := h.toSameSetting.of_changes (sameSetting_put t place node)
    (sameSetting_put t' place node)
  counterpart other := by
    obtain ⟨self, others⟩ := get?_put (t := t) node hplace
    obtain ⟨self', others'⟩ := get?_put (t := t') node hplace
    by_cases hne : other = place
    · rw [hne, self, self', h.now]
      exact .refl _ _
    · suffices hcounterpart : Counterpart (omitted other) ((t.put place node).get? other)
          ((t'.put place node).get? other) from hcounterpart.mono fun _ ho => ⟨hne, ho⟩
      have hc := others other hne
      have hc' := others' other hne
      rw [h.now] at hc'
      by_cases hparent : other = place.dropLast
      · exact (h.counterpart other).touch (hparent ▸ hdir) (hc.imp_right And.right)
          (hc'.imp_right And.right)
      · rw [hc.resolve_right fun he => hparent he.1, hc'.resolve_right fun he => hparent he.1]
        exact h.counterpart other

theorem makeDirectory_ok (hwf : t.WellFormed) (hm : t.makeDirectory p = .ok u) :
    ∃ u', t'.makeDirectory p = .ok u' ∧ Omits omitted u u' := by
  obtain ⟨place, hl, hplace, hvacant, hgranted, rfl⟩ := makeDirectory_eq_ok hm
  have hdir : t.isDirectoryAt place.dropLast = true := by
    refine (locate_inside hwf hl).resolve_left fun hd => ?_
    rw [FileTree.isDirectoryAt, hvacant] at hd
    cases hd
  refine ⟨t'.put place .directory, ?_, (h.put hplace hdir .directory).mono fun _ _ ho => ho.2⟩
  simp only [FileTree.makeDirectory, h.locate_ok hl, h.get?_eq_none hvacant, h.denies, hgranted,
    Option.isSome_none, Bool.false_eq_true, if_false]

theorem makeDirectory_missing {q : Path} (hm : t.makeDirectory p = .error (.refused .missing q)) :
    t'.makeDirectory p = .error (.refused .missing q) := by
  unfold FileTree.makeDirectory at hm ⊢
  rcases h.locate p with he | ⟨he, -⟩
  · rw [he]
    cases hl : t.locate p with
    | error e =>
      simp only [hl] at hm ⊢
      exact hm
    | ok place =>
      simp only [hl] at hm
      split at hm
      · cases hm
      · split at hm <;> cases hm
  · simp only [he] at hm
    cases hm

theorem unlessDirectory_ok {e : FileError} (hu : t.unlessDirectory p e = .ok ()) :
    t'.makeDirectory p = .error (.refused .occupied p) ∧
      ∀ e', t'.unlessDirectory p e' = .ok () := by
  have hd : t.isDirectory? p = .ok true := by
    unfold FileTree.unlessDirectory at hu
    split at hu
    next hd => exact hd
    all_goals cases hu
  obtain ⟨place, hl, hdir⟩ := isDirectory?_eq_true.mp hd
  rw [← h.isDirectoryAt] at hdir
  have hl' := h.locate_ok hl
  constructor
  · have hsome : (t'.get? place).isSome = true := by
      rw [FileTree.isDirectoryAt] at hdir
      cases hp : t'.get? place with
      | none => simp [hp] at hdir
      | some entry => rfl
    simp only [FileTree.makeDirectory, hl', hsome, if_true]
  · intro e'
    rw [FileTree.unlessDirectory, isDirectory?_eq_true.mpr ⟨place, hl', hdir⟩]

/-- A directory that can be made in the first tree with those above it can be made in the second one. -/
theorem ensureDirectory (hwf : t.WellFormed) (hok : (t.ensureDirectory p).1 = .ok ()) :
    (t'.ensureDirectory p).1 = .ok () ∧
      Omits omitted (t.ensureDirectory p).2 (t'.ensureDirectory p).2 := by
  -- A parent is made first where it is missing, and it is missing in the second tree then as well.
  fun_induction FileTree.ensureDirectory t p generalizing t' with
  | case1 p u hm =>
    obtain ⟨u', hm', hu⟩ := h.makeDirectory_ok hwf hm
    rw [FileTree.ensureDirectory, hm']
    exact ⟨rfl, hu⟩
  | case2 => cases hok
  | case3 => cases hok
  | case4 p q hm hp _ u hparent v hv ih =>
    obtain ⟨hok', hu⟩ := ih h (congrArg Prod.fst hparent)
    have hprepares := prepares_ensureDirectory hwf p.parent
    rw [hparent] at hu hprepares
    obtain ⟨v', hv', homits⟩ := hu.makeDirectory_ok hprepares.wellFormed hv
    rw [ensureDirectory_of_parent (h.makeDirectory_missing hm) hp hok', hv']
    exact ⟨rfl, homits⟩
  | case5 => cases hok
  | case6 p q hm hp _ u hparent e he hne ih =>
    obtain ⟨hok', hu⟩ := ih h (congrArg Prod.fst hparent)
    rw [hparent] at hu
    obtain ⟨hm', hu'⟩ := hu.unlessDirectory_ok hok
    rw [ensureDirectory_of_parent (h.makeDirectory_missing hm) hp hok', hm']
    exact ⟨hu' _, hu⟩
  | case7 p e he hne =>
    obtain ⟨hm', hu'⟩ := h.unlessDirectory_ok hok
    rw [FileTree.ensureDirectory, hm']
    exact ⟨hu' _, h⟩

theorem write (hwf : t.WellFormed) {content : Content} (hw : t.write p content = .ok u) :
    ∃ u', t'.write p content = .ok u' ∧
      Omits (fun place content => place ≠ p.resolve t.working ∧ omitted place content) u u' := by
  obtain ⟨place, hl, hplace, hd, hgranted, rfl⟩ := write_eq_ok hw
  have hdir : t.isDirectoryAt place.dropLast = true :=
    (locate_inside hwf hl).resolve_left (by simp [hd])
  rw [← locate_eq hl]
  refine ⟨t'.put place (.file content), ?_, h.put hplace hdir _⟩
  simp only [FileTree.write, h.locate_ok hl, h.isDirectoryAt, hd, h.denies, hgranted,
    Bool.false_eq_true, if_false]

/-- What can be stored in the first tree can be stored in the second one, and is in neither of them what
the second one lacks. -/
theorem store (hwf : t.WellFormed) {text : String} (hok : (t.store p text).1 = .ok ()) :
    (t'.store p text).1 = .ok () ∧
      Omits (fun place content => place ≠ p.resolve t.working ∧ omitted place content)
        (t.store p text).2 (t'.store p text).2 := by
  have hprepares := prepares_ensureDirectory hwf p.parent
  have hensure := h.ensureDirectory (p := p.parent) hwf
  unfold FileTree.store at hok ⊢
  cases he : t.ensureDirectory p.parent with
  | mk result u =>
    cases result with
    | error e => simp [he] at hok
    | ok _ =>
      simp only [he] at hok hensure hprepares ⊢
      obtain ⟨hok', homits⟩ := hensure trivial
      cases he' : t'.ensureDirectory p.parent with
      | mk result' u' =>
        rw [he'] at hok' homits
        obtain rfl : result' = .ok () := hok'
        cases hw : u.write p (.text text) with
        | error e => simp [hw] at hok
        | ok v =>
          obtain ⟨v', hw', hv⟩ := homits.write hprepares.wellFormed hw
          rw [hprepares.working] at hv
          simp only [hw']
          exact ⟨trivial, hv⟩

theorem admits (hwf : t.WellFormed) (hok : (t.ensureDirectory p.parent).1 = .ok ()) (ha : t.Admits p) :
    t'.Admits p where
  possible := (h.objection? p).trans ha.possible
  short := ha.short
  vacant := by
    rw [h.working, (h.ensureDirectory hwf hok).2.isDirectoryAt]
    exact ha.vacant
  granted := h.denies ▸ ha.granted

theorem exists?_false (hf : t.exists? p = .ok false) : t'.exists? p = .ok false := by
  unfold FileTree.exists? at hf ⊢
  cases hs : t.status p with
  | ok entry =>
    rw [hs] at hf
    cases hf
  | error e =>
    rcases h.status_error hs with he | ⟨-, he⟩
    · rw [he, ← hs]
      exact hf
    · rw [he]
      rfl

/-- A file that the second tree does not lack is read as in the first one, if it can be read. -/
theorem readText (hp : ∀ content, ¬ omitted (p.resolve t.working) content) :
    t'.readText p = t.readText p ∨
      ∃ fault fault', t.readText p = .error (.refused fault p) ∧
        t'.readText p = .error (.refused fault' p) := by
  cases hs : t.status p with
  | ok entry =>
    obtain ⟨entry', hc, hs'⟩ := h.status_ok hs
    left
    cases hc with
    | directory m m' => rw [FileTree.readText, FileTree.readText, hs, hs', h.denies]
    | file content m => exact readText_congr (hs'.trans hs.symm) h.denies
    | lost m ho => exact absurd ho (hp _)
  | error e =>
    rcases h.status_error hs with he | ⟨rfl, he⟩
    · exact .inl (readText_congr (he.trans hs.symm) h.denies)
    · refine .inr ⟨.notDirectory, .missing, ?_, ?_⟩
      · rw [FileTree.readText, hs]
      · rw [FileTree.readText, he]

theorem file?_eq (hnone : ∀ content, ¬ omitted place content) : t'.file? place = t.file? place := by
  have hc := h.counterpart place
  unfold FileTree.file?
  generalize t.get? place = entry at hc ⊢
  generalize t'.get? place = entry' at hc ⊢
  cases hc with
  | nothing => rfl
  | directory m m' => rfl
  | file c m => rfl
  | lost m ho => exact absurd ho (hnone _)

end Omits

end FileTree

end ContextRoles.Files
