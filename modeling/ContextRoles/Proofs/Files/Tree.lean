import ContextRoles.Files.Access

/-! # What changes leave alone

In a tree where everything lies in a directory, a path leads to the place that its names resolve to, and
that lies in a directory, too. Making directories leaves every file as it is, and storing a file changes
no other.
-/

namespace ContextRoles.Files

namespace FileTree

variable {t t' u : FileTree} {place other : Location} {node : Node} {p : Path}

section Places

theorem dropLast_ne_self (h : place ≠ []) : place.dropLast ≠ place := by
  intro he
  have hlength := congrArg List.length he
  rw [List.length_dropLast] at hlength
  have := List.length_pos_iff.mpr h
  omega

theorem get?_set_self (entry : Entry) (h : place ≠ []) :
    (t.set place entry).get? place = some entry := by rw [get?_set t place entry h, if_pos rfl]

theorem get?_set_of_ne (entry : Entry) (h : other ≠ place) :
    (t.set place entry).get? other = t.get? other := by
  by_cases hnil : other = []
  · subst hnil
    rfl
  · rw [get?_set t other entry hnil, if_neg h]

theorem get?_touch (t : FileTree) (place other : Location) (modified : Int) :
    (t.touch place modified).get? other = t.get? other ∨
      other = place ∧
        (t.touch place modified).get? other = (t.get? other).map ({ · with modified }) := by
  unfold touch
  cases hp : t.get? place with
  | none => exact .inl rfl
  | some entry =>
    by_cases hne : other = place
    · subst hne
      by_cases hnil : other = []
      · subst hnil
        exact .inl rfl
      · refine .inr ⟨rfl, ?_⟩
        rw [hp]
        exact get?_set_self _ hnil
    · exact .inl (get?_set_of_ne _ hne)

/-- A changed place holds what was put there, and of the others at most the time has changed, in the
directory that the place is in. -/
theorem get?_put (node : Node) (h : place ≠ []) :
    (t.put place node).get? place = some ⟨node, t.now⟩ ∧
      ∀ other ≠ place, (t.put place node).get? other = t.get? other ∨
        other = place.dropLast ∧
          (t.put place node).get? other = (t.get? other).map ({ · with modified := t.now }) := by
  have self := get?_set_self (t := t) ⟨node, t.now⟩ h
  have others (other : Location) (hne : other ≠ place) :=
    get?_set_of_ne (t := t) ⟨node, t.now⟩ hne
  unfold put
  dsimp only
  split
  · exact ⟨self, fun other hne => .inl (others other hne)⟩
  · refine ⟨?_, fun other hne => ?_⟩
    · rcases get?_touch (t.set place ⟨node, t.now⟩) place.dropLast place t.now with ht | ⟨he, -⟩
      · exact ht.trans self
      · exact absurd he.symm (dropLast_ne_self h)
    · rcases get?_touch (t.set place ⟨node, t.now⟩) place.dropLast other t.now with ht | ⟨he, ht⟩
      · exact .inl (ht.trans (others other hne))
      · exact .inr ⟨he, by rw [ht, others other hne]⟩

/-- Two trees in one setting: paths start from the same directory, changes happen at the same time, and
the same is denied. -/
structure SameSetting (t t' : FileTree) : Prop where
  working : t'.working = t.working
  now : t'.now = t.now
  denies : t'.denies = t.denies

theorem SameSetting.refl (t : FileTree) : t.SameSetting t := ⟨rfl, rfl, rfl⟩

theorem SameSetting.trans (h : t.SameSetting t') (h' : t'.SameSetting u) : t.SameSetting u :=
  ⟨h'.working.trans h.working, h'.now.trans h.now, h'.denies.trans h.denies⟩

theorem SameSetting.of_changes {u' : FileTree} (h : t.SameSetting t') (hu : t.SameSetting u)
    (hu' : t'.SameSetting u') : u.SameSetting u' :=
  ⟨by rw [hu'.working, hu.working, h.working], by rw [hu'.now, hu.now, h.now],
    by rw [hu'.denies, hu.denies, h.denies]⟩

theorem sameSetting_touch (t : FileTree) (place : Location) (modified : Int) :
    t.SameSetting (t.touch place modified) := by
  unfold touch
  split <;> exact ⟨rfl, rfl, rfl⟩

theorem sameSetting_put (t : FileTree) (place : Location) (node : Node) :
    t.SameSetting (t.put place node) := by
  unfold put
  dsimp only
  split
  · exact ⟨rfl, rfl, rfl⟩
  · have hset : t.SameSetting (t.set place ⟨node, t.now⟩) := ⟨rfl, rfl, rfl⟩
    exact hset.trans (sameSetting_touch _ _ _)

end Places

section Files

/-- What a file holds and when it was changed last. -/
def file? (t : FileTree) (place : Location) : Option (Content × Int) :=
  match t.get? place with
  | some ⟨.file content, modified⟩ => some (content, modified)
  | _ => none

theorem file?_eq_some {content : Content} {modified : Int} :
    t.file? place = some (content, modified) ↔ t.get? place = some ⟨.file content, modified⟩ := by
  unfold file?
  split
  next heq => simp [heq]
  next hne =>
    refine ⟨nofun, fun h => ?_⟩
    exact absurd h (hne _ _)

theorem file?_eq_none (h : t.isDirectoryAt place = true) : t.file? place = none := by
  unfold file?
  split
  next heq => simp [isDirectoryAt, heq, Entry.isDirectory] at h
  next => rfl

theorem isDirectoryAt_put (node : Node) (h : place ≠ []) (other : Location) :
    (t.put place node).isDirectoryAt other =
      if other = place then decide (node = .directory) else t.isDirectoryAt other := by
  obtain ⟨self, others⟩ := get?_put (t := t) node h
  by_cases hne : other = place
  · subst hne
    rw [if_pos rfl, isDirectoryAt, self]
    rfl
  · rw [if_neg hne, isDirectoryAt, isDirectoryAt]
    rcases others other hne with ho | ⟨-, ho⟩
    · rw [ho]
    · rw [ho]
      cases t.get? other <;> rfl

theorem isSome_get?_put (node : Node) (h : place ≠ []) :
    ((t.put place node).get? other).isSome = true ↔
      other = place ∨ (t.get? other).isSome = true := by
  obtain ⟨self, others⟩ := get?_put (t := t) node h
  by_cases hne : other = place
  · subst hne
    simp [self]
  · rcases others other hne with ho | ⟨-, ho⟩ <;> simp [ho, hne]

theorem file?_put_of_ne (node : Node) (h : place ≠ []) (hdir : t.isDirectoryAt place.dropLast = true)
    (hne : other ≠ place) : (t.put place node).file? other = t.file? other := by
  rcases (get?_put (t := t) node h).2 other hne with ho | ⟨rfl, -⟩
  · simp only [file?, ho]
  · have hdir' : (t.put place node).isDirectoryAt place.dropLast = true := by
      rw [isDirectoryAt_put node h, if_neg hne, hdir]
    rw [file?_eq_none hdir, file?_eq_none hdir']

end Files

/-- Everything lies in a directory, and paths start from one. -/
structure WellFormed (t : FileTree) : Prop where
  parent : ∀ ⦃place⦄, (t.get? place).isSome = true → t.isDirectoryAt place.dropLast = true
  working : t.isDirectoryAt t.working = true

theorem WellFormed.of_entries (h : ∀ entry ∈ t.entries, t.isDirectoryAt entry.1.dropLast = true)
    (hworking : t.isDirectoryAt t.working = true) : t.WellFormed where
  parent place hplace := by
    cases place with
    | nil => rfl
    | cons name place =>
      obtain ⟨entry, hentry⟩ := Option.isSome_iff_exists.mp hplace
      obtain ⟨before, after, hentries, -⟩ := List.lookup_eq_some_iff.mp hentry
      exact h (name :: place, entry) (by rw [hentries]; simp)
  working := hworking

theorem WellFormed.put (h : t.WellFormed) (hplace : place ≠ [])
    (hdir : t.isDirectoryAt place.dropLast = true)
    (hnode : node = .directory ∨ t.isDirectoryAt place = false) : (t.put place node).WellFormed := by
  have keeps : ∀ other, t.isDirectoryAt other = true →
      (t.put place node).isDirectoryAt other = true := by
    intro other ho
    rw [isDirectoryAt_put node hplace]
    split
    next he =>
      rcases hnode with rfl | hnode
      · rfl
      · rw [he, hnode] at ho
        cases ho
    next => exact ho
  refine ⟨fun other ho => keeps _ ?_, ?_⟩
  · rcases (isSome_get?_put node hplace).mp ho with rfl | ho
    · exact hdir
    · exact h.parent ho
  · rw [(sameSetting_put t place node).working]
    exact keeps _ h.working

section Clock

variable (t : FileTree) (now : Int)

theorem isDirectoryAt_setNow (place : Location) :
    ({ t with now } : FileTree).isDirectoryAt place = t.isDirectoryAt place := by
  cases place <;> rfl

theorem file?_setNow (place : Location) : ({ t with now } : FileTree).file? place = t.file? place := by
  cases place <;> rfl

variable {t} in
theorem WellFormed.setNow (h : t.WellFormed) : ({ t with now } : FileTree).WellFormed where
  parent place hp := by
    rw [isDirectoryAt_setNow]
    refine h.parent ?_
    cases place <;> exact hp
  working := (isDirectoryAt_setNow t now t.working).trans h.working

end Clock

section Paths

theorem isDirectoryAt_of_get? {entry : Entry} (h : t.get? place = some entry)
    (hd : entry.isDirectory = true) : t.isDirectoryAt place = true := by
  rw [isDirectoryAt, h]
  exact hd

def stepInto (place : Location) (part : String) : Location :=
  if part = ".." then place.dropLast else place ++ [part]

theorem walk_cons_eq (t : FileTree) (place : Location) (part : String) (parts : List String) :
    t.walk place (part :: parts) =
      if t.isDirectoryAt place then
        if part ≠ ".." ∧ maxNameSize < part.utf8ByteSize then .error .nameTooLong
        else t.walk (stepInto place part) parts
      else .error (if (t.get? place).isSome then .notDirectory else .missing) := by
  rw [walk, isDirectoryAt]
  cases t.get? place with
  | none => rfl
  | some entry =>
    by_cases hd : entry.isDirectory = true
    · by_cases hdots : part = ".." <;> simp [hd, hdots, stepInto]
    · simp [hd]

theorem walk_cons {part : String} {parts : List String}
    (h : t.walk place (part :: parts) = .ok other) :
    t.isDirectoryAt place = true ∧ t.walk (stepInto place part) parts = .ok other := by
  rw [walk] at h
  cases hp : t.get? place with
  | none => simp [hp] at h
  | some entry =>
    simp only [hp] at h
    by_cases hd : entry.isDirectory = true
    · refine ⟨isDirectoryAt_of_get? hp hd, ?_⟩
      simp only [hd, Bool.not_true, Bool.false_eq_true, if_false] at h
      unfold stepInto
      split at h
      next hdots => rwa [if_pos hdots]
      next hdots =>
        rw [if_neg hdots]
        split at h
        · cases h
        · exact h
    · simp [hd] at h

theorem walk_error {fault : FileFault} {parts : List String} (h : t.walk place parts = .error fault) :
    fault = .missing ∨ fault = .notDirectory ∨ fault = .nameTooLong := by
  induction parts generalizing place with
  | nil => cases h
  | cons part parts ih =>
    rw [walk_cons_eq] at h
    split at h
    · split at h
      · cases h
        simp
      · exact ih h
    · split at h <;> cases h <;> simp

theorem utf8ByteSize_of_walk {parts : List String} (h : t.walk place parts = .ok other) :
    ∀ part ∈ parts, part.utf8ByteSize ≤ maxNameSize := by
  induction parts generalizing place with
  | nil => exact List.forall_mem_nil _
  | cons part parts ih =>
    obtain ⟨hdir, hrest⟩ := walk_cons h
    refine List.forall_mem_cons.mpr ⟨?_, ih hrest⟩
    rw [walk_cons_eq, if_pos hdir] at h
    split at h
    · cases h
    next hshort =>
      by_cases hdots : part = ".."
      · rw [hdots]
        decide
      · exact Nat.not_lt.mp fun hlong => hshort ⟨hdots, hlong⟩

theorem walk_eq {parts : List String} (h : t.walk place parts = .ok other) :
    other = parts.foldl stepInto place := by
  induction parts generalizing place with
  | nil =>
    cases h
    rfl
  | cons part parts ih => exact ih (walk_cons h).2

theorem walk_append {parts : List String} (h : t.walk place parts = .ok other) (rest : List String) :
    t.walk place (parts ++ rest) = t.walk other rest := by
  induction parts generalizing place with
  | nil =>
    cases h
    rfl
  | cons part parts ih =>
    rw [walk_cons_eq] at h
    rw [List.cons_append, walk_cons_eq]
    split at h
    next hdir =>
      rw [if_pos hdir]
      split at h
      · cases h
      next hshort =>
        rw [if_neg hshort]
        exact ih h
    · cases h

theorem walk_inside (hwf : t.WellFormed) {parts : List String}
    (hstart : t.isDirectoryAt place = true ∨ t.isDirectoryAt place.dropLast = true)
    (h : t.walk place parts = .ok other) :
    t.isDirectoryAt other = true ∨ t.isDirectoryAt other.dropLast = true := by
  induction parts generalizing place with
  | nil =>
    cases h
    exact hstart
  | cons part parts ih =>
    obtain ⟨hdir, hwalk⟩ := walk_cons h
    refine ih ?_ hwalk
    unfold stepInto
    split
    · refine .inl (hwf.parent ?_)
      rw [isDirectoryAt] at hdir
      cases hp : t.get? place with
      | none => simp [hp] at hdir
      | some entry => rfl
    · exact .inr (by rw [List.dropLast_concat]; exact hdir)

theorem mapError_eq_ok {ε ε' α : Type} {f : ε → ε'} {x : Except ε α} {a : α} :
    x.mapError f = .ok a ↔ x = .ok a := by
  constructor
  · intro h
    cases x <;> cases h
    rfl
  · rintro rfl
    rfl

theorem mapError_eq_error {ε ε' α : Type} {f : ε → ε'} {x : Except ε α} {e : ε'} :
    x.mapError f = .error e ↔ ∃ e', x = .error e' ∧ e = f e' := by
  constructor
  · intro h
    cases x <;> cases h
    exact ⟨_, rfl, rfl⟩
  · rintro ⟨e', rfl, rfl⟩
    rfl

theorem SameSetting.objection? (h : t.SameSetting u) (p : Path) : u.objection? p = t.objection? p := by
  rw [FileTree.objection?, FileTree.objection?, h.denies]

theorem objection?_eq_some {e : FileError} (h : t.objection? p = some e) :
    e = .nullCharacter ∧ p.hasNull = true ∨
      e = .refused .nameTooLong p ∧ maxPathSize < p.render.utf8ByteSize ∨
      e = .denied p ∧ t.denies .find p = true := by
  unfold objection? at h
  split at h
  next hnull => exact .inl ⟨(Option.some.inj h).symm, hnull⟩
  split at h
  next hlong => exact .inr (.inl ⟨(Option.some.inj h).symm, hlong⟩)
  split at h
  next hdenied => exact .inr (.inr ⟨(Option.some.inj h).symm, hdenied⟩)
  cases h

theorem hasNull_of_objection? (h : t.objection? p = none) : p.hasNull = false := by
  unfold objection? at h
  split at h
  · cases h
  next hnull => simpa using hnull

theorem locate_eq_ok :
    t.locate p = .ok place ↔ t.objection? p = none ∧ t.walk (t.start p) p.parts = .ok place := by
  unfold locate
  cases t.objection? p with
  | some e => simp
  | none => simp [mapError_eq_ok]

theorem locate_eq_error {e : FileError} :
    t.locate p = .error e ↔ t.objection? p = some e ∨
      t.objection? p = none ∧ ∃ fault, t.walk (t.start p) p.parts = .error fault ∧
        e = .refused fault p := by
  unfold locate
  cases t.objection? p with
  | some e' => simp
  | none => simp [mapError_eq_error]

theorem locate_eq (h : t.locate p = .ok place) : place = p.resolve t.working :=
  walk_eq (locate_eq_ok.mp h).2

theorem locate_error {e : FileError} (h : t.locate p = .error e) :
    t.objection? p = some e ∨ e = .refused .missing p ∨ e = .refused .notDirectory p ∨
      e = .refused .nameTooLong p := by
  rcases locate_eq_error.mp h with ho | ⟨-, fault, hw, rfl⟩
  · exact .inl ho
  · rcases walk_error hw with rfl | rfl | rfl <;> simp

theorem isDirectoryAt_start (hwf : t.WellFormed) (p : Path) : t.isDirectoryAt (t.start p) = true := by
  unfold start
  split
  · exact hwf.working
  · rfl

theorem locate_inside (hwf : t.WellFormed) (h : t.locate p = .ok place) :
    t.isDirectoryAt place = true ∨ t.isDirectoryAt place.dropLast = true :=
  walk_inside hwf (.inl (isDirectoryAt_start hwf p)) (locate_eq_ok.mp h).2

theorem walk_of_directories (h : ∀ place, t.isDirectoryAt place = true → u.isDirectoryAt place = true)
    {parts : List String} {result : Except FileFault Location} (hw : t.walk place parts = result)
    (hfound : result ≠ .error .missing) (hdir : result ≠ .error .notDirectory) :
    u.walk place parts = result := by
  induction parts generalizing place with
  | nil => exact hw
  | cons part parts ih =>
    rw [walk_cons_eq] at hw ⊢
    by_cases hd : t.isDirectoryAt place = true
    · rw [if_pos hd] at hw
      rw [if_pos (h place hd)]
      split at hw
      next hlong => rw [if_pos hlong, hw]
      next hshort =>
        rw [if_neg hshort]
        exact ih hw
    · rw [if_neg hd] at hw
      subst hw
      cases hsome : (t.get? place).isSome <;> simp [hsome] at hfound hdir

theorem SameSetting.start (h : t.SameSetting u) (p : Path) : u.start p = t.start p := by
  rw [FileTree.start, FileTree.start, h.working]

theorem locate_of_directories (h : ∀ place, t.isDirectoryAt place = true → u.isDirectoryAt place = true)
    (hsame : t.SameSetting u) (hl : t.locate p = .ok place) : u.locate p = .ok place := by
  rw [locate_eq_ok] at hl ⊢
  rw [hsame.objection?, hsame.start]
  exact ⟨hl.1, walk_of_directories h hl.2 nofun nofun⟩

theorem locate_nameTooLong (h : ∀ place, t.isDirectoryAt place = true → u.isDirectoryAt place = true)
    (hsame : t.SameSetting u) {q : Path} (hl : t.locate p = .error (.refused .nameTooLong q)) :
    u.locate p = .error (.refused .nameTooLong q) := by
  rw [locate_eq_error] at hl ⊢
  rw [hsame.objection?, hsame.start]
  refine hl.imp_right ?_
  rintro ⟨ho, fault, hw, he⟩
  cases he
  exact ⟨ho, _, walk_of_directories h hw nofun nofun, rfl⟩

end Paths

section Changes

/-- The second tree has the files of the first one, perhaps in more directories. -/
structure Prepares (t t' : FileTree) : Prop extends SameSetting t t' where
  wellFormed : t'.WellFormed
  file? : ∀ place, t'.file? place = t.file? place

theorem Prepares.refl (h : t.WellFormed) : t.Prepares t := ⟨.refl t, h, fun _ => rfl⟩

theorem Prepares.trans (h : t.Prepares t') (h' : t'.Prepares u) : t.Prepares u :=
  ⟨h.toSameSetting.trans h'.toSameSetting, h'.wellFormed,
    fun place => (h'.file? place).trans (h.file? place)⟩

theorem makeDirectory_eq_ok (hm : t.makeDirectory p = .ok t') :
    ∃ place, t.locate p = .ok place ∧ place ≠ [] ∧ t.get? place = none ∧
      t.denies .write p = false ∧ t' = t.put place .directory := by
  unfold makeDirectory at hm
  cases hl : t.locate p with
  | error e => simp [hl] at hm
  | ok place =>
    simp only [hl] at hm
    split at hm
    · cases hm
    next hvacant =>
      split at hm
      · cases hm
      next hgranted =>
        cases hm
        rw [Bool.not_eq_true, Option.isSome_eq_false_iff, Option.isNone_iff_eq_none] at hvacant
        rw [Bool.not_eq_true] at hgranted
        refine ⟨place, rfl, ?_, hvacant, hgranted, rfl⟩
        rintro rfl
        simp [get?] at hvacant

theorem prepares_makeDirectory (h : t.WellFormed) (hm : t.makeDirectory p = .ok t') :
    t.Prepares t' := by
  obtain ⟨place, hl, hplace, hvacant, -, rfl⟩ := makeDirectory_eq_ok hm
  have hfile : t.isDirectoryAt place = false := by
    rw [isDirectoryAt, hvacant]
    rfl
  have hdir : t.isDirectoryAt place.dropLast = true :=
    (locate_inside h hl).resolve_left (by simp [hfile])
  refine ⟨sameSetting_put t _ _, h.put hplace hdir (.inl rfl), fun other => ?_⟩
  by_cases hne : other = place
  · subst hne
    have hnew : (t.put other .directory).isDirectoryAt other = true := by
      rw [isDirectoryAt_put _ hplace, if_pos rfl]
      rfl
    rw [file?_eq_none hnew]
    simp [FileTree.file?, hvacant]
  · exact file?_put_of_ne _ hplace hdir hne

theorem prepares_ensureDirectory (h : t.WellFormed) (p : Path) :
    t.Prepares (t.ensureDirectory p).2 := by
  fun_induction ensureDirectory t p with
  | case1 p t' hm => exact prepares_makeDirectory h hm
  | case2 p q hm hp => exact .refl h
  | case3 p q hm hp e t' hparent ih =>
    rw [hparent] at ih
    exact ih
  | case4 p q hm hp u t' hparent t'' hm' ih =>
    rw [hparent] at ih
    exact ih.trans (prepares_makeDirectory ih.wellFormed hm')
  | case5 p q hm hp u t' hparent q' hm' ih =>
    rw [hparent] at ih
    exact ih
  | case6 p q hm hp u t' hparent e hm' hne ih =>
    rw [hparent] at ih
    exact ih
  | case7 p e hm hne => exact .refl h

theorem ensureDirectory_of_parent {q : Path} (hm : t.makeDirectory p = .error (.refused .missing q))
    (hp : p.parts ≠ []) (hparent : (t.ensureDirectory p.parent).1 = .ok ()) :
    t.ensureDirectory p =
      match (t.ensureDirectory p.parent).2.makeDirectory p with
      | .ok u => (.ok (), u)
      | .error (.refused .missing q) =>
        (.error (.refused .missing q), (t.ensureDirectory p.parent).2)
      | .error e => ((t.ensureDirectory p.parent).2.unlessDirectory p e,
        (t.ensureDirectory p.parent).2) := by
  rw [ensureDirectory, hm]
  simp only [hp, dite_false]
  split
  next he =>
    rw [he] at hparent
    cases hparent
  next he =>
    rewrite [he]
    rfl

theorem isDirectoryAt_makeDirectory (hm : t.makeDirectory p = .ok u)
    (hd : t.isDirectoryAt other = true) :
    u.isDirectoryAt other = true := by
  obtain ⟨place, -, hplace, -, -, rfl⟩ := makeDirectory_eq_ok hm
  rw [isDirectoryAt_put _ hplace]
  split
  · rfl
  · exact hd

theorem isDirectoryAt_ensureDirectory (t : FileTree) (p : Path) (hd : t.isDirectoryAt other = true) :
    (t.ensureDirectory p).2.isDirectoryAt other = true := by
  fun_induction ensureDirectory t p with
  | case1 p u hm => exact isDirectoryAt_makeDirectory hm hd
  | case2 => exact hd
  | case3 p q hm hp e u hparent ih =>
    rw [hparent] at ih
    exact ih
  | case4 p q hm hp _ u hparent v hv ih =>
    rw [hparent] at ih
    exact isDirectoryAt_makeDirectory hv ih
  | case5 p q hm hp _ u hparent q' he ih =>
    rw [hparent] at ih
    exact ih
  | case6 p q hm hp _ u hparent e he hne ih =>
    rw [hparent] at ih
    exact ih
  | case7 => exact hd

/-- The second tree has a text at a place, and the other files of the first one. -/
structure Stores (t : FileTree) (place : Location) (text : String) (t' : FileTree) : Prop
    extends SameSetting t t' where
  wellFormed : t'.WellFormed
  file?_self : t'.file? place = some (.text text, t.now)
  file?_of_ne : ∀ other ≠ place, t'.file? other = t.file? other

theorem write_eq_ok {content : Content} (hw : t.write p content = .ok t') :
    ∃ place, t.locate p = .ok place ∧ place ≠ [] ∧ t.isDirectoryAt place = false ∧
      t.denies .write p = false ∧ t' = t.put place (.file content) := by
  unfold write at hw
  cases hl : t.locate p with
  | error e => simp [hl] at hw
  | ok place =>
    simp only [hl] at hw
    split at hw
    · cases hw
    next hfile =>
      split at hw
      · cases hw
      next hgranted =>
        cases hw
        rw [Bool.not_eq_true] at hfile hgranted
        refine ⟨place, rfl, ?_, hfile, hgranted, rfl⟩
        rintro rfl
        cases hfile

theorem stores_write (h : t.WellFormed) {text : String} (hw : t.write p (.text text) = .ok t') :
    t.Stores (p.resolve t.working) text t' := by
  obtain ⟨place, hl, hplace, hfile, -, rfl⟩ := write_eq_ok hw
  have hdir : t.isDirectoryAt place.dropLast = true :=
    (locate_inside h hl).resolve_left (by simp [hfile])
  rw [← locate_eq hl]
  exact ⟨sameSetting_put t _ _, h.put hplace hdir (.inr hfile),
    file?_eq_some.mpr (get?_put _ hplace).1, fun other hne => file?_put_of_ne _ hplace hdir hne⟩

/-- Storing a text either puts it into its place or changes no file. -/
theorem store_cases (h : t.WellFormed) (p : Path) (text : String) :
    (∃ e, (t.store p text).1 = .error e ∧ t.Prepares (t.store p text).2) ∨
      (t.store p text).1 = .ok () ∧ t.Stores (p.resolve t.working) text (t.store p text).2 := by
  have made := prepares_ensureDirectory h p.parent
  unfold store
  cases he : t.ensureDirectory p.parent with
  | mk result u =>
    rw [he] at made
    cases result with
    | error e => exact .inl ⟨e, rfl, made⟩
    | ok _ =>
      dsimp only
      cases hw : u.write p (.text text) with
      | error e => exact .inl ⟨e, rfl, made⟩
      | ok t' =>
        have written := stores_write made.wellFormed hw
        rw [made.working] at written
        refine .inr ⟨rfl, made.toSameSetting.trans written.toSameSetting, written.wellFormed, ?_,
          fun other hne => ?_⟩
        · rw [written.file?_self, made.now]
        · rw [written.file?_of_ne other hne, made.file?]

/-- A tree after texts are stored in it one after the other. -/
def storeAll (t : FileTree) (files : List (Path × String)) : FileTree :=
  files.foldl (fun t (path, text) => (t.store path text).2) t

theorem WellFormed.storeAll (h : t.WellFormed) (files : List (Path × String)) :
    (t.storeAll files).WellFormed := by
  induction files generalizing t with
  | nil => exact h
  | cons file files ih =>
    refine ih ?_
    rcases store_cases h file.1 file.2 with ⟨e, -, hprepares⟩ | ⟨-, hstores⟩
    · exact hprepares.wellFormed
    · exact hstores.wellFormed

def bare : FileTree := { entries := [], nodup := List.nodup_nil }

theorem wellFormed_bare : bare.WellFormed where
  parent place hplace := by
    cases place with
    | nil => rfl
    | cons => cases hplace
  working := rfl

end Changes

section Answers

theorem isDirectory?_eq_true :
    t.isDirectory? p = .ok true ↔ ∃ place, t.locate p = .ok place ∧ t.isDirectoryAt place = true := by
  unfold FileTree.isDirectory? FileTree.status FileTree.isDirectoryAt
  cases t.locate p with
  | error e => rcases e with ⟨_ | _ | _ | _ | _, _⟩ | _ | _ | _ <;> simp [Except.map, orAbsent]
  | ok place => cases h : t.get? place <;> simp [h, Except.map, orAbsent]

theorem status_eq_ok {entry : Entry} (h : t.status p = .ok entry) :
    t.get? (p.resolve t.working) = some entry := by
  unfold status at h
  cases hl : t.locate p with
  | error e => simp [hl] at h
  | ok place =>
    simp only [hl] at h
    split at h
    next heq =>
      cases h
      rw [← locate_eq hl, heq]
    · cases h

/-- The text in a place as it is read, with line ends unified. -/
def textAt? (t : FileTree) (place : Location) : Option String :=
  match t.file? place with
  | some (.text raw, _) => some (String.ofList (Text.unifyLineEnds raw.toList))
  | _ => none

theorem textAt?_of_file? {raw : String} {modified : Int}
    (h : t.file? place = some (.text raw, modified)) :
    t.textAt? place = some (String.ofList (Text.unifyLineEnds raw.toList)) := by
  rw [textAt?, h]

theorem readText_eq_ok {text : String} (h : t.readText p = .ok text) :
    ∃ raw modified, t.file? (p.resolve t.working) = some (.text raw, modified) ∧
      text = String.ofList (Text.unifyLineEnds raw.toList) := by
  unfold readText at h
  cases hs : t.status p with
  | error e => simp [hs] at h
  | ok entry =>
    obtain ⟨node, modified⟩ := entry
    simp only [hs] at h
    split at h
    · cases h
    split at h
    · cases h
    · cases h
    next heq =>
      cases heq
      cases h
      exact ⟨_, modified, file?_eq_some.mpr (status_eq_ok hs), rfl⟩

theorem status_of_readText {text : String} (h : t.readText p = .ok text) :
    t.denies .read p = false ∧ t.isDirectory? p = .ok false := by
  unfold readText at h
  cases hs : t.status p with
  | error e => simp [hs] at h
  | ok entry =>
    obtain ⟨node, modified⟩ := entry
    simp only [hs] at h
    split at h
    · cases h
    next hgranted =>
      rw [Bool.not_eq_true] at hgranted
      refine ⟨hgranted, ?_⟩
      cases node with
      | file content =>
        rw [isDirectory?, hs]
        rfl
      | directory => cases h

theorem readText_of_status {raw : String} {modified : Int} (hgranted : t.denies .read p = false)
    (h : t.status p = .ok ⟨.file (.text raw), modified⟩) :
    t.readText p = .ok (String.ofList (Text.unifyLineEnds raw.toList)) := by
  rw [readText, h, hgranted]
  rfl

theorem exists?_eq_true :
    t.exists? p = .ok true ↔ ∃ entry, t.status p = .ok entry := by
  unfold exists?
  cases t.status p with
  | ok entry => simp [Except.map, orAbsent]
  | error e => rcases e with ⟨_ | _ | _ | _ | _, _⟩ | _ | _ | _ <;> simp [Except.map, orAbsent]

theorem hasNull_of_exists? (h : t.exists? p = .ok true) : p.hasNull = false := by
  obtain ⟨entry, hentry⟩ := exists?_eq_true.mp h
  unfold status at hentry
  split at hentry
  · cases hentry
  next hl => exact hasNull_of_objection? (locate_eq_ok.mp hl).1

/-- A text can be stored where its path can be followed and written, once there are directories, to no
directory. -/
theorem locate_of_store (h : t.WellFormed) {text : String} (hok : (t.store p text).1 = .ok ()) :
    (t.ensureDirectory p.parent).2.locate p = .ok (p.resolve t.working) ∧
      (t.ensureDirectory p.parent).2.isDirectoryAt (p.resolve t.working) = false ∧
      t.denies .write p = false := by
  have made := prepares_ensureDirectory h p.parent
  unfold store at hok
  cases he : t.ensureDirectory p.parent with
  | mk result u =>
    rw [he] at made
    cases result with
    | error e => simp [he] at hok
    | ok _ =>
      simp only [he] at hok
      cases hw : u.write p (.text text) with
      | error e => simp [hw] at hok
      | ok v =>
        obtain ⟨place, hl, -, hd, hgranted, -⟩ := write_eq_ok hw
        have hplace := locate_eq hl
        rw [made.working] at hplace
        rw [← hplace]
        exact ⟨hl, hd, made.denies ▸ hgranted⟩

theorem store_fst (t : FileTree) (p : Path) (text text' : String) :
    (t.store p text).1 = (t.store p text').1 := by
  unfold store
  cases t.ensureDirectory p.parent with
  | mk result u =>
    cases result with
    | error e => rfl
    | ok _ =>
      unfold write
      cases hl : u.locate p with
      | error e => simp only [hl]
      | ok place =>
        cases hd : u.isDirectoryAt place <;> cases hg : u.denies .write p <;> simp [hl, hd, hg]

theorem isDirectoryAt_of_store (h : t.WellFormed) {text : String} (hok : (t.store p text).1 = .ok ()) :
    t.isDirectoryAt (p.resolve t.working) = false := by
  rw [← Bool.not_eq_true]
  intro hd
  have hd' := isDirectoryAt_ensureDirectory t p.parent hd
  rw [(locate_of_store h hok).2.1] at hd'
  cases hd'

theorem orAbsent_error {α : Type} {default : α} {e : FileError}
    (h : e = .nullCharacter ∨ e = .refused .missing p ∨ e = .refused .notDirectory p) :
    orAbsent default (.error e) = .ok default := by rcases h with rfl | rfl | rfl <;> rfl

theorem exists?_of_locate (hlong : t.locate p ≠ .error (.refused .nameTooLong p))
    (hgranted : t.denies .find p = false) : ∃ found, t.exists? p = .ok found := by
  unfold exists? status
  cases hl : t.locate p with
  | ok place => cases hp : t.get? place <;> simp [hp, Except.map, orAbsent]
  | error e =>
    refine ⟨false, orAbsent_error (p := p) ?_⟩
    rcases locate_error hl with ho | rfl | rfl | rfl
    · rcases objection?_eq_some ho with ⟨he, -⟩ | ⟨rfl, -⟩ | ⟨-, hdenied⟩
      · exact .inl he
      · exact absurd hl hlong
      · rw [hgranted] at hdenied
        cases hdenied
    · exact .inr (.inl rfl)
    · exact .inr (.inr rfl)
    · exact absurd hl hlong

theorem granted_of_objection? (h : t.objection? p = none) : t.denies .find p = false := by
  rw [← Bool.not_eq_true]
  intro hdenied
  unfold objection? at h
  simp only [hdenied, if_true] at h
  split at h
  · cases h
  · split at h <;> cases h

theorem isDirectory?_ensureDirectory (hok : (t.ensureDirectory p).1 = .ok ()) :
    (t.ensureDirectory p).2.isDirectory? p = .ok true := by
  have made {t u : FileTree} {p : Path} (hm : t.makeDirectory p = .ok u) :
      u.isDirectory? p = .ok true := by
    obtain ⟨place, hl, hplace, -, -, rfl⟩ := makeDirectory_eq_ok hm
    refine isDirectory?_eq_true.mpr ⟨place, ?_, ?_⟩
    · exact locate_of_directories (fun _ => isDirectoryAt_makeDirectory hm) (sameSetting_put t _ _) hl
    · rw [isDirectoryAt_put _ hplace, if_pos rfl]
      rfl
  have found {t : FileTree} {p : Path} {e : FileError} (hu : t.unlessDirectory p e = .ok ()) :
      t.isDirectory? p = .ok true := by
    unfold unlessDirectory at hu
    split at hu
    next hd => exact hd
    · cases hu
    · cases hu
  fun_induction ensureDirectory t p with
  | case1 p u hm => exact made hm
  | case2 => cases hok
  | case3 => cases hok
  | case4 p q hm hp _ u hparent v hv ih => exact made hv
  | case5 => cases hok
  | case6 p q hm hp _ u hparent e he hne ih => exact found hok
  | case7 p e he hne => exact found hok

theorem locate_of_parent {parent : Location} (hl : t.locate p.parent = .ok parent)
    (hd : t.isDirectoryAt parent = true) (hnone : t.objection? p = none)
    (hshort : (p.parts.getLast?.getD "").utf8ByteSize ≤ maxNameSize) :
    ∃ place, t.locate p = .ok place := by
  suffices h : ∃ place, t.walk (t.start p) p.parts = .ok place from
    h.imp fun place hw => locate_eq_ok.mpr ⟨hnone, hw⟩
  rcases List.eq_nil_or_concat p.parts with hnil | ⟨parts, name, hparts⟩
  · exact ⟨t.start p, by rw [hnil]; rfl⟩
  · have hwalk : t.walk (t.start p) p.parent.parts = .ok parent := (locate_eq_ok.mp hl).2
    rw [List.concat_eq_append] at hparts
    rw [Path.parent, hparts, List.dropLast_concat] at hwalk
    rw [hparts, List.getLast?_concat, Option.getD_some] at hshort
    refine ⟨stepInto parent name, ?_⟩
    rw [hparts, walk_append hwalk, walk_cons_eq, if_pos hd, if_neg (by omega)]
    rfl

/-- Nothing is in the way of a file at a path, once there is a directory for it: neither the path nor the
name is too long, no directory is in its place, and it may be found and written. -/
structure Admits (t : FileTree) (p : Path) : Prop where
  possible : t.objection? p = none
  short : (p.parts.getLast?.getD "").utf8ByteSize ≤ maxNameSize
  vacant : (t.ensureDirectory p.parent).2.isDirectoryAt (p.resolve t.working) = false
  granted : t.denies .write p = false

theorem Admits.store (h : t.Admits p) (hwf : t.WellFormed)
    (hdir : (t.ensureDirectory p.parent).1 = .ok ()) (text : String) :
    (t.store p text).1 = .ok () := by
  have hsame := (prepares_ensureDirectory hwf p.parent).toSameSetting
  obtain ⟨parent, hparent, hd⟩ := isDirectory?_eq_true.mp (isDirectory?_ensureDirectory hdir)
  obtain ⟨place, hl⟩ :=
    locate_of_parent hparent hd ((hsame.objection? p).trans h.possible) h.short
  have hplace := locate_eq hl
  rw [hsame.working] at hplace
  have hvacant := h.vacant
  have hgranted := h.granted
  rw [← hplace] at hvacant
  rw [← hsame.denies] at hgranted
  have hwrite : (t.ensureDirectory p.parent).2.write p (.text text) =
      .ok ((t.ensureDirectory p.parent).2.put place (.file (.text text))) := by
    simp only [write, hl, hvacant, hgranted, Bool.false_eq_true, if_false]
  unfold FileTree.store
  cases he : t.ensureDirectory p.parent with
  | mk result u =>
    rw [he] at hdir hwrite
    obtain rfl : result = .ok () := hdir
    simp only [hwrite]

theorem exists?_of_store (h : t.WellFormed) {text : String} (hok : (t.store p text).1 = .ok ()) :
    ∃ found, t.exists? p = .ok found := by
  have hsame := (prepares_ensureDirectory h p.parent).toSameSetting
  have hlocate := (locate_of_store h hok).1
  refine exists?_of_locate (fun hl => ?_) (granted_of_objection? ?_)
  · have hl' := locate_nameTooLong (fun q => isDirectoryAt_ensureDirectory t p.parent) hsame hl
    rw [hlocate] at hl'
    cases hl'
  · rw [← hsame.objection?]
    exact (locate_eq_ok.mp hlocate).1

theorem Admits.of_store (hwf : t.WellFormed) {text : String} (hok : (t.store p text).1 = .ok ()) :
    t.Admits p := by
  obtain ⟨hl, hvacant, hgranted⟩ := locate_of_store hwf hok
  obtain ⟨hnone, hwalk⟩ := locate_eq_ok.mp hl
  have hsame := (prepares_ensureDirectory hwf p.parent).toSameSetting
  refine ⟨(hsame.objection? p).symm.trans hnone, ?_, hvacant, hgranted⟩
  cases hlast : p.parts.getLast? with
  | none => exact Nat.zero_le _
  | some part => exact utf8ByteSize_of_walk hwalk part (List.mem_of_getLast? hlast)

theorem readText_congr (h : t.status p = u.status p) (hd : t.denies = u.denies) :
    t.readText p = u.readText p := by rw [readText, readText, h, hd]

theorem exists?_congr (h : t.status p = u.status p) : t.exists? p = u.exists? p := by
  rw [exists?, exists?, h]

end Answers

section Errors

variable {e : FileError}

theorem isOfSystem_of_objection? (hnull : p.hasNull = false) (h : t.objection? p = some e) :
    e.isOfSystem = true := by
  rcases objection?_eq_some h with ⟨-, hnull'⟩ | ⟨rfl, -⟩ | ⟨rfl, -⟩
  · rw [hnull] at hnull'
    cases hnull'
  · rfl
  · rfl

theorem isOfSystem_of_locate (hnull : p.hasNull = false) (h : t.locate p = .error e) :
    e.isOfSystem = true := by
  rcases locate_eq_error.mp h with ho | ⟨-, _, -, rfl⟩
  · exact isOfSystem_of_objection? hnull ho
  · rfl

theorem isOfSystem_of_status (hnull : p.hasNull = false) (h : t.status p = .error e) :
    e.isOfSystem = true := by
  unfold status at h
  cases hl : t.locate p with
  | error e' =>
    simp only [hl] at h
    cases h
    exact isOfSystem_of_locate hnull hl
  | ok place =>
    simp only [hl] at h
    split at h <;> cases h
    rfl

theorem isOfSystem_of_makeDirectory (hnull : p.hasNull = false) (h : t.makeDirectory p = .error e) :
    e.isOfSystem = true := by
  unfold makeDirectory at h
  cases hl : t.locate p with
  | error e' =>
    simp only [hl] at h
    cases h
    exact isOfSystem_of_locate hnull hl
  | ok place =>
    simp only [hl] at h
    split at h
    · cases h
      rfl
    · split at h <;> cases h
      rfl

theorem isOfSystem_of_isDirectory? (hnull : p.hasNull = false) (h : t.isDirectory? p = .error e) :
    e.isOfSystem = true := by
  unfold isDirectory? at h
  cases hs : t.status p with
  | ok entry =>
    rw [hs] at h
    cases h
  | error e' =>
    have hsystem := isOfSystem_of_status hnull hs
    rw [hs] at h
    rcases e' with ⟨_ | _ | _ | _ | _, _⟩ | _ | _ | _ <;> cases h <;> exact hsystem

theorem isOfSystem_of_unlessDirectory (hnull : p.hasNull = false) {e' : FileError}
    (he : e.isOfSystem = true) (h : t.unlessDirectory p e = .error e') : e'.isOfSystem = true := by
  unfold unlessDirectory at h
  split at h
  · cases h
  · exact Except.error.inj h ▸ he
  next hd => exact Except.error.inj h ▸ isOfSystem_of_isDirectory? hnull hd

theorem hasNull_parent (hnull : p.hasNull = false) : p.parent.hasNull = false := by
  rw [Path.hasNull, List.any_eq_false] at hnull ⊢
  exact fun part hpart => hnull part (List.dropLast_subset _ hpart)

theorem isOfSystem_of_ensureDirectory (t : FileTree) (p : Path) (hnull : p.hasNull = false)
    (h : (t.ensureDirectory p).1 = .error e) : e.isOfSystem = true := by
  fun_induction ensureDirectory t p with
  | case1 => cases h
  | case2 p q hm hp =>
    cases h
    rfl
  | case3 p q hm hp e' u hparent ih =>
    rw [hparent] at ih
    exact ih (hasNull_parent hnull) h
  | case4 => cases h
  | case5 p q hm hp _ u hparent q' he ih =>
    cases h
    rfl
  | case6 p q hm hp _ u hparent e' hne he ih =>
    exact isOfSystem_of_unlessDirectory hnull (isOfSystem_of_makeDirectory hnull he) h
  | case7 p e' hne hm =>
    exact isOfSystem_of_unlessDirectory hnull (isOfSystem_of_makeDirectory hnull hm) h

theorem isOfSystem_of_write {content : Content} (hnull : p.hasNull = false)
    (h : t.write p content = .error e) : e.isOfSystem = true := by
  unfold write at h
  cases hl : t.locate p with
  | error e' =>
    simp only [hl] at h
    cases h
    exact isOfSystem_of_locate hnull hl
  | ok place =>
    simp only [hl] at h
    split at h
    · cases h
      rfl
    · split at h <;> cases h
      rfl

theorem isOfSystem_of_store {text : String} (hnull : p.hasNull = false)
    (h : (t.store p text).1 = .error e) : e.isOfSystem = true := by
  unfold store at h
  cases he : t.ensureDirectory p.parent with
  | mk result u =>
    cases result with
    | error e' =>
      simp only [he] at h
      cases h
      exact isOfSystem_of_ensureDirectory t p.parent (hasNull_parent hnull) (by rw [he])
    | ok _ =>
      simp only [he] at h
      cases hw : u.write p (.text text) with
      | error e' =>
        simp only [hw] at h
        cases h
        exact isOfSystem_of_write hnull hw
      | ok v => simp only [hw] at h; cases h

theorem isOfSystem_of_readText (hnull : p.hasNull = false) (hd : t.readText p ≠ .error .undecodable)
    (h : t.readText p = .error e) : e.isOfSystem = true := by
  unfold readText at h hd
  cases hs : t.status p with
  | error e' =>
    simp only [hs] at h
    cases h
    exact isOfSystem_of_status hnull hs
  | ok entry =>
    obtain ⟨node, modified⟩ := entry
    simp only [hs] at h hd
    split at h
    · cases h
      rfl
    next hgranted =>
      rw [if_neg hgranted] at hd
      rcases node with (_ | _) | _ <;> cases h
      · exact absurd rfl hd
      · rfl

end Errors

end FileTree

end ContextRoles.Files
