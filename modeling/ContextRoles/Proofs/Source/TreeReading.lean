import ContextRoles.Proofs.Source.LineReading

/-! # Trees are read as they are laid out

Each definition, binding and body is read from its first column up to the text that follows it, and
draws one id for each bound role inside. A role is tried as a context first; that fails at its first
property, before any id is drawn. The lemmas go along the layout, one for each of its forms, and take
what is laid out inside for granted.
-/

namespace ContextRoles.Source

open Parsing Lexeme
open ContextRoles.Parsing.Parser hiding some

variable {ids : Nat → String} {position : Position} {k : Nat} {header : TypeDeclaration}
  {x y contextId : String} {n : Option Nat} {g e rest tail u v w w' w₁ w₂ w₃ : List Char}
  {first : Property} {others properties publics privates : List Property} {s : State}

section Statements

/-- The text ends, or it goes on at a column or left of it. -/
def Closed (column : Nat) (position : Position) (tail : List Char) : Prop :=
  tail = [] ∨ position.column ≤ column

theorem Closed.mono {c c' : Nat} (h : Closed c position tail) (hc : c ≤ c') :
    Closed c' position tail := h.imp id (Nat.le_trans · hc)

/-- A definition is read as a context, or as a role after an attempt to read a context. -/
def Definable (ids : Nat → String) (s : State) (tree : Tree) (w tail : List Char) : Prop :=
  Runs (context ids) s w tail tree.size (tree.collection ids s.drawn) ∨
    FailsAt (context ids) s ∧ Runs role s w tail tree.size (tree.collection ids s.drawn)

def TreeRead (ids : Nat → String) (position : Position) (tree : Tree) (w tail : List Char) : Prop :=
  ∀ s : State, s.Sound → s.position = position → s.rest = w ++ tail →
    Closed position.column (position.advanceAll w) tail → Definable ids s tree w tail

def BranchRead (ids : Nat → String) (position : Position) (branch : Branch) (w tail : List Char) :
    Prop :=
  ∀ (s : State) (contextId : String), s.Sound → s.position = position → s.rest = w ++ tail →
    Closed position.column (position.advanceAll w) tail →
    Runs (roleBindingWith ids (context ids) contextId) s w tail branch.size
      (branch.collection ids s.drawn contextId)

def BranchesRead (ids : Nat → String) (k : Nat) (position : Position) (branches : List Branch)
    (w tail : List Char) : Prop :=
  ∀ (s : State) (contextId : String) (c : Nat), s.Sound → s.position = position →
    s.rest = w ++ tail → s.reference.column = k → c < k →
    Closed c (position.advanceAll w) tail →
    Runs (rounds (roleBindingWith ids (context ids) contextId)) s w tail (Branch.sizes branches)
      (Branch.collections ids s.drawn contextId branches)

end Statements

section Roles

theorem runs_role (hh : HeaderLine header w (w' ++ tail)) (hk : position.column < k)
    (hrows : Rows (fun _ => PropertyLine fun x => Spells propertyName x ∧ Unambiguous x) k
      (position.advanceAll w) (first :: others) w' tail)
    (hs : s.Sound) (hpos : s.position = position) (hr : s.rest = w ++ w' ++ tail)
    (hend : Closed position.column (position.advanceAll (w ++ w')) tail) :
    Runs role s (w ++ w') tail 0 ((Tree.role header first others).collection ids s.drawn) := by
  have headed : Runs typeDeclaration (s.withReference s.position) w (w' ++ tail) 0 header :=
    (reads_header hh).runs hs (by rw [← List.append_assoc]; exact hr) trivial
  rw [← buildRole_eq]
  refine Runs.withPosition (headed.bind_zero fun t ht => ?_)
  have htpos : t.position = position.advanceAll w := ht.position.trans (by rw [← hpos]; rfl)
  have htcol : t.reference.column = position.column := ht.column.trans (by rw [← hpos]; rfl)
  have rows := hrows
  rw [← htpos] at rows
  rw [Position.advanceAll_append, ← htpos, ← htcol] at hend
  exact (runs_roleProperties (fun _ hx => hx.1) rows ht.sound ht.rest (by rw [htcol]; exact hk)
    hend).bind_pure (buildRole header)

theorem propertyLine_head {a : Property} {names : String → Prop}
    (h : PropertyLine names a w tail) : ∃ x r, names x ∧ w = x.toList ++ r := by
  cases h with
  | mk hx => exact ⟨_, _, hx, rfl⟩

theorem failsAt_of_eq {s : State} (hs : s.Sound)
    (h : FailsAt (contextWith ids (context ids)) s) : FailsAt (context ids) s := by
  rw [FailsAt, context_eq ids hs]
  exact h

theorem failsAt_context (hh : HeaderLine header w (w' ++ tail)) (hk : position.column < k)
    (hrows : Rows (fun _ => PropertyLine fun x => Spells propertyName x ∧ Unambiguous x) k
      (position.advanceAll w) (first :: others) w' tail)
    (hs : s.Sound) (hpos : s.position = position) (hr : s.rest = w ++ w' ++ tail) :
    FailsAt (context ids) s := by
  have headed : Runs typeDeclaration (s.withReference s.position) w (w' ++ tail) 0 header :=
    (reads_header hh).runs hs (by rw [← List.append_assoc]; exact hr) trivial
  cases hrows with
  | @cons _ _ _ v r _ hcol hline _ =>
    obtain ⟨x, u, ⟨hx, hplain⟩, rfl⟩ := propertyLine_head hline
    have htext : x.toList ++ u ++ r ++ tail = x.toList ++ (u ++ (r ++ tail)) := by simp
    refine failsAt_of_eq hs (FailsAt.withPosition (FailsAt.bind_right headed fun t ht => ?_))
    have htpos : t.position.column = k := by rw [ht.position, ← hcol, ← hpos]; rfl
    have htcol : t.reference.column < k := by rw [ht.column]; exact hpos ▸ hk
    have publics : Runs (Parser.indentedBlock publicAssignment) t []
        (x.toList ++ u ++ r ++ tail) 0 [] :=
      runs_keywordProperties (l := []) (show "public" ≠ "" by decide) (by decide) .nil ht.sound
        ht.rest htcol (.inr (.inr ⟨htpos, htext ▸ refuses_publicAssignment hx hplain⟩))
    refine FailsAt.bind_right publics fun t₁ ht₁ => ?_
    have htpos₁ : t₁.position.column = k := by rw [ht₁.position]; exact htpos
    have htcol₁ : t₁.reference.column < k := by rw [ht₁.column]; exact htcol
    have privates : Runs (Parser.indentedBlock privateAssignment) t₁ []
        (x.toList ++ u ++ r ++ tail) 0 [] :=
      runs_keywordProperties (l := []) (show "private" ≠ "" by decide) (by decide) .nil
        ht₁.sound ht₁.rest htcol₁ (.inr (.inr ⟨htpos₁, htext ▸ refuses_privateAssignment hx hplain⟩))
    refine FailsAt.bind_right privates fun t₂ ht₂ => ?_
    have hopen : t₂.reference.column < t₂.position.column := by
      rw [ht₂.column, ht₂.position]
      exact Nat.lt_of_lt_of_eq htcol₁ htpos₁.symm
    refine FailsAt.bind_left (FailsAt.indentedBlock ht₂.sound hopen ?_)
    rw [ht₂.rest, List.append_assoc]
    exact (breaks_bindingWith (context ids) hline).bind_left

theorem treeRead_role (hh : HeaderLine header w (w' ++ tail)) (hk : position.column < k)
    (hrows : Rows (fun _ => PropertyLine fun x => Spells propertyName x ∧ Unambiguous x) k
      (position.advanceAll w) (first :: others) w' tail) :
    TreeRead ids position (.role header first others) (w ++ w') tail := by
  intro s hs hpos hr hend
  refine .inr ⟨failsAt_context hh hk hrows hs hpos hr, ?_⟩
  rw [Tree.size]
  exact runs_role hh hk hrows hs hpos hr hend

end Roles

section Contexts

variable {branches : List Branch} {c : Nat}

theorem arrowText_head {names : String → Prop} (h : ArrowText names x n w tail) :
    names x ∧ ∃ r, w = x.toList ++ r := by
  cases h with
  | mk hx => exact ⟨hx, _, rfl⟩

theorem branchRows_cases {plain : String → Prop} (h : BranchRows plain k position branches w tail) :
    (w = [] ∧ branches = []) ∨
      position.column = k ∧ ∃ x r, (Spells propertyName x ∧ plain x) ∧ w = x.toList ++ r := by
  cases h with
  | nil => exact .inl ⟨rfl, rfl⟩
  | cons hk hbranch _ =>
    refine .inr ⟨hk, ?_⟩
    cases hbranch with
    | named harrow =>
      obtain ⟨hx, r, rfl⟩ := arrowText_head harrow
      exact ⟨_, _, hx, by simp only [List.append_assoc]; rfl⟩
    | defined harrow =>
      obtain ⟨hx, r, rfl⟩ := arrowText_head harrow
      exact ⟨_, _, hx, by simp only [List.append_assoc]; rfl⟩

theorem ended_of_branches {α : Type} {q : Parser α}
    (h : BranchRows Unambiguous k position branches w tail)
    (hq : ∀ x text, Spells propertyName x → Unambiguous x → Refuses q (x.toList ++ text))
    (hend : Closed c (position.advanceAll w) tail) : Ended q c k position (w ++ tail) := by
  rcases branchRows_cases h with ⟨rfl, rfl⟩ | ⟨hcol, x, r, hx, rfl⟩
  · exact hend.elim .inl fun hle => .inr (.inl hle)
  · rw [List.append_assoc]
    exact .inr (.inr ⟨hcol, hq x _ hx.1 hx.2⟩)

theorem ended_of_privates
    (h : Rows (fun _ => KeywordLine "private") k position privates w tail)
    (hend : Ended publicAssignment c k (position.advanceAll w) tail) :
    Ended publicAssignment c k position (w ++ tail) := by
  rcases h.cases with ⟨rfl, rfl⟩ | ⟨hcol, a, as, v, r, rfl, hline, rfl⟩
  · exact hend
  · refine .inr (.inr ⟨hcol, ?_⟩)
    cases hline
    exact refuses_keyword_then (by simp)

theorem runs_branchBlock (hs : s.Sound) (hr : s.rest = w ++ tail) (hk : s.reference.column < k)
    (hrows : BranchRows Unambiguous k s.position branches w tail)
    (h : BranchesRead ids k s.position branches w tail)
    (hend : Closed s.reference.column (s.position.advanceAll w) tail) :
    Runs (Parser.indentedBlock (roleBindingWith ids (context ids) contextId)) s w tail
      (Branch.sizes branches) (Branch.collections ids s.drawn contextId branches) := by
  refine .indentedBlock hs hr (refuses_bindingWith_nil _).bind hk (fun hcol => ?_) ?_
    (hend.elim .inl fun hle => .inr (.inl hle))
  · exact h (s.withReference s.position) _ _ hs rfl hr hcol hk hend
  · rcases branchRows_cases hrows with ⟨rfl, rfl⟩ | ⟨hcol, -⟩
    · exact .inl ⟨rfl, rfl, rfl⟩
    · exact .inr hcol

theorem treeRead_context (hh : HeaderLine header w (w₁ ++ (w₂ ++ (w₃ ++ tail))))
    (hk : position.column < k)
    (hpub : Rows (fun _ => KeywordLine "public") k (position.advanceAll w) publics w₁
      (w₂ ++ (w₃ ++ tail)))
    (hpriv : Rows (fun _ => KeywordLine "private") k ((position.advanceAll w).advanceAll w₁) privates
      w₂ (w₃ ++ tail))
    (hrows : BranchRows Unambiguous k (((position.advanceAll w).advanceAll w₁).advanceAll w₂)
      branches w₃ tail)
    (h : BranchesRead ids k (((position.advanceAll w).advanceAll w₁).advanceAll w₂) branches w₃
      tail) :
    TreeRead ids position (.context header publics privates branches)
      (w ++ (w₁ ++ (w₂ ++ w₃))) tail := by
  intro s hs hpos hr hend
  left
  have headed : Runs typeDeclaration (s.withReference s.position) w (w₁ ++ (w₂ ++ w₃) ++ tail) 0
      header := by
    have read := reads_header hh
    rw [← List.append_assoc w₂, ← List.append_assoc w₁] at read
    exact read.runs hs (hr.trans (List.append_assoc _ _ _)) trivial
  simp only [Position.advanceAll_append] at hend
  have hbranches := ended_of_branches hrows (fun _ _ => refuses_privateAssignment) hend
  have hprivates := ended_of_privates hpriv
    (ended_of_branches hrows (fun _ _ => refuses_publicAssignment) hend)
  rw [← buildContext_eq, Tree.size]
  have run : Runs (contextWith ids (context ids)) s (w ++ (w₁ ++ (w₂ ++ w₃))) tail
      (Branch.sizes branches) (buildContext header (publics.map Property.rendered)
        (privates.map Property.rendered) (Branch.collections ids s.drawn
          (localName header.instanceName) branches)) := by
    refine Runs.withPosition (headed.bind_zero fun t ht => ?_)
    have htpos : t.position = position.advanceAll w := ht.position.trans (by rw [← hpos]; rfl)
    have htcol : t.reference.column = position.column := ht.column.trans (by rw [← hpos]; rfl)
    rw [← htpos, ← List.append_assoc] at hpub
    rw [← htpos] at hpriv hrows hend hbranches hprivates h
    rw [← htcol] at hk hend hbranches hprivates
    rw [← List.append_assoc] at hprivates
    have publicBlock := runs_keywordProperties (by decide) (by decide) hpub ht.sound
      (ht.rest.trans (List.append_assoc _ _ _)) hk hprivates
    refine publicBlock.bind_zero fun t₁ ht₁ => ?_
    rw [← ht₁.position] at hpriv hrows hend hbranches h
    rw [← ht₁.column] at hk hend hbranches
    have privateBlock := runs_keywordProperties (by decide) (by decide) hpriv ht₁.sound
      (ht₁.rest.trans (List.append_assoc _ _ _)) hk hbranches
    refine privateBlock.bind_zero fun t₂ ht₂ => ?_
    rw [← ht₂.position] at hrows hend h
    rw [← ht₂.column] at hk hend
    have hdrawn : t₂.drawn = s.drawn := by rw [ht₂.drawn, ht₁.drawn, ht.drawn]; rfl
    rw [← hdrawn]
    exact (runs_branchBlock ht₂.sound ht₂.rest hk hrows h hend).bind_pure _
  exact ⟨_, (context_eq ids hs).trans run.choose_spec.1, run.choose_spec.2⟩

end Contexts

section Branches

variable {names : String → Prop} {context : Parser Collection} {target : Target} {d : Nat}

theorem runs_bindingWith
    (harrow : ArrowText (fun x => Spells propertyName x ∧ names x) x n w (g ++ (u ++ (v ++ tail))))
    (hg : Gap g (u ++ (v ++ tail))) (hk : position.column < k)
    (hrows : Rows (fun _ => PropertyLine (Spells propertyName)) k
      ((position.advanceAll (w ++ g)).advanceAll u) properties v tail)
    (hs : s.Sound) (hpos : s.position = position) (hr : s.rest = w ++ g ++ (u ++ v) ++ tail)
    (hend : Closed position.column (position.advanceAll (w ++ g ++ (u ++ v))) tail)
    (htarget : Runs (bindingTarget context) ((s.withReference s.position).pass (w ++ g)) u
      (v ++ tail) d target) :
    Runs (bindingWith context) s (w ++ g ++ (u ++ v)) tail d
      ⟨x, n, target, properties.map Property.rendered⟩ := by
  have hs' : (s.withReference s.position).Sound := hs
  have hr' : (s.withReference s.position).rest = w ++ (g ++ (u ++ (v ++ tail))) :=
    hr.trans (by simp only [List.append_assoc])
  obtain ⟨t, t', hname, hoccurrence, harrow'⟩ := arrow_steps harrow hg hs' rfl hr'
  obtain ⟨t₁, ht₁, hb₁⟩ := htarget
  have hpos₁ : t₁.position = (position.advanceAll (w ++ g)).advanceAll u := by
    rw [hb₁.position, ← hpos]
    rfl
  have hcol₁ : t₁.reference.column = position.column := by
    rw [hb₁.column, ← hpos]
    rfl
  rw [← hpos₁] at hrows
  rw [Position.advanceAll_append, Position.advanceAll_append, ← hpos₁, ← hcol₁] at hend
  obtain ⟨t₂, ht₂, hb₂⟩ := runs_roleProperties (fun _ => id) hrows hb₁.sound hb₁.rest
    (hcol₁ ▸ hk) hend
  have hpass : (s.withReference s.position).Behind (w ++ g) (u ++ v ++ tail) 0
      ((s.withReference s.position).pass (w ++ g)) :=
    .pass hs' (hr.trans (by simp only [List.append_assoc]))
  have hbehind := hpass.trans (hb₁.trans hb₂)
  rw [Nat.add_zero, Nat.zero_add] at hbehind
  rw [bindingWith_eq]
  refine Runs.withPosition ⟨t₂, ?_, hbehind⟩
  exact bind_eq_success.mpr ⟨x, t, hname, bind_eq_success.mpr ⟨n, t', hoccurrence,
    bind_eq_success.mpr ⟨target, t₁, bind_eq_success.mpr ⟨"=>", _, harrow', ht₁⟩,
      bind_eq_success.mpr ⟨_, t₂, ht₂, rfl⟩⟩⟩⟩

theorem runs_roleBindingWith {binding : Binding} (h : Runs (bindingWith context) s w tail d binding) :
    Runs (roleBindingWith ids context contextId) s w tail (d + 1)
      (buildRoleBinding (ids (s.drawn + d)) contextId binding.roleName binding.occurrence
        binding.target binding.assignments) := by
  obtain ⟨t, ht, hb⟩ := h
  refine ⟨{ t with drawn := t.drawn + 1 }, ?_, hb.ahead, hb.sound, hb.rest, hb.position, hb.column,
    congrArg (· + 1) hb.drawn⟩
  rw [← hb.drawn]
  exact bind_eq_success.mpr ⟨binding, t, ht, bind_eq_success.mpr ⟨_, _, rfl, rfl⟩⟩

theorem branchRead_named
    (harrow : ArrowText (fun x => Spells propertyName x ∧ Unambiguous x) x n w
      (g ++ (y.toList ++ e ++ (v ++ tail))))
    (hg : Space g (y.toList ++ e ++ (v ++ tail))) (hy : Spells instanceName y)
    (he : LineBreak e (v ++ tail)) (hk : position.column < k)
    (hrows : Rows (fun _ => PropertyLine (Spells propertyName)) k
      ((position.advanceAll (w ++ g)).advanceAll (y.toList ++ e)) properties v tail) :
    BranchRead ids position (.named x n y properties) (w ++ g ++ (y.toList ++ e ++ v)) tail := by
  intro s contextId hs hpos hr hend
  have hr' : (s.withReference s.position).rest = w ++ g ++ (y.toList ++ e ++ (v ++ tail)) :=
    hr.trans (by simp only [List.append_assoc])
  have line : ((s.withReference s.position).pass (w ++ g)).OnLine := by
    have online : (s.withReference s.position).OnLine := rfl
    refine online.pass ?_
    rw [List.mem_append, not_or]
    exact ⟨notMem_of_arrowText harrow, hg.line⟩
  have named : ReadsIf State.OnLine ((Parser.sameLine.then_ instanceName).map Target.named)
      ([] ++ (y.toList ++ e)) (v ++ tail) (.named y) :=
    (ReadsIf.then_ readsIf_sameLine (fun s hs => by simpa using hs)
      (reads_instanceName hy.instanceName he.gap he.stops_name).readsIf).map _
  have target : Runs (bindingTarget (Source.context ids))
      ((s.withReference s.position).pass (w ++ g)) (y.toList ++ e) (v ++ tail) 0 (.named y) :=
    .alt_left (named.runs (s := ((s.withReference s.position).pass (w ++ g)).checkpoint)
      (State.Sound.pass (s := s.withReference s.position) hs hr') (State.rest_pass hr') line)
  rw [← buildRoleBinding_named, Branch.size]
  exact runs_roleBindingWith (runs_bindingWith harrow hg.gap hk hrows hs hpos hr hend target)

variable {tree : Tree}

theorem Definable.nested (h : Definable ids s.checkpoint tree w tail) :
    Runs (alt (attempt (Source.context ids)) role) s w tail tree.size
      (tree.collection ids s.drawn) := by
  rcases h with h | ⟨hfails, h⟩
  · exact h.attempt.alt_left
  · exact .attempt_alt hfails h

theorem Definable.definition (h : Definable ids s.checkpoint tree w tail) :
    Runs (definition ids) s w tail tree.size (tree.collection ids s.drawn) := by
  rcases h with h | ⟨hfails, h⟩
  · exact h.furthest_first
  · exact .furthest_second hfails h

theorem runs_target_below (hs : s.Sound) (hr : s.rest = u ++ rest)
    (hline : s.position.line ≠ s.reference.line) (hcol : s.reference.column < s.position.column)
    (h : TreeRead ids s.position tree u rest)
    (hend : Closed s.position.column (s.position.advanceAll u) rest) :
    Runs (bindingTarget (Source.context ids)) s u rest tree.size
      ⟨tree.target, .ofList (tree.writes ids s.drawn)⟩ := by
  have bare : RefusesAt ((Parser.sameLine.then_ instanceName).map Target.named) s.checkpoint :=
    (refusesAt_sameLine (s := s.checkpoint) hline).bind.map _
  have below : Runs (Parser.indented.then_ (alt (attempt (Source.context ids)) role)) s.checkpoint
      ([] ++ u) rest tree.size (tree.collection ids s.drawn) := by
    have opened := Runs.indented hs.checkpoint hcol
    rw [show s.checkpoint.rest = u ++ rest from hr] at opened
    refine opened.bind_zero fun t ht => ?_
    have hdrawn : t.drawn = s.drawn := ht.drawn
    rw [← hdrawn]
    exact (h t.checkpoint ht.sound ht.position ht.rest hend).nested
  refine .alt_right bare ?_
  obtain ⟨t, ht, hb⟩ := below
  refine ⟨t, bind_eq_success.mpr ⟨_, t, ht, ?_⟩, hb⟩
  rw [Tree.defined_collection]
  rfl

theorem branchRead_defined
    (harrow : ArrowText (fun x => Spells propertyName x ∧ Unambiguous x) x n w
      (g ++ (u ++ (v ++ tail))))
    (hg : Gap g (u ++ (v ++ tail))) (hline : '\n' ∈ g)
    (hcol : position.column < (position.advanceAll (w ++ g)).column)
    (h : TreeRead ids (position.advanceAll (w ++ g)) tree u (v ++ tail))
    (hk : position.column < k) (hk' : k ≤ (position.advanceAll (w ++ g)).column)
    (hrows : Rows (fun _ => PropertyLine (Spells propertyName)) k
      ((position.advanceAll (w ++ g)).advanceAll u) properties v tail) :
    BranchRead ids position (.defined x n tree properties) (w ++ g ++ (u ++ v)) tail := by
  intro s contextId hs hpos hr hend
  have closed : Closed (position.advanceAll (w ++ g)).column
      ((position.advanceAll (w ++ g)).advanceAll u) (v ++ tail) := by
    rcases hrows.cases with ⟨rfl, rfl⟩ | ⟨hcol', -⟩
    · rw [List.append_nil, Position.advanceAll_append] at hend
      exact hend.mono (Nat.le_of_lt hcol)
    · exact .inr (hcol' ▸ hk')
  have hr' : (s.withReference s.position).rest = w ++ g ++ (u ++ (v ++ tail)) :=
    hr.trans (by simp only [List.append_assoc])
  have later : (position.advanceAll (w ++ g)).line ≠ position.line :=
    Nat.ne_of_gt (Position.line_lt_advanceAll (List.mem_append_right _ hline) _)
  have target : Runs (bindingTarget (Source.context ids))
      ((s.withReference s.position).pass (w ++ g)) u (v ++ tail) tree.size
      ⟨tree.target, .ofList (tree.writes ids s.drawn)⟩ := by
    subst hpos
    exact runs_target_below (State.Sound.pass (s := s.withReference s.position) hs hr')
      (State.rest_pass hr') later hcol h closed
  rw [← buildRoleBinding_defined, Branch.size]
  exact runs_roleBindingWith (runs_bindingWith harrow hg hk hrows hs hpos hr hend target)

end Branches

section Rows

variable {branch : Branch} {branches : List Branch}

theorem branchesRead_nil : BranchesRead ids k position [] [] tail := by
  intro s contextId c hs hpos hr hcol hc hend
  have htail : tail = s.rest := hr.symm
  subst htail
  refine .rounds_nil hs ?_
  rcases hend with hnil | hle
  · exact .inr (hnil ▸ (refuses_bindingWith_nil _).bind)
  · rw [Position.advanceAll_nil, ← hpos] at hle
    exact .inl (by omega)

theorem ne_nil_of_branchLines {plain : String → Prop}
    (h : BranchLines plain position branch w tail) : w ≠ [] := by
  cases h with
  | named harrow =>
    cases harrow
    simp
  | defined harrow =>
    cases harrow
    simp

theorem branchesRead_cons {plain : String → Prop} (hk : position.column = k)
    (hline : BranchLines plain position branch v (w ++ tail))
    (hrows : BranchRows plain k (position.advanceAll v) branches w tail)
    (h : BranchRead ids position branch v (w ++ tail))
    (h' : BranchesRead ids k (position.advanceAll v) branches w tail) :
    BranchesRead ids k position (branch :: branches) (v ++ w) tail := by
  intro s contextId c hs hpos hr hcol hc hend
  rw [Position.advanceAll_append] at hend
  have hr' : s.rest = v ++ (w ++ tail) := by rw [hr, List.append_assoc]
  have closed : Closed position.column (position.advanceAll v) (w ++ tail) := by
    rcases branchRows_cases hrows with ⟨rfl, rfl⟩ | ⟨hnext, -⟩
    · exact hend.mono (by omega)
    · exact .inr (by omega)
  rw [Branch.sizes, Branch.collections]
  refine .rounds_cons hs (ne_nil_of_branchLines hline) (by rw [hpos, hk, hcol])
    (h s.checkpoint contextId hs hpos hr' closed) fun t ht => ?_
  rw [← ht.drawn]
  exact h' t contextId c ht.sound (by rw [ht.position, hpos]) ht.rest (ht.column.trans hcol) hc hend

end Rows

section Trees

mutual

theorem TreeLines.read {position : Position} {tree : Tree} {w tail : List Char}
    (h : TreeLines Unambiguous position tree w tail) : TreeRead ids position tree w tail :=
  match h with
  | .context hh hk hpub hpriv hrows => treeRead_context hh hk hpub hpriv hrows hrows.read
  | .role hh hk hrows => treeRead_role hh hk hrows

theorem BranchLines.read {position : Position} {branch : Branch} {w tail : List Char}
    (h : BranchLines Unambiguous position branch w tail) : BranchRead ids position branch w tail :=
  match h with
  | .named harrow hg hy he hk hrows => branchRead_named harrow hg hy he hk hrows
  | .defined harrow hg hline hcol htree hk hk' hrows =>
    branchRead_defined harrow hg hline hcol htree.read hk hk' hrows

theorem BranchRows.read {k : Nat} {position : Position} {branches : List Branch}
    {w tail : List Char} (h : BranchRows Unambiguous k position branches w tail) :
    BranchesRead ids k position branches w tail :=
  match h with
  | .nil => branchesRead_nil
  | .cons hk hline hrows => branchesRead_cons hk hline hrows hline.read hrows.read

end

end Trees

end ContextRoles.Source
