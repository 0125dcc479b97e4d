import ContextRoles.Proofs.Model.Recording
import ContextRoles.Proofs.Source.DocumentReading
import ContextRoles.Proofs.Source.Weaving
import Mathlib.Data.List.Induction

/-! # Names with a namespace in a body

A line of a body is tried with the keywords of a context first, then as a binding and last as the
property of a role. A name whose namespace begins with no keyword gets through to the rule that it is
meant for, and is kept in full. The namespaces `public:` and `private:` are keywords in front of a name
without letters before its colon.
-/

namespace ContextRoles.Source

open Parsing Lexeme
open ContextRoles.Parsing.Parser hiding some

variable {ids : Nat → String} {drawn : Nat} {p x y : String} {text : List Char}

/-- Small letters and a colon. -/
def IsPrefix (p : String) : Prop :=
  ∃ w, p.toList = w ++ [':'] ∧ ∀ d ∈ w, Text.isLowercase d = true

/-- A property name that is made of a prefix and a local name. -/
def Forms (p x : String) : Prop := ∃ z, x = p ++ z ∧ IsLocal Text.isLowercase z

section Names

theorem Forms.isName (hp : IsPrefix p) (h : Forms p x) : IsName Text.isLowercase x :=
  have ⟨z, hx, hz⟩ := h
  ⟨p, z, hx, .inr (.inl hp), hz⟩

theorem ledBy_of_append {word z : String} (hp : IsPrefix p) (hw : IsWord word)
    (h : LedBy word (p ++ z)) : LedBy word p := by
  obtain ⟨w, hpw, -⟩ := hp
  obtain ⟨rest, hrest, hstop⟩ := h
  have colon : ':' ∉ word.toList := fun hm => absurd (hw ':' hm) (by decide)
  rw [String.toList_append] at hrest
  have hlong : word.toList <+: p.toList ++ z.toList := ⟨rest, hrest.symm⟩
  rcases List.prefix_or_prefix_of_prefix hlong (List.prefix_append _ _) with ⟨r, hr⟩ | hshort
  · have hne : r ≠ [] := by
      rintro rfl
      rw [List.append_nil] at hr
      exact colon (by rw [hr, hpw]; exact List.mem_append_right w (List.mem_singleton_self _))
    rw [← hr, List.append_assoc, List.append_cancel_left_eq] at hrest
    refine ⟨r, hr.symm, fun c hc => hstop c ?_⟩
    rw [← hrest, List.head?_append_of_ne_nil _ hne]
    exact hc
  · refine absurd (hshort.subset ?_) colon
    rw [hpw]
    exact List.mem_append_right w (List.mem_singleton_self _)

theorem Forms.unambiguous (hp : IsPrefix p) (hfree : Unambiguous p) (h : Forms p x) :
    Unambiguous x := by
  obtain ⟨z, rfl, -⟩ := h
  exact ⟨fun hled => hfree.1 (ledBy_of_append hp (by simp [IsWord]; decide) hled),
    fun hled => hfree.2 (ledBy_of_append hp (by simp [IsWord]; decide) hled)⟩

theorem ledBy_iff {word : String} {w : List Char} (hword : IsWord word) (hpw : p.toList = w ++ [':'])
    (hw : ∀ d ∈ w, isWordChar d = true) : LedBy word p ↔ p = word ++ ":" := by
  constructor
  · rintro ⟨rest, hrest, hstop⟩
    rw [hpw] at hrest
    have colon : ':' ∉ word.toList := fun hm => absurd (hword ':' hm) (by decide)
    rw [← String.toList_inj, hpw, String.toList_append]
    rcases List.append_eq_append_iff.mp hrest with ⟨r, hr, hr'⟩ | ⟨r, hr, hr'⟩
    · cases r with
      | nil => rw [hr, List.append_nil]; rfl
      | cons c r =>
        obtain rfl : ':' = c := (List.cons.inj hr').1
        exact absurd (by rw [hr]; simp) colon
    · cases r with
      | nil => rw [hr, List.append_nil]; rfl
      | cons c r =>
        have hc := hw c (by rw [hr]; simp)
        rw [hr'] at hstop
        exact absurd (hstop c rfl) (by simp [hc])
  · rintro rfl
    refine ⟨[':'], by simp, ?_⟩
    rintro c ⟨⟩
    decide

theorem unambiguous_of_letters {w : List Char} (hpw : p.toList = w ++ [':'])
    (hw : ∀ d ∈ w, isWordChar d = true) : Unambiguous p ↔ p ≠ "public:" ∧ p ≠ "private:" := by
  rw [Unambiguous, ledBy_iff (by simp [IsWord]; decide) hpw hw,
    ledBy_iff (by simp [IsWord]; decide) hpw hw]
  rfl

end Names

section Properties

/-- The values that a list gives to a property, in its order. -/
def valuesOf (name : String) (properties : List Property) : List String :=
  (properties.filter (·.name == name)).map (·.value.render)

theorem get?_collect (name : String) (properties : List Property) :
    (collect (properties.map Property.rendered)).get? name =
      if valuesOf name properties = [] then none else some (valuesOf name properties) := by
  induction properties using List.reverseRecOn with
  | nil => rfl
  | append_singleton l a ih =>
    have last : collect ((l ++ [a]).map Property.rendered) =
        (collect (l.map Property.rendered)).insert a.name
          (((collect (l.map Property.rendered)).get? a.name).getD [] ++ [a.value.render]) := by
      simp [collect, Property.rendered]
    rw [last]
    by_cases h : name = a.name
    · subst h
      rw [OrderedMap.get?_insert_self, ih]
      have values : valuesOf a.name (l ++ [a]) = valuesOf a.name l ++ [a.value.render] := by
        simp [valuesOf]
      rw [values]
      by_cases hnil : valuesOf a.name l = [] <;> simp [hnil]
    · rw [OrderedMap.get?_insert_of_ne h, ih]
      have values : valuesOf name (l ++ [a]) = valuesOf name l := by
        simp [valuesOf, Ne.symm h]
      rw [values]

end Properties

section Lines

variable {names names' : String → Prop} {w tail : List Char}

theorem PropertyLine.mono {a : Property} (h : PropertyLine names a w tail)
    (hn : ∀ x, names x → names' x) : PropertyLine names' a w tail := by
  obtain ⟨hx, hg, hg', hstop, hy, he, hends⟩ := h
  exact .mk (hn _ hx) hg hg' hstop hy he hends

theorem ArrowText.mono {n : Option Nat} (h : ArrowText names x n w tail)
    (hn : ∀ x, names x → names' x) : ArrowText names' x n w tail := by
  obtain ⟨hx, hg, ho, hstop⟩ := h
  exact .mk (hn _ hx) hg ho hstop

theorem Rows.mono {α : Type} {line line' : Position → α → List Char → List Char → Prop} {k : Nat}
    {position : Position} {as : List α} (h : Rows line k position as w tail)
    (hline : ∀ position a v tail, line position a v tail → line' position a v tail) :
    Rows line' k position as w tail := by
  induction h with
  | nil => exact .nil
  | cons hk hrow _ ih => exact .cons hk (hline _ _ _ _ hrow) ih

end Lines

section Readings

theorem read_of_runs {source : String} {c : Collection} {d : Nat}
    (h : Runs (sourceFile ids) { State.start source with drawn } source.toList [] d c) :
    read ids drawn source = ⟨.ok c.linkFilledRoles, drawn + d⟩ := by
  obtain ⟨t, ht, hb⟩ := h
  have hdrawn : t.drawn = drawn + d := hb.drawn
  rw [read, ht]
  exact congrArg _ hdrawn

def bindingContext (id : String) (header : TypeDeclaration) (x y : String) : Collection :=
  ⟨localName header.instanceName, .ofList
    [(id, .role (boundRole id (localName header.instanceName) x (localName y) none [])),
      (outerRoleId (localName header.instanceName),
        .role (outerRole (localName header.instanceName) [])),
      (localName header.instanceName, .context (contextEntity header [] [id]))]⟩

theorem get?_bindingContext {id : String} {header : TypeDeclaration}
    (hh : Hyphenless (localName header.instanceName)) (hid : ¬ Hyphenless id) :
    (bindingContext id header x y).entities.get? id =
        some (.role (boundRole id (localName header.instanceName) x (localName y) none [])) ∧
      ∀ key c, (bindingContext id header x y).entities.get? key = some (.context c) ↔
        key = localName header.instanceName ∧ c = contextEntity header [] [id] := by
  have hcontext : id ≠ localName header.instanceName := fun h => hid (h ▸ hh)
  have houter : id ≠ outerRoleId (localName header.instanceName) := by
    intro h
    exact hid (h ▸ hh.append (by decide))
  have lookup (key : String) : (bindingContext id header x y).entities.get? key =
      if key = localName header.instanceName then some (.context (contextEntity header [] [id]))
      else if key = outerRoleId (localName header.instanceName) then
        some (.role (outerRole (localName header.instanceName) []))
      else if key = id then
        some (.role (boundRole id (localName header.instanceName) x (localName y) none []))
      else none := by
    change (OrderedMap.insert (OrderedMap.insert (OrderedMap.insert .empty _ _) _ _) _ _).get? key = _
    simp only [OrderedMap.get?_insert, OrderedMap.get?_empty]
  constructor
  · rw [lookup, if_neg hcontext, if_neg houter, if_pos rfl]
  · intro key c
    rw [lookup]
    by_cases hkey : key = localName header.instanceName
    · simp [hkey, eq_comm]
    · simp only [hkey, if_false, false_and, iff_false]
      split
      · exact nofun
      · split <;> exact nofun

theorem exists_boundRole {id : String} {header : TypeDeclaration}
    (hh : Hyphenless (localName header.instanceName)) (hid : ¬ Hyphenless id) :
    (∀ key c, (bindingContext id header x y).linkFilledRoles.entities.get? key =
        some (.context c) ↔ key = localName header.instanceName ∧ c = contextEntity header [] [id]) ∧
      ∃ r, (bindingContext id header x y).linkFilledRoles.entities.get? id = some (.role r) ∧
        r.typeName = x ∧ r.binding = some (localName y) ∧
          r.context = localName header.instanceName := by
  obtain ⟨hrole, hcontext⟩ := get?_bindingContext (x := x) (y := y) hh hid
  have linked := Collection.unlinked_linkFilledRoles (bindingContext id header x y)
  refine ⟨fun key c => (Collection.context_unlinked linked key c).trans (hcontext key c), ?_⟩
  have bare := Collection.get?_unlinked linked id
  rw [hrole] at bare
  obtain ⟨e, he, same⟩ := Option.map_eq_some_iff.mp bare
  cases e with
  | context c => cases same
  | role r =>
    have same := Entity.role.inj same
    exact ⟨r, he, (congrArg Role.typeName same :), (congrArg Role.binding same :),
      (congrArg Role.context same :)⟩

theorem treeLines_named {header : TypeDeclaration} {a e g' h w : List Char} {k : Nat}
    {position : Position} (hh : HeaderLine header h w) (hk : position.column < k)
    (hw : w = a ++ g' ++ (y.toList ++ e)) (hcol : (position.advanceAll h).column = k)
    (harrow : ArrowText (fun x => Spells propertyName x ∧ Unambiguous x) x none a
      (g' ++ (y.toList ++ e)))
    (hg : Space g' (y.toList ++ e)) (hy : Spells instanceName y) (he : LineBreak e []) :
    TreeLines Unambiguous position (.context header [] [] [.named x none y []]) (h ++ w) [] := by
  have line : BranchLines Unambiguous (position.advanceAll h) (.named x none y [])
      (a ++ g' ++ (y.toList ++ e ++ [])) [] :=
    .named (k := k + 1) (by simpa using harrow) (by simpa using hg) hy he
      (by rw [hcol]; exact Nat.lt_succ_self k) .nil
  have row : BranchRows Unambiguous k (position.advanceAll h) [.named x none y []] w [] := by
    rw [hw]
    simpa using BranchRows.cons (w := []) hcol line .nil
  have none (word : String) (q : Position) :
      Rows (fun _ => KeywordLine word) k q [] [] (w ++ []) := .nil
  exact TreeLines.context (by simpa using hh) hk (none "public" _) (none "private" _) row

/-- What names with a prefix that no keyword begins are read as: the properties of a role, under their
full names and with their values in order, and the type of a bound role. -/
theorem read_prefixed (ids : Nat → String) (drawn : Nat) (p : String) (hp : IsPrefix p)
    (hfree : Unambiguous p) (source : String) (header : TypeDeclaration) (g h w : List Char) (k : Nat)
    (hsource : source.toList = g ++ (h ++ w)) (hg : Gap g (h ++ w)) (hh : HeaderLine header h w)
    (hk : (Position.advanceAll {} g).column < k) :
    (∀ first others,
      Rows (fun _ => PropertyLine (Forms p)) k (Position.advanceAll {} (g ++ h)) (first :: others)
        w [] →
      read ids drawn source = ⟨.ok ⟨localName header.instanceName, .ofList
        [(localName header.instanceName, .role (loneRole header (first :: others)))]⟩, drawn⟩ ∧
      ∀ name, (loneRole header (first :: others)).properties.get? name =
        if valuesOf name (first :: others) = [] then none
        else some (valuesOf name (first :: others))) ∧
    ∀ x y a g' e, w = a ++ g' ++ (y.toList ++ e) → (Position.advanceAll {} (g ++ h)).column = k →
      ArrowText (Forms p) x none a (g' ++ (y.toList ++ e)) → Space g' (y.toList ++ e) →
      Spells instanceName y → LineBreak e [] → ¬ Hyphenless (ids drawn) →
      ∃ c, read ids drawn source = ⟨.ok c, drawn + 1⟩ ∧ c.name = localName header.instanceName ∧
        (∀ key x, c.entities.get? key = some (.context x) ↔
          key = localName header.instanceName ∧ x = contextEntity header [] [ids drawn]) ∧
        ∃ r, c.entities.get? (ids drawn) = some (.role r) ∧ r.typeName = x ∧
          r.binding = some (localName y) ∧ r.context = localName header.instanceName := by
  have hs : ({ State.start source with drawn } : State).Sound := State.sound_start source
  have laid {tree : Tree}
      (htree : TreeLines Unambiguous (Position.advanceAll {} g) tree (h ++ w) []) :
      read ids drawn source = ⟨.ok (tree.collection ids drawn).linkFilledRoles, drawn + tree.size⟩ :=
    read_of_runs (hsource ▸ runs_lone hg htree hs hsource)
  have plain (x : String) (hx : Forms p x) : Spells propertyName x ∧ Unambiguous x :=
    ⟨spells_propertyName (hx.isName hp), hx.unambiguous hp hfree⟩
  constructor
  · intro first others hrows
    rw [Position.advanceAll_append] at hrows
    have tree : TreeLines Unambiguous (Position.advanceAll {} g) (.role header first others) (h ++ w)
        [] := .role (by rwa [List.append_nil]) hk
      (hrows.mono fun _ _ _ _ hline => hline.mono plain)
    refine ⟨?_, fun name => get?_collect name _⟩
    rw [laid tree]
    rfl
  · intro x y a g' e hw hcol harrow hg' hy he hid
    rw [Position.advanceAll_append] at hcol
    have tree := treeLines_named hh hk hw hcol (harrow.mono plain) hg' hy he
    have written : (Tree.context header [] [] [.named x none y []]).collection ids drawn =
        bindingContext (ids drawn) header x y := by
      simp only [Tree.collection, Tree.writes, Branch.allWrites, Branch.writes, Branch.names, Branch.id]
      rfl
    have hlocal : Hyphenless (localName header.instanceName) := by
      cases hh with
      | mk hx => exact (hx.instanceName.hyphenless (by decide)).localName
    exact ⟨_, (laid tree).trans (by rw [written]; rfl), Collection.name_linkFilledRoles _,
      exists_boundRole hlocal hid⟩

theorem isPrefix_publics : IsPrefix "publics:" :=
  ⟨"publics".toList, by decide, List.all_eq_true.mp (by decide)⟩

theorem forms_of_letter (hx : x = p ++ "c") : Forms p x := ⟨"c", hx, 'c', [], rfl, by decide, nofun⟩

theorem read_prefixed_publics :
    (IsPrefix "publics:" ∧ Unambiguous "publics:" ∧ ¬ Hyphenless (tally 0)) ∧
    read tally 0 ":a :B\n  publics:c = 1\n" =
      ⟨.ok ⟨"a", .ofList [("a", .role (loneRole ⟨":a", ":B"⟩ [⟨"publics:c", .integer 1⟩]))]⟩, 0⟩ ∧
    ∃ c, read tally 0 ":a :B\n  publics:c => :D\n" = ⟨.ok c, 1⟩ ∧
      ∃ r, c.entities.get? "-" = some (.role r) ∧ r.typeName = "publics:c" := by
  have hfree : Unambiguous "publics:" :=
    (unambiguous_of_letters (w := "publics".toList) rfl
      (List.all_eq_true.mp (by decide))).mpr ⟨by decide, by decide⟩
  refine ⟨⟨isPrefix_publics, hfree, by decide⟩, ?_, ?_⟩
  · have rows : Rows (fun _ => PropertyLine (Forms "publics:")) 3
        (Position.advanceAll {} ":a :B\n  ".toList) [⟨"publics:c", .integer 1⟩]
        "publics:c = 1\n".toList [] :=
      .cons (v := "publics:c = 1\n".toList) (w := []) (by decide)
        (propertyLine_one (forms_of_letter rfl)) .nil
    have both := (read_prefixed tally 0 _ isPrefix_publics hfree ":a :B\n  publics:c = 1\n"
      ⟨":a", ":B"⟩ [] ":a :B\n  ".toList "publics:c = 1\n".toList 3 (by decide)
      (.nil (by decide)) (headerLine_rol (by decide)) (by decide)).1 _ []
      rows
    exact both.1
  · have arrow : ArrowText (Forms "publics:") "publics:c" none "publics:c =>".toList
        " :D\n".toList :=
      .mk (x := "publics:c") (g := [' ']) (o := []) (forms_of_letter rfl)
        (space_of_blank (by decide)) .none (by decide)
    obtain ⟨c, hread, -, -, r, hr, htype, -⟩ := (read_prefixed tally 0 _ isPrefix_publics hfree
      ":a :B\n  publics:c => :D\n" ⟨":a", ":B"⟩ [] ":a :B\n  ".toList "publics:c => :D\n".toList 3
      (by decide) (.nil (by decide)) (headerLine_rol (by decide)) (by decide)).2
      "publics:c" ":D" "publics:c =>".toList [' '] "\n".toList (by decide) (by decide) arrow
      (space_of_blank (by decide)) (spells_instanceName (isName_of_pair rfl (.inl rfl) (by decide)))
      ⟨.of_blanks (by decide) (by decide), .inl (by decide)⟩ (by decide)
    exact ⟨c, hread, r, hr, htype⟩

/-- The prefix of a name is taken for the keyword that it begins with. -/
theorem not_read_prefixed_public :
    (IsPrefix "public:" ∧ PropertyLine (Forms "public:") ⟨"public:c", .integer 1⟩
      "public:c = 1\n".toList [] ∧ HeaderLine ⟨":a", ":B"⟩ ":a :B\n  ".toList
      "public:c = 1\n".toList) ∧
    (read tally 0 ":a :B\n  public:c = 1\n").result.toOption =
      some ⟨"a", .ofList [("a_buitenRol", .role (outerRole "a" [⟨":c", .integer 1⟩])),
        ("a", .context (contextEntity ⟨":a", ":B"⟩ [] []))]⟩ ∧
    (read tally 0 ":a :B\n  public:c = 1\n").result.toOption ≠
      some ⟨"a", .ofList [("a", .role (loneRole ⟨":a", ":B"⟩ [⟨"public:c", .integer 1⟩]))]⟩ :=
  ⟨⟨⟨"public".toList, by decide, List.all_eq_true.mp (by decide)⟩,
    propertyLine_one (forms_of_letter rfl), headerLine_rol (by decide)⟩,
    by decide +kernel, by decide +kernel⟩

end Readings

end ContextRoles.Source
