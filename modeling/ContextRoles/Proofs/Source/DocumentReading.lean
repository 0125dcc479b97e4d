import ContextRoles.Proofs.Source.Coherence
import ContextRoles.Proofs.Source.TreeReading
import ContextRoles.Source.Reading

/-! # Documents are read as they are laid out

A source that lays out a definition, alone or with others below a header, is read to the end. What is
read is exactly what the definitions say, whatever the layout, and as many ids are drawn as roles are
bound.
-/

namespace ContextRoles.Source

open Parsing Lexeme
open ContextRoles.Parsing.Parser hiding some

variable {ids : Nat → String} {position : Position} {k drawn : Nat} {header : TypeDeclaration}
  {x : String} {tree : Tree} {trees : List Tree} {e g g' rest tail text v w : List Char} {s : State}

section Definitions

theorem refuses_context_nil : Refuses (context ids) [] := by
  intro s hs hr
  rw [context_eq ids hs]
  exact (Refuses.withPosition (Refuses.withPosition refuses_instanceName_nil.bind).bind) s hs hr

theorem refuses_definition_nil : Refuses (definition ids) [] :=
  refuses_context_nil.furthest_pair
    (Refuses.withPosition (Refuses.withPosition refuses_instanceName_nil.bind).bind)

theorem treeLines_head {plain : String → Prop} (h : TreeLines plain position tree w tail) :
    ∃ x r, Spells instanceName x ∧ w = x.toList ++ r := by
  cases h with
  | context hh =>
    cases hh with
    | mk hx => exact ⟨_, _, hx, by simp only [List.append_assoc]; rfl⟩
  | role hh =>
    cases hh with
    | mk hx => exact ⟨_, _, hx, by simp only [List.append_assoc]; rfl⟩

theorem ne_nil_of_treeLines {plain : String → Prop} (h : TreeLines plain position tree w tail) :
    w ≠ [] := by
  obtain ⟨x, r, hx, rfl⟩ := treeLines_head h
  exact List.append_ne_nil_of_left_ne_nil (ne_nil_of_isName hx.instanceName) r

variable (ids) in
def treeCollections (n : Nat) : List Tree → List Collection
  | [] => []
  | tree :: trees => tree.collection ids n :: treeCollections (n + tree.size) trees

theorem mergeAll_treeCollections (n : Nat) (trees : List Tree) :
    OrderedMap.mergeAll ((treeCollections ids n trees).map Collection.entities) =
      .ofList (allTreeWrites ids n trees) := by
  have flat : ∃ xs : List (List (String × Entity)),
      (treeCollections ids n trees).map Collection.entities = xs.map OrderedMap.ofList ∧
        xs.flatten = allTreeWrites ids n trees := by
    induction trees generalizing n with
    | nil => exact ⟨[], rfl, rfl⟩
    | cons tree trees ih =>
      obtain ⟨xs, hxs, hflat⟩ := ih (n + tree.size)
      exact ⟨tree.writes ids n :: xs, congrArg (_ :: ·) hxs, congrArg (_ ++ ·) hflat⟩
  obtain ⟨xs, hxs, hflat⟩ := flat
  rw [hxs, OrderedMap.mergeAll_ofList, hflat]

theorem runs_trees (h : Rows (TreeLines Unambiguous) k position trees w []) (hs : s.Sound)
    (hpos : s.position = position) (hr : s.rest = w) (hcol : s.reference.column = k) :
    Runs (rounds (definition ids)) s w [] (allTreeSize trees)
      (treeCollections ids s.drawn trees) := by
  generalize htail : ([] : List Char) = tail at h
  induction h generalizing s with
  | nil =>
    subst htail
    have stop := Runs.rounds_nil (p := definition ids) hs (.inr (hr ▸ refuses_definition_nil))
    rwa [hr] at stop
  | @cons position tree trees v w tail hk htree hrows ih =>
    subst htail
    have hr' : s.rest = v ++ (w ++ []) := by rw [hr, List.append_nil]
    have closed : Closed position.column (position.advanceAll v) (w ++ []) := by
      rcases hrows.cases with ⟨rfl, rfl⟩ | ⟨hnext, -⟩
      · exact .inl rfl
      · exact .inr (by omega)
    refine .rounds_cons hs (ne_nil_of_treeLines htree) (by rw [hpos, hk, hcol])
      (htree.read s.checkpoint.checkpoint hs hpos hr' closed).definition fun t ht => ?_
    rw [← ht.drawn]
    exact ih ht.sound (by rw [ht.position, hpos]) (ht.rest.trans (List.append_nil w))
      (ht.column.trans hcol) rfl

end Definitions

section Documents

theorem not_prefix_text {first : Char → Bool} (hx : IsName first x) :
    ¬ "Text".toList <+: x.toList ++ text := by
  have head : 'T' ∉ x.toList.head? := by
    obtain ⟨y, z, rfl, ⟨c, w, hy, -, -⟩ | ⟨w, hy, hw⟩ | hy, -⟩ := hx
    · simp [hy]
    · cases w with
      | nil => simp [hy]
      | cons d w =>
        have hd := hw d List.mem_cons_self
        rw [String.toList_append, hy]
        rintro ⟨⟩
        exact absurd hd (by decide +kernel)
    · simp [hy]
  rintro ⟨r, hr⟩
  have hne := ne_nil_of_isName hx
  cases hchars : x.toList with
  | nil => exact hne hchars
  | cons d l =>
    rw [hchars] at hr head
    obtain rfl : 'T' = d := by simpa using congrArg List.head? hr
    exact head rfl

theorem refuses_text {first : Char → Bool} (hx : IsName first x) :
    Refuses (Source.text ids) (x.toList ++ text) :=
  (refuses_reserved (not_prefix_text hx)).bind.bind.withPosition

theorem reads_endOfDefinition : Reads endOfDefinition [] [] () := reads_endOfInput.alt_left

theorem runs_lone (hg : Gap g w) (h : TreeLines Unambiguous (s.position.advanceAll g) tree w [])
    (hs : s.Sound) (hr : s.rest = g ++ w) :
    Runs (sourceFile ids) s (g ++ w) [] tree.size (tree.collection ids s.drawn) := by
  have hr' : s.rest = g ++ (w ++ []) := by rw [hr, List.append_nil]
  rw [← List.append_nil w] at hg
  refine Runs.bind_zero (hg.reads.runs hs hr' trivial) fun t ht => ?_
  have hrest : t.rest = w := ht.rest.trans (List.append_nil w)
  obtain ⟨x, r, hx, hw⟩ := treeLines_head h
  have refused : RefusesAt ((Source.text ids).skip endOfInput) t.checkpoint :=
    (refuses_text hx.instanceName).bind.refusesAt ht.sound (hrest.trans hw)
  have defined : Runs (definition ids) t.checkpoint w [] tree.size (tree.collection ids t.drawn) :=
    (h.read t.checkpoint.checkpoint ht.sound ht.position ht.rest (.inl rfl)).definition
  have hdrawn : t.drawn = s.drawn := ht.drawn
  rw [← hdrawn]
  exact .alt_right refused (defined.skip reads_endOfDefinition)

theorem reads_title (hg : Space g (x.toList ++ e ++ w))
    (hstop : Stops isWordChar (g ++ (x.toList ++ e ++ w))) (hx : Spells instanceName x)
    (he : LineBreak e w) :
    Reads ((language.reserved "Text").then_ instanceName) ("Text".toList ++ g ++ (x.toList ++ e)) w
      x := by
  have keyword : Reads (language.reserved "Text") ("Text".toList ++ g) (x.toList ++ e ++ w) "Text" :=
    reads_reserved (by decide) hg.gap hstop
  exact keyword.then_ (reads_instanceName hx.instanceName he.gap he.stops_name)

theorem runs_text {d : Nat} {cs : List Collection}
    (title : Reads ((language.reserved "Text").then_ instanceName) v w x) (hs : s.Sound)
    (hr : s.rest = v ++ w)
    (h : ∀ t, s.Behind v w 0 t →
      Runs (rounds (definition ids)) (t.withReference t.position) w [] d cs) :
    Runs (Source.text ids) s (v ++ w) [] d (buildText x cs) := by
  have headed : Runs ((language.reserved "Text").then_ instanceName)
      (s.withReference s.position) v (w ++ []) 0 x := by
    rw [List.append_nil]
    exact title.runs hs hr trivial
  refine Runs.withPosition (headed.bind_zero fun t ht =>
    Runs.bind_pure (Runs.withPosition ?_) (buildText x))
  rw [List.append_nil] at ht
  exact h (t.withReference s.reference) ht.restore

theorem runs_sourceFile {d : Nat} {cs : List Collection} (hg : Gap g (v ++ w))
    (title : Reads ((language.reserved "Text").then_ instanceName) v w x) (hs : s.Sound)
    (hr : s.rest = g ++ v ++ w)
    (h : ∀ t, s.Behind (g ++ v) w 0 t →
      Runs (rounds (definition ids)) (t.withReference t.position) w [] d cs) :
    Runs (sourceFile ids) s (g ++ v ++ w) [] d (buildText x cs) := by
  rw [List.append_assoc] at hr ⊢
  have skipped : Runs language.whiteSpace s g (v ++ w ++ []) 0 () := by
    rw [List.append_nil]
    exact hg.reads.runs hs hr trivial
  refine Runs.bind_zero skipped fun t ht => .alt_left (Runs.skip ?_ reads_endOfInput)
  rw [List.append_nil] at ht
  exact runs_text (s := t.checkpoint) title ht.sound ht.rest fun u hu =>
    h u (ht.trans (State.Behind.of_checkpoint hu))

theorem runs_titled (hg : Gap g ("Text".toList ++ (g' ++ (x.toList ++ (e ++ w)))))
    (hg' : Space g' (x.toList ++ (e ++ w))) (hstop : Stops isWordChar (g' ++ (x.toList ++ (e ++ w))))
    (hx : Spells instanceName x) (he : LineBreak e w)
    (h : Rows (TreeLines Unambiguous) k
      (s.position.advanceAll (g ++ ("Text".toList ++ (g' ++ (x.toList ++ e))))) trees w [])
    (hs : s.Sound) (hr : s.rest = g ++ ("Text".toList ++ (g' ++ (x.toList ++ e))) ++ w) :
    Runs (sourceFile ids) s (g ++ ("Text".toList ++ (g' ++ (x.toList ++ e))) ++ w) []
      (allTreeSize trees) ⟨localName x, .ofList (allTreeWrites ids s.drawn trees)⟩ := by
  rw [← List.append_assoc x.toList] at hg' hstop
  have title := reads_title hg' hstop hx he
  rw [List.append_assoc "Text".toList] at title
  have hbehind : "Text".toList ++ (g' ++ (x.toList ++ (e ++ w))) =
      "Text".toList ++ (g' ++ (x.toList ++ e)) ++ w := by simp only [List.append_assoc]
  rw [hbehind] at hg
  rw [← mergeAll_treeCollections]
  refine runs_sourceFile hg title hs hr fun t ht => ?_
  rw [← ht.position] at h
  have aligned : Rows (TreeLines Unambiguous) t.position.column t.position trees w [] := by
    rcases h.cases with ⟨rfl, rfl⟩ | ⟨hcol, -⟩
    · exact .nil
    · rwa [hcol]
  have hdrawn : t.drawn = s.drawn := ht.drawn
  rw [← hdrawn]
  exact runs_trees (s := t.withReference t.position) aligned ht.sound rfl ht.rest rfl

/-- A source that lays out a document is read as what the document says. -/
theorem read_documentText {document : Document} {source : String}
    (h : DocumentText Unambiguous document source.toList) :
    read ids drawn source =
      ⟨.ok (document.collection ids drawn).linkFilledRoles, drawn + document.size⟩ := by
  have sound : ({ State.start source with drawn } : State).Sound := State.sound_start source
  have run : Runs (sourceFile ids) { State.start source with drawn } source.toList [] document.size
      (document.collection ids drawn) := by
    generalize hchars : source.toList = chars at h
    cases h with
    | lone hg htree => exact runs_lone hg htree sound hchars
    | titled hg hg' hstop hx he hrows => exact runs_titled hg hg' hstop hx he hrows sound hchars
  obtain ⟨t, ht, hb⟩ := run
  have hdrawn : t.drawn = drawn + document.size := hb.drawn
  rw [read, ht]
  exact congrArg _ hdrawn

/-- A context that is defined where it is bound. -/
def nested : Tree :=
  .context ⟨":A", "$B"⟩ [⟨":p", .integer 1⟩] []
    [.defined ":r" none (.context ⟨":C", "$D"⟩ [] [] [.named ":s" none ":X" []])
      [⟨":q", .truth true⟩]]

def nestedSource : String :=
  ":A $B\n  public :p = 1\n  :r =>\n     :C $D\n      :s => :X\n   :q = true\n"

theorem space_of_blank (h : Solid rest) : Space [' '] rest := ⟨.of_blanks h (by decide), by decide⟩

theorem isName_of_pair {first : Char → Bool} {c d : Char} (hx : x.toList = [d, c])
    (hd : d = ':' ∨ d = '$') (hc : first c = true) : IsName first x := by
  refine ⟨.singleton d, .singleton c, ?_, .inr ?_, c, [], by simp, hc, nofun⟩
  · rw [← String.toList_inj, hx]
    simp
  · rcases hd with rfl | rfl
    · exact .inl ⟨[], by simp, nofun⟩
    · exact .inr (by simp)

theorem unambiguous_of_colon (h : x.toList.head? = some ':') : Unambiguous x := by
  constructor <;>
  · rintro ⟨rest, hx, -⟩
    rw [hx] at h
    exact absurd h (by simp)

theorem spells_property {c : Char} (hx : x.toList = [':', c]) (hc : Text.isLowercase c = true) :
    Spells propertyName x ∧ Unambiguous x :=
  ⟨spells_propertyName (isName_of_pair hx (.inl rfl) hc), unambiguous_of_colon (by simp [hx])⟩

theorem treeLines_inner : TreeLines Unambiguous ⟨4, 6⟩
    (.context ⟨":C", "$D"⟩ [] [] [.named ":s" none ":X" []])
    ":C $D\n      :s => :X\n   ".toList ":q = true\n".toList := by
  have header : HeaderLine ⟨":C", "$D"⟩ ":C $D\n      ".toList
      ":s => :X\n   :q = true\n".toList :=
    .mk (x := ":C") (y := "$D") (g := [' ']) (e := "\n      ".toList)
      (spells_instanceName (isName_of_pair rfl (.inl rfl) (by decide)))
      (spells_resourceName (isName_of_pair rfl (.inr rfl) (by decide)))
      (space_of_blank (by decide)) (by decide) ⟨.of_blanks (by decide) (by decide), .inl (by decide)⟩
  have arrow : ArrowText (fun x => Spells propertyName x ∧ Unambiguous x) ":s" none
      ":s =>".toList " :X\n   :q = true\n".toList :=
    .mk (x := ":s") (g := [' ']) (o := []) (spells_property rfl (by decide))
      (space_of_blank (by decide)) .none (by decide)
  have branch : BranchLines Unambiguous ⟨5, 7⟩ (.named ":s" none ":X" []) ":s => :X\n   ".toList
      ":q = true\n".toList :=
    .named (k := 8) (y := ":X") (w := ":s =>".toList) (g := [' ']) (e := "\n   ".toList) (v := [])
      arrow (space_of_blank (by decide))
      (spells_instanceName (isName_of_pair rfl (.inl rfl) (by decide)))
      ⟨.of_blanks (by decide) (by decide), .inl (by decide)⟩ (by decide) .nil
  have text : ":C $D\n      :s => :X\n   ".toList =
      ":C $D\n      ".toList ++ ([] ++ ([] ++ (":s => :X\n   ".toList ++ []))) := by decide
  rw [text]
  exact .context (k := 7) header (by decide) .nil .nil (.cons rfl branch .nil)

def nestedBranch : List Char :=
  ":r =>".toList ++ "\n     ".toList ++
    (":C $D\n      :s => :X\n   ".toList ++ (":q = true\n".toList ++ []))

theorem treeLines_nested : TreeLines Unambiguous {} nested nestedSource.toList [] := by
  have header : HeaderLine ⟨":A", "$B"⟩ ":A $B\n  ".toList
      ("public :p = 1\n  ".toList ++ nestedBranch) :=
    .mk (x := ":A") (y := "$B") (g := [' ']) (e := "\n  ".toList)
      (spells_instanceName (isName_of_pair rfl (.inl rfl) (by decide)))
      (spells_resourceName (isName_of_pair rfl (.inr rfl) (by decide)))
      (space_of_blank (by decide)) (by decide) ⟨.of_blanks (by decide) (by decide), .inl (by decide)⟩
  have publicLine : KeywordLine "public" ⟨":p", .integer 1⟩ "public :p = 1\n  ".toList
      nestedBranch :=
    .mk (g := [' ']) (w := ":p = 1\n  ".toList) (space_of_blank (by decide)) (by decide)
      (.mk (x := ":p") (y := "1") (g := [' ']) (e := "\n  ".toList)
        (by decide +kernel) (space_of_blank (by decide)) (space_of_blank (by decide)) (by decide)
        (by decide +kernel) (.of_blanks (by decide) (by decide)) (by simp [EndsLine]))
  have arrow : ArrowText (fun x => Spells propertyName x ∧ Unambiguous x) ":r" none
      ":r =>".toList ("\n     ".toList ++
        (":C $D\n      :s => :X\n   ".toList ++ (":q = true\n".toList ++ [] ++ []))) :=
    .mk (x := ":r") (g := [' ']) (o := []) (spells_property rfl (by decide))
      (space_of_blank (by decide)) .none (by decide)
  have property : PropertyLine (Spells propertyName) ⟨":q", .truth true⟩ ":q = true\n".toList [] :=
    .mk (x := ":q") (y := "true") (g := [' ']) (e := "\n".toList)
      (spells_property rfl (by decide)).1 (space_of_blank (by decide)) (space_of_blank (by decide))
      (by decide) (by decide +kernel) (.of_blanks (by decide) (by decide)) (by simp [EndsLine])
  have branch : BranchLines Unambiguous ⟨3, 3⟩
      (.defined ":r" none (.context ⟨":C", "$D"⟩ [] [] [.named ":s" none ":X" []])
        [⟨":q", .truth true⟩]) nestedBranch [] :=
    .defined (k := 4) arrow (.of_blanks (by decide) (by decide)) (by decide) (by decide)
      treeLines_inner (by decide) (by decide) (.cons rfl property .nil)
  have text : nestedSource.toList =
      ":A $B\n  ".toList ++ ("public :p = 1\n  ".toList ++ [] ++ ([] ++ (nestedBranch ++ []))) := by
    decide
  rw [text]
  exact .context (k := 3) header (by decide) (.cons rfl publicLine .nil) .nil (.cons rfl branch .nil)

theorem read_documentText_nested :
    DocumentText Unambiguous (.lone nested) nestedSource.toList ∧
    read tally 0 nestedSource =
      ⟨.ok ((Document.lone nested).collection tally 0).linkFilledRoles, 2⟩ := by
  have layout : DocumentText Unambiguous (.lone nested) nestedSource.toList :=
    .lone (g := []) (.nil (by decide)) treeLines_nested
  exact ⟨layout, read_documentText layout⟩

theorem headerLine_rol (hw : Solid w) : HeaderLine ⟨":a", ":B"⟩ ":a :B\n  ".toList w :=
  .mk (x := ":a") (y := ":B") (g := [' ']) (e := "\n  ".toList)
    (spells_instanceName (isName_of_pair rfl (.inl rfl) (by decide)))
    (spells_resourceName (isName_of_pair rfl (.inl rfl) (by decide)))
    (space_of_blank (solid_iff.mpr ⟨by rintro _ ⟨⟩; decide, by simp, by simp⟩))
    (by rintro _ ⟨⟩; decide) ⟨.of_blanks hw (by decide), .inl (by decide)⟩

theorem propertyLine_one {names : String → Prop} (hx : names x) :
    PropertyLine names ⟨x, .integer 1⟩ (x.toList ++ " = 1\n".toList) [] := by
  have space : Space [' '] ("1".toList ++ ("\n".toList ++ [])) := space_of_blank (by decide)
  exact .mk (g := [' ']) hx (space_of_blank (by decide)) space (by decide) (by decide +kernel)
    (.of_blanks (by decide) (by decide)) (by simp [EndsLine])

/-- The prefix of the property is a word with a small character behind it that goes on in no word. -/
def circled : Tree := .role ⟨":a", ":B"⟩ ⟨"publicⓐ:c", .integer 1⟩ []

def circledSource : String := ":a :B\n  publicⓐ:c = 1\n"

/-- It is not enough that no name has a keyword for its prefix: what the name begins with is taken for
the keyword, and the rest of it for the name of a public property. -/
theorem not_read_documentText_circled :
    DocumentText (fun x => ¬ "public:".toList <+: x.toList ∧ ¬ "private:".toList <+: x.toList)
      (.lone circled) circledSource.toList ∧
    (read tally 0 circledSource).result.toOption =
      some ⟨"a", .ofList [("a_buitenRol", .role (outerRole "a" [⟨"ⓐ:c", .integer 1⟩])),
        ("a", .context (contextEntity ⟨":a", ":B"⟩ [] []))]⟩ ∧
    (read tally 0 circledSource).result.toOption ≠
      some ((Document.lone circled).collection tally 0).linkFilledRoles := by
  refine ⟨?_, by decide +kernel, by decide +kernel⟩
  have property : PropertyLine (fun x => Spells propertyName x ∧
      ¬ "public:".toList <+: x.toList ∧ ¬ "private:".toList <+: x.toList)
      ⟨"publicⓐ:c", .integer 1⟩ "publicⓐ:c = 1\n".toList [] :=
    propertyLine_one (x := "publicⓐ:c") (by decide +kernel)
  have text : circledSource.toList =
      [] ++ (":a :B\n  ".toList ++ ("publicⓐ:c = 1\n".toList ++ [])) := by decide
  rw [text]
  exact .lone (.nil (by decide)) (.role (k := 3) (headerLine_rol (by decide)) (by decide)
    (.cons rfl property .nil))

end Documents

end ContextRoles.Source
