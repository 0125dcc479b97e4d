import ContextRoles.Proofs.Parsing.Blocks
import ContextRoles.Proofs.Parsing.Upholding
import ContextRoles.Proofs.Source.Heading

/-! # Bodies of properties

The body of a role holds properties, and so may that of a context. A context takes the properties whose
names begin with one keyword, and behind them those whose names begin with the other one, for its own,
up to where the role has read them. At any other property it fails, for it takes that one for a binding.
So what a header and properties are read as is settled by their names.
-/

namespace ContextRoles.Parsing.Parser

open State

theorem Steady.drawn_success {α : Type} {p : Parser α} {s t : State} {a : α} (h : Steady p)
    (hr : p s = .success a t) : t.drawn = s.drawn := by
  have hs := h s s.drawn
  rw [redrawn_drawn, hr] at hs
  have ht : t = t.redrawn s.drawn := (Outcome.success.inj hs).2
  rw [ht]
  rfl

theorem Accumulates.checkpoint_success {α : Type} {p : Parser α} {s t : State} {a : α}
    (h : Accumulates p) (hr : p s = .success a t) : ∃ u, p s.checkpoint = .success a u := by
  rw [h.eq_merge s] at hr
  obtain ⟨u, hu, -⟩ := mapState_eq_success.mp hr
  exact ⟨u, hu⟩

theorem FailsAt.of_success {α β : Type} {p : Parser α} {f : α → Parser β} {s t : State} {a : α}
    (h : p s = .success a t) (hd : t.drawn = s.drawn) (h' : FailsAt (f a) t) :
    FailsAt (p.bind f) s := by
  obtain ⟨e, u, hu, hdu⟩ := h'
  exact ⟨e, u, by simp [Parser.bind, h, hu], hdu.trans hd⟩

section Items

variable {α : Type} {item q : Parser α} {column : Nat} {s t : State} {l m : List α}

theorem Items.split (h : Items item column s (l ++ m) t) :
    ∃ u, Items item column s l u ∧ Items item column u m t := by
  induction l generalizing s with
  | nil => exact ⟨s, .nil s, h⟩
  | cons a l ih =>
    cases h with
    | cons hc hr h =>
      obtain ⟨u, hl, hm⟩ := ih h
      exact ⟨u, .cons hc hr hl, hm⟩

theorem Items.reaches (hf : Framed item) (h : Items item column s l t) : s.Reaches t := by
  induction h with
  | nil s => exact .refl s
  | cons _ hr _ ih => exact ((hf.success hr).of_checkpoint.withConsumed true).trans ih

theorem Items.drawn_eq (hp : Steady item) (h : Items item column s l t) : t.drawn = s.drawn := by
  induction h with
  | nil s => rfl
  | cons _ hr _ ih => exact ih.trans (hp.drawn_success hr :)

/-- Items that move the reference to the cursor do not look at the reference before. -/
theorem Items.withReference (r : Position) (h : Items (withPosition q) column s l t) :
    Items (withPosition q) column (s.withReference r) l (t.withReference r) := by
  induction h with
  | nil s => exact .nil _
  | cons hc hr _ ih =>
    obtain ⟨v, hv, rfl⟩ := mapState_eq_success.mp hr
    exact .cons hc (mapState_eq_success.mpr ⟨v, hv, rfl⟩) ih

theorem rounds_of_items (hf : Framed item) (hc : Consuming item) (hs : s.Sound)
    (hcolumn : s.reference.column = column) (h : Items item column s l t)
    (hstop : t.position.column ≠ column ∨ RefusesAt item t.checkpoint) :
    rounds item s = .success l t := by
  induction h with
  | nil s =>
    refine RefusesAt.many ?_
    by_cases h : s.position.column = s.reference.column
    · obtain ⟨e, u, hu, hcu⟩ := hstop.resolve_left (not_not_intro (h.trans hcolumn))
      exact ⟨e, u, (checkIndent_then item (s := s.checkpoint) h).trans hu, hcu⟩
    · have hne : s.checkpoint.position.column ≠ s.checkpoint.reference.column := h
      exact ⟨_, s.checkpoint, by rw [checkIndent_then_eq, if_neg hne], rfl, rfl⟩
  | @cons s u t a l hcol hr _ ih =>
    have hreach := hf.success hr
    have hu := hreach.sound hs.checkpoint
    have hlt : u.remaining < s.remaining := by
      rw [hu.remaining, hs.remaining]
      exact hc (s := s.checkpoint) hs hr
    have hround : checkIndent.then_ item s.checkpoint = .success a u :=
      (checkIndent_then item (s := s.checkpoint) (hcol.trans hcolumn.symm)).trans hr
    have hnext : rounds item (u.withConsumed true) = _ :=
      ih hu (hreach.column_eq.trans hcolumn) hstop
    rw [rounds, many, manyFrom, hround]
    simp only [hlt, if_true]
    rw [Reads.manyFrom_eq, ← rounds, hnext]
    rfl

theorem indentedBlock_of_items (hf : Framed item) (hc : Consuming item) (hs : s.Sound)
    (hopen : s.reference.column < s.position.column)
    (h : Items item s.position.column (s.withReference s.position) l t)
    (hstop : t.position.column ≠ s.position.column ∨ RefusesAt item t.checkpoint)
    (hend : t.rest = [] ∨ t.position.column ≤ s.reference.column ∨
      t.position.column = s.position.column) :
    indentedBlock item s =
      .success l (t.withReference ⟨s.position.line, s.reference.column⟩) := by
  have hrounds := rounds_of_items hf hc (s := s.withReference s.position) hs rfl h hstop
  rw [Source.indentedBlock_eq hopen, hrounds]
  refine if_neg fun hcond => ?_
  obtain ⟨⟨hmore, hright⟩, hoff⟩ := by
    simpa only [Bool.and_eq_true, Bool.not_eq_true', decide_eq_true_eq, bne_iff_ne] using hcond
  rcases hend with hnil | hleft | hon
  · have hatEnd := ((h.reaches hf).sound (s := s.withReference s.position) hs).atEnd
    rw [hnil] at hatEnd
    exact absurd (hmore.symm.trans hatEnd) (by decide)
  · exact absurd hleft (Nat.not_le.mpr hright)
  · exact hoff hon

end Items

end ContextRoles.Parsing.Parser

namespace ContextRoles.Source

open Parsing Lexeme
open ContextRoles.Parsing.Parser hiding some

variable {ids : Nat → String} {self : Parser Collection} {declaration : TypeDeclaration}
  {word x y : String} {text : List Char} {s t u : State} {l : List (String × String)}

section Properties

def assigned : Parser String :=
  (Parser.sameOrIndented.then_ (language.reservedOperator "=")).then_
    (Parser.sameOrIndented.then_ propertyValue)

theorem assignment_eq_success {name : Parser String} : assignment name s = .success (x, y) t ↔
    ∃ u, name s = .success x u ∧ assigned u = .success y t := by
  constructor
  · intro hr
    obtain ⟨x', u, hu, hr⟩ := bind_eq_success.mp hr
    obtain ⟨b, v, hv, hr⟩ := bind_eq_success.mp hr
    obtain ⟨y', w, hw, ⟨⟩⟩ := bind_eq_success.mp hr
    exact ⟨u, hu, bind_eq_success.mpr ⟨b, v, hv, hw⟩⟩
  · rintro ⟨u, hu, hr⟩
    obtain ⟨b, v, hv, hw⟩ := bind_eq_success.mp hr
    exact bind_eq_success.mpr ⟨x, u, hu, bind_eq_success.mpr ⟨b, v, hv,
      bind_eq_success.mpr ⟨y, t, hw, rfl⟩⟩⟩

theorem leaves_assigned :
    Leaves assigned fun _ text _ => ∃ r, text = '=' :: r ∧ Stops isOperatorChar r := by
  intro s y t hs hr
  obtain ⟨b, u, hu, -⟩ := bind_eq_success.mp hr
  obtain ⟨r, hrest⟩ := leaves_equals hs hu
  refine ⟨r, hrest, fun c hc => ?_⟩
  by_contra hmark
  obtain ⟨r', rfl⟩ := List.head?_eq_some_iff.mp hc
  have longer : Refuses (language.reservedOperator "=") ("=".toList ++ c :: r') :=
    (refuses_whole (by decide) (takes_operatorChar.reads c r' (by simpa using hmark))).bind
  obtain ⟨e, v, hv, -⟩ := longer.sameOrIndented_then s hs hrest
  rw [hv] at hu
  cases hu

theorem rolePropertyAssignment_success (hs : s.Sound)
    (hr : rolePropertyAssignment s = .success (x, y) t) :
    IsName Text.isLowercase x ∧ ∃ g r u, s.rest = x.toList ++ (g ++ '=' :: r) ∧ Gap g ('=' :: r) ∧
      Stops isOperatorChar r ∧ assigned ((s.withReference s.position).pass (x.toList ++ g)) =
        .success y u ∧ t = u.withReference s.reference := by
  obtain ⟨t, ht, rfl⟩ := mapState_eq_success.mp hr
  obtain ⟨u, hu, hassigned⟩ := assignment_eq_success.mp ht
  have hname := yields_propertyName hu
  have hsound := (advancing_propertyName.framed.success hu).sound (s := s.withReference s.position) hs
  obtain ⟨g, hrest, hg⟩ := leaves_propertyName (s := s.withReference s.position) hs hu
  obtain ⟨r, hequals, hstops⟩ := leaves_assigned hsound hassigned
  rw [hequals] at hrest hg
  have named : Reads propertyName (x.toList ++ g) ('=' :: r) x :=
    reads_propertyName hname hg (hg.stops_name (stops_equals (by decide)))
  have hread := named (s.withReference s.position) hs (by rwa [List.append_assoc]) trivial
  rw [hread] at hu
  cases hu
  exact ⟨hname, g, r, t, hrest, hg, hstops, hassigned, rfl⟩

theorem leaves_rolePropertyAssignment :
    Leaves rolePropertyAssignment fun a text _ => Assigned a.1 text := by
  rintro s ⟨x, y⟩ t hs hr
  obtain ⟨hname, g, r, -, hrest, hg, hstops, -⟩ := rolePropertyAssignment_success hs hr
  exact ⟨hname, g, r, hrest, hg, hstops⟩

end Properties

section Keywords

abbrev keyworded (word : String) : Parser (String × String) :=
  withPosition ((language.reserved word).then_ (assignment contextPropertyName))

structure Keyword (word : String) : Prop where
  ne_empty : word ≠ ""
  isWord : IsWord word
  domain : ¬ word.toList <+: "model:".toList

theorem keyword_public : Keyword "public" :=
  ⟨by decide, by simp [IsWord]; decide, by decide⟩

theorem keyword_private : Keyword "private" :=
  ⟨by decide, by simp [IsWord]; decide, by decide⟩

theorem advancing_keyworded (h : word ≠ "") : Advancing (keyworded word) :=
  have property := advancing_assignment advancing_contextPropertyName
  ((advancing_reserved h).then_ property.plain property.total).withPosition

theorem refuses_keyworded_nil (h : word ≠ "") : Refuses (keyworded word) [] :=
  (refuses_reserved (by simpa using h)).bind.withPosition

theorem Assigned.refuses_keyworded (hk : Keyword word) (h : Assigned x text) (hl : ¬ LedBy word x) :
    Refuses (keyworded word) text := by
  obtain ⟨hname, g, r, rfl, -⟩ := h
  exact refuses_keyword_name hk.ne_empty hk.isWord hname hl

theorem LedBy.exists_name (hk : Keyword word) (hx : IsName Text.isLowercase x) (h : LedBy word x) :
    ∃ z, x.toList = word.toList ++ z.toList ∧ IsName Text.isLowercase z ∧
      Stops isWordChar z.toList := by
  obtain ⟨y, n, rfl, hy, hn⟩ := hx
  obtain ⟨r, hr, hstop⟩ := h
  have colon : ':' ∉ word.toList := fun hm => absurd (hk.isWord ':' hm) (by decide)
  rw [String.toList_append] at hr
  rcases hy with ⟨c, w, hy, -⟩ | ⟨w, hy, hw⟩ | hy
  · have hword : word.toList <+: "model:".toList ++ (c :: w ++ ['#'] ++ n.toList) :=
      ⟨r, by rw [← hr, hy]; simp⟩
    rcases List.prefix_or_prefix_of_prefix hword (List.prefix_append _ _) with hshort | hlong
    · exact absurd hshort hk.domain
    · exact absurd (hlong.subset (by decide)) colon
  · rw [hy, List.append_assoc] at hr
    obtain ⟨v, rfl, rfl⟩ : ∃ v, w = word.toList ++ v ∧ r = v ++ (':' :: n.toList) := by
      rcases List.append_eq_append_iff.mp hr with ⟨v, hv, hr'⟩ | ⟨v, hv, hr'⟩
      · cases v with
        | nil => exact ⟨[], by simpa using hv.symm, by simpa using hr'.symm⟩
        | cons d v =>
          obtain rfl : ':' = d := (List.cons.inj hr').1
          exact absurd (by rw [hv]; simp) colon
      · exact ⟨v, hv, hr'⟩
    refine ⟨String.ofList (v ++ [':']) ++ n, by simp [hy], ⟨_, n, rfl, .inr (.inl ?_), hn⟩,
      by simpa using hstop⟩
    exact ⟨v, String.toList_ofList, fun d hd => hw d (List.mem_append_right _ hd)⟩
  · obtain ⟨c, w, hc⟩ := List.exists_cons_of_ne_nil (by simpa using hk.ne_empty : word.toList ≠ [])
    rw [hy, hc] at hr
    obtain rfl : '$' = c := (List.cons.inj hr).1
    exact absurd (hk.isWord '$' (by simp [hc])) (by decide)

theorem keyworded_of_ledBy (hk : Keyword word) (hs : s.Sound)
    (hr : rolePropertyAssignment s = .success (x, y) t) (hl : LedBy word x) :
    ∃ z, keyworded word s = .success (z, y) t := by
  obtain ⟨hname, g, r, u, hrest, hg, -, hassigned, rfl⟩ := rolePropertyAssignment_success hs hr
  obtain ⟨z, hx, hz, hstop⟩ := hl.exists_name hk hname
  have solid : Solid (z.toList ++ (g ++ '=' :: r)) :=
    (Spelled.of_isName isSpelling_of_isLowercase (by decide) hz).solid (ne_nil_of_isName hz)
  have hstop' : Stops isWordChar ([] ++ (z.toList ++ (g ++ '=' :: r))) := fun c hc =>
    hstop c (by rwa [List.nil_append, List.head?_append_of_ne_nil _ (ne_nil_of_isName hz)] at hc)
  let v := s.withReference s.position
  have hv : v.Sound := hs
  have hrest' : v.rest = word.toList ++ [] ++ (z.toList ++ (g ++ '=' :: r)) := by
    rw [List.append_nil, ← List.append_assoc word.toList, ← hx]
    exact hrest
  have keyword := reads_reserved hk.ne_empty (.nil solid) hstop' v hv hrest' trivial
  have name := reads_contextPropertyName (.inl hz) hg (v.pass (word.toList ++ [])) (hv.pass hrest')
    (by rw [State.rest_pass hrest', List.append_assoc]) trivial
  rw [← State.pass_append, List.append_nil, ← List.append_assoc, ← hx] at name
  refine ⟨z, mapState_eq_success.mpr ⟨u, bind_eq_success.mpr ⟨word, _, keyword, ?_⟩, rfl⟩⟩
  rw [List.append_nil]
  exact assignment_eq_success.mpr ⟨_, name, hassigned⟩

end Keywords

section Ends

/-- Nothing is left, or a name that properties and bindings begin with. -/
def Proceeds (s : State) : Prop := s.rest = [] ∨
  ∃ x t, propertyName ((s.checkpoint.withReference s.position).redrawn 0) = .success x t

theorem positional_proceeds : State.Positional Proceeds := by
  rintro ⟨⟩ ⟨⟩ hplace h
  simp only [State.place, Prod.mk.injEq] at hplace
  obtain ⟨rfl, rfl, rfl, rfl⟩ := hplace
  exact h

theorem proceeds_of_success {α : Type} {f : String → Parser α} {a : α}
    (hr : withPosition (propertyName.bind f) s = .success a t) : Proceeds s := by
  obtain ⟨u, hu, -⟩ := mapState_eq_success.mp hr
  obtain ⟨x, v, hv, -⟩ := bind_eq_success.mp hu
  have plain := advancing_propertyName.plain
  obtain ⟨w, hw⟩ := (plain.accumulates (E := fun _ => False) False.elim).checkpoint_success hv
  exact .inr ⟨x, w.redrawn 0, (plain.steady (s.withReference s.position).checkpoint 0).trans
    (by rw [hw]; rfl)⟩

theorem Proceeds.rest_eq_nil {k : Nat} (h : Proceeds s) (hs : s.Sound)
    (hno : NoItem rolePropertyAssignment k s) (hk : s.position.column = k) : s.rest = [] := by
  obtain ⟨e, t, ht, hflag⟩ := hno.resolve_left (not_not_intro hk)
  refine h.resolve_right ?_
  rintro ⟨x, v, hv⟩
  have plain := advancing_propertyName.plain
  let w := s.checkpoint.withReference s.position
  obtain ⟨u, hu, -⟩ := mapState_eq_success.mp ((plain.steady w 0).symm.trans hv)
  have hset : u.consumed = true := (plain.accumulates (E := fun _ => False) False.elim).consumed
    advancing_propertyName.framed advancing_propertyName.consuming (s := w) hs hu
  have hfails : ∃ t', assignment propertyName w = .failure e t' ∧ t'.consumed = false := by
    change (assignment propertyName w).mapState _ = _ at ht
    cases hw : assignment propertyName w with
    | success a t' => simp [hw, Outcome.mapState] at ht
    | failure e' t' =>
      rw [hw] at ht
      cases ht
      exact ⟨t', rfl, hflag⟩
    | stalled => simp [hw, Outcome.mapState] at ht
  obtain ⟨t', hw, hclear⟩ := hfails
  have sign := Built.sameOrIndented.then_
    (Language.advancing_reservedOperator language_regular (show "=" ≠ "" by decide)).plain
  have value := Built.sameOrIndented.then_ advancing_propertyValue.plain
  have others : Plain (((Parser.sameOrIndented.then_ (language.reservedOperator "=")).bind fun _ =>
      (Parser.sameOrIndented.then_ propertyValue).bind fun y => Parser.pure (x, y)) :
      Parser (String × String)) := .bind sign fun _ => .bind value fun _ => .pure _
  change propertyName.bind _ w = _ at hw
  simp only [Parser.bind, hu] at hw
  rw [others.honest.keeps_failure hw hset] at hclear
  cases hclear

end Ends

section Bodies

theorem keyworded_of_items (hk : Keyword word) {k : Nat} (hs : s.Sound)
    (h : Items rolePropertyAssignment k s l t) (hl : ∀ a ∈ l, LedBy word a.1) :
    ∃ m, Items (keyworded word) k s m t := by
  induction h with
  | nil s => exact ⟨[], .nil s⟩
  | @cons s u t a l hc hr _ ih =>
    rw [List.forall_mem_cons] at hl
    obtain ⟨z, hz⟩ := keyworded_of_ledBy hk (s := s.checkpoint) hs hr hl.1
    obtain ⟨m, hm⟩ := ih ((advancing_rolePropertyAssignment.framed.success hr).sound hs :) hl.2
    exact ⟨_, .cons hc hz hm⟩

theorem assigned_of_items {k : Nat} {a : String × String} (hs : s.Sound)
    (h : Items rolePropertyAssignment k s (a :: l) t) :
    s.position.column = k ∧ Assigned a.1 s.rest := by
  cases h with
  | cons hc hr _ => exact ⟨hc, leaves_rolePropertyAssignment (s := s.checkpoint) hs hr⟩

/-- Behind the cursor there are no more items of a body at `k` of a header at `limit`. -/
def Over (limit : Nat) (s : State) : Prop := s.rest = [] ∨ s.position.column ≤ limit

theorem indentedBlock_of_over {α : Type} {item : Parser α} (hs : s.Sound)
    (h : Over s.reference.column s) (hnil : Refuses item []) :
    ∃ r, Parser.indentedBlock item s = .success [] (s.withReference r) ∧
      Over r.column (s.withReference r) := by
  rcases h with hend | hle
  · obtain ⟨r, hr⟩ := indentedBlock_nil hs hend hnil
    exact ⟨r, hr, .inl hend⟩
  · exact ⟨s.reference, indentedBlock_of_le hle, .inr hle⟩

theorem ledBy_iff_drop :
    LedBy word x ↔ word.toList <+: x.toList ∧ Stops isWordChar (x.toList.drop word.toList.length) := by
  constructor
  · rintro ⟨r, hr, hstop⟩
    exact ⟨⟨r, hr.symm⟩, by rwa [hr, List.drop_left]⟩
  · rintro ⟨⟨r, hr⟩, hstop⟩
    rw [← hr, List.drop_left] at hstop
    exact ⟨r, hr.symm, hstop⟩

instance (word x : String) : Decidable (LedBy word x) := decidable_of_iff _ ledBy_iff_drop.symm

def without (word : String) (l : List (String × String)) : List (String × String) :=
  l.dropWhile fun a => LedBy word a.1

/-- The properties of a body behind those that a context takes for its own. -/
def others (l : List (String × String)) : List (String × String) :=
  without "private" (without "public" l)

theorem exists_without (word : String) (l : List (String × String)) :
    ∃ m, l = m ++ without word l ∧ (∀ a ∈ m, LedBy word a.1) ∧
      ∀ a n, without word l = a :: n → ¬ LedBy word a.1 := by
  refine ⟨l.takeWhile fun a => LedBy word a.1, List.takeWhile_append_dropWhile.symm, fun a ha =>
    of_decide_eq_true (List.all_eq_true.mp List.all_takeWhile a ha), fun a n hn => ?_⟩
  have hhead := List.head?_dropWhile_not (fun a : String × String => decide (LedBy word a.1)) l
  rw [← without, hn] at hhead
  simpa using hhead

/-- The properties that a keyword begins are read as a block. It comes to the end of the body, or to a
property that the keyword does not begin. -/
theorem exists_keywordBlock (hk : Keyword word) {k : Nat} (hs : s.Sound)
    (hlimit : s.reference.column < k)
    (h : Items rolePropertyAssignment k s l t)
    (hend : without word l = [] → Over s.reference.column t) :
    ∃ m u, Parser.indentedBlock (keyworded word) s = .success m u ∧ u.Sound ∧ u.drawn = s.drawn ∧
      (without word l = [] ∧ Over u.reference.column u ∨
        without word l ≠ [] ∧ u.reference.column = s.reference.column ∧
          ∃ r, Items rolePropertyAssignment k u (without word l) (t.withReference r)) := by
  have advancing := advancing_keyworded hk.ne_empty
  have item := advancing_rolePropertyAssignment
  cases l with
  | nil =>
    cases h
    obtain ⟨r, hr, hover⟩ := indentedBlock_of_over hs (hend rfl) (refuses_keyworded_nil hk.ne_empty)
    exact ⟨[], _, hr, hs, rfl, .inl ⟨rfl, hover⟩⟩
  | cons a l =>
    obtain ⟨hcol, -⟩ := assigned_of_items hs h
    subst hcol
    obtain ⟨m, hl, hm, hfirst⟩ := exists_without word (a :: l)
    generalize without word (a :: l) = n at hl hfirst hend ⊢
    rw [hl] at h
    obtain ⟨v, hled, hothers⟩ := h.split
    have hv : v.Sound := (hled.reaches item.framed).sound hs
    obtain ⟨m', hm'⟩ := keyworded_of_items hk (s := s.withReference s.position) hs
      (Items.withReference s.position hled) hm
    have hbehind : n = [] ∧ Over s.reference.column v ∨ n ≠ [] ∧
        v.position.column = s.position.column ∧ ∃ x, Assigned x v.rest ∧ ¬ LedBy word x := by
      cases n with
      | nil =>
        cases hothers
        exact .inl ⟨rfl, hend rfl⟩
      | cons b n =>
        obtain ⟨hcol, hb⟩ := assigned_of_items hv hothers
        exact .inr ⟨List.cons_ne_nil b n, hcol, b.1, hb, hfirst b n rfl⟩
    have hblock := indentedBlock_of_items (t := v.withReference s.position) advancing.framed
      advancing.consuming hs hlimit hm' ?_ ?_
    · refine ⟨m', _, hblock, hv, (hled.drawn_eq item.plain.steady :), ?_⟩
      exact hbehind.imp id fun h => ⟨h.1, rfl, _,
        (Items.withReference ⟨s.position.line, s.reference.column⟩ hothers :)⟩
    · rcases hbehind with ⟨-, hnil | hle⟩ | ⟨-, -, x, hx, hno⟩
      · exact .inr ((refuses_keyworded_nil hk.ne_empty).refusesAt hv hnil)
      · exact .inl (Nat.ne_of_lt (Nat.lt_of_le_of_lt hle hlimit))
      · exact .inr ((hx.refuses_keyworded hk hno).refusesAt hv rfl)
    · rcases hbehind with ⟨-, hnil | hle⟩ | ⟨-, hcol, -⟩
      exacts [.inl hnil, .inr (.inl hle), .inr (.inr hcol)]

theorem items_of_roleBlock (hopen : s.reference.column < s.position.column)
    (hr : Parser.indentedBlock rolePropertyAssignment s = .success l t) :
    ∃ u, Items rolePropertyAssignment s.position.column (s.withReference s.position) l u ∧
      NoItem rolePropertyAssignment s.position.column u ∧ t.place = u.place ∧
      (t.atEnd = true ∨ t.position.column ≤ s.reference.column ∨
        t.position.column = s.position.column) := by
  obtain ⟨hblock, hend⟩ := indentedBlock_success hopen hr
  obtain ⟨u, v, hitems, hno, rfl⟩ := items_of_block
    (advancing_rolePropertyAssignment.plain.ends threads_sameColumn False.elim) hblock
  exact ⟨u, hitems, hno, rfl, hend⟩

theorem exists_items_over (hs : s.Sound) (hopen : s.reference.column < s.position.column)
    (hr : Parser.indentedBlock rolePropertyAssignment s = .success l t)
    (hend : others l = [] → Proceeds t) :
    ∃ u, Items rolePropertyAssignment s.position.column (s.withReference s.position) l u ∧
      (others l = [] → Over s.reference.column u) := by
  obtain ⟨u, hitems, hno, hplace, hstops⟩ := items_of_roleBlock hopen hr
  have hu : u.Sound := (hitems.reaches advancing_rolePropertyAssignment.framed).sound
    (s := s.withReference s.position) hs
  refine ⟨u, hitems, fun hothers => ?_⟩
  have hproceeds : Proceeds u := positional_proceeds hplace (hend hothers)
  by_cases hcol : u.position.column = s.position.column
  · exact .inl (hproceeds.rest_eq_nil hu hno hcol)
  · simp only [State.place, Prod.mk.injEq] at hplace
    obtain ⟨hrest, hoffset, hsize, hposition⟩ := hplace
    rcases hstops with hatEnd | hle | hon
    · have hatEnd' : u.atEnd = true := by
        rw [← hatEnd, State.atEnd, State.atEnd, hoffset, hsize]
      rw [hu.atEnd, List.isEmpty_iff] at hatEnd'
      exact .inl hatEnd'
    · exact .inr (hposition ▸ hle)
    · exact absurd (hposition ▸ hon) hcol

/-- A context reads the properties of a role that belong to it as two blocks. Then it has come to the
end of the body, or to a property that does not belong to it. -/
theorem exists_keywordBlocks (hs : s.Sound)
    (hr : Parser.indentedBlock rolePropertyAssignment s = .success l t)
    (hend : others l = [] → Proceeds t) :
    ∃ m v n u, Parser.indentedBlock publicAssignment s = .success m v ∧ v.drawn = s.drawn ∧
      Parser.indentedBlock privateAssignment v = .success n u ∧ u.drawn = v.drawn ∧ u.Sound ∧
      (others l = [] ∧ Over u.reference.column u ∨
        others l ≠ [] ∧ u.reference.column < u.position.column ∧ ∃ x, Assigned x u.rest) := by
  rcases Nat.lt_or_ge s.reference.column s.position.column with hopen | hclosed
  swap
  · rw [indentedBlock_of_le hclosed] at hr
    cases hr
    exact ⟨[], s, [], s, indentedBlock_of_le hclosed, rfl, indentedBlock_of_le hclosed, rfl, hs,
      .inl ⟨rfl, .inr hclosed⟩⟩
  obtain ⟨w, hitems, hw⟩ := exists_items_over hs hopen hr hend
  have hbegin : Items rolePropertyAssignment s.position.column s l (w.withReference s.reference) :=
    (Items.withReference s.reference hitems :)
  obtain ⟨m, v, hpublic, hv, hdv, hcase⟩ := exists_keywordBlock keyword_public hs hopen hbegin
    fun hnil => hw (by rw [others, hnil]; rfl)
  rcases hcase with ⟨hnil, hover⟩ | ⟨-, hcolumn, r, hitems'⟩
  · obtain ⟨r, hprivate, hover'⟩ := indentedBlock_of_over hv hover refuses_privateAssignment_nil
    exact ⟨m, v, [], _, hpublic, hdv, hprivate, rfl, hv, .inl ⟨by rw [others, hnil]; rfl, hover'⟩⟩
  · obtain ⟨n, u, hprivate, hu, hdu, hcase⟩ := exists_keywordBlock keyword_private hv
      (hcolumn ▸ hopen) hitems' fun hnil => hcolumn ▸ hw hnil
    refine ⟨m, v, n, u, hpublic, hdv, hprivate, hdu, hu, hcase.imp id ?_⟩
    rintro ⟨hne, hcolumn', r', hothers⟩
    obtain ⟨b, n', hb⟩ := List.exists_cons_of_ne_nil hne
    rw [hb] at hothers
    obtain ⟨hcol, hassigned⟩ := assigned_of_items hu hothers
    exact ⟨hne, by rw [hcolumn', hcolumn, hcol]; exact hopen, b.1, hassigned⟩

variable (ids self declaration) in
/-- Where the properties of a role are read, a context fails at one that does not belong to it. When all
of them do, it is read to the same end. -/
theorem contextBody_of_roleBlock (hs : s.Sound)
    (hr : Parser.indentedBlock rolePropertyAssignment s = .success l t) :
    (others l ≠ [] → FailsAt (contextBody ids self declaration) s) ∧
      (others l = [] → Proceeds t → ∃ c u, contextBody ids self declaration s = .success c u) := by
  constructor
  · intro hothers
    obtain ⟨m, v, n, u, hv, hdv, hu, hdu, hsound, hcase⟩ :=
      exists_keywordBlocks hs hr fun hnil => absurd hnil hothers
    obtain ⟨-, hopen, x, hx⟩ := hcase.resolve_left fun h => hothers h.1
    have hbreaks : Breaks (roleBindingWith ids self (localName declaration.instanceName)) u.rest :=
      (hx.breaks self).bind_left
    refine .of_success hv hdv (.of_success hu hdu ?_)
    exact (FailsAt.indentedBlock hsound hopen hbreaks).bind_left
  · intro hothers hproceeds
    obtain ⟨m, v, n, u, hv, -, hu, -, hsound, hcase⟩ :=
      exists_keywordBlocks hs hr fun _ => hproceeds
    obtain ⟨-, hover⟩ := hcase.resolve_right fun h => h.1 hothers
    obtain ⟨r, hbindings, -⟩ := indentedBlock_of_over hsound hover
      ((refuses_bindingWith_nil self).bind :
        Refuses (roleBindingWith ids self (localName declaration.instanceName)) [])
    exact ⟨_, _, bind_eq_success.mpr ⟨m, v, hv, bind_eq_success.mpr ⟨n, u, hu,
      bind_eq_success.mpr ⟨[], _, hbindings, rfl⟩⟩⟩⟩

end Bodies

end ContextRoles.Source
