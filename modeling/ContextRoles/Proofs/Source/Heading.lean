import ContextRoles.Proofs.Parsing.Leaving
import ContextRoles.Proofs.Source.Sealing

/-! # Where a definition begins

A definition begins with the name of its instance and the name of its type. Each holds one colon or one
dollar sign, and no name or identifier holds two, so a text that begins like that is not taken for a
property: no equals sign follows the first name in it.
-/

namespace ContextRoles.Source

open Parsing Lexeme
open ContextRoles.Parsing.Parser hiding some

variable {α : Type} {c : Char} {first : Char → Bool} {x y : String}
  {g g' r r' text u v w z : List Char}

section Texts

/-- What is left behind a lexeme: a gap stands between its text and the rest. -/
def Worded (x : String) (text rest : List Char) : Prop :=
  ∃ g, text = x.toList ++ (g ++ rest) ∧ Gap g rest

theorem spends_letters {p : Parser Char} (h : Spends p fun c => [c]) :
    Spends (letters p) String.toList := h.map fun c => by simp

theorem spends_joined {parts : List (Parser String)} (hf : ∀ p ∈ parts, Framed p)
    (h : ∀ p ∈ parts, Spends p String.toList) : Spends (joined parts) String.toList :=
  (Spends.sequence hf h).map fun _ => String.toList_join

theorem spends_kind {accepts : Char → Bool} (name : String) :
    Spends (letters (label (satisfy accepts) name)) String.toList :=
  spends_letters (Leaves.label (Spends.satisfy _) _)

theorem spends_identifierLetter : Spends language.identifierLetter String.toList :=
  spends_letters ((Leaves.label (Spends.satisfy _) _).alt (Spends.satisfy _))

theorem spends_nameRest : Spends nameRest String.toList :=
  (Spends.many language_regular.identifierLetter.framed spends_identifierLetter).map
    fun _ => String.toList_join

theorem spends_local {accepts : Char → Bool} (name : String) :
    Spends (joined [letters (label (satisfy accepts) name), nameRest]) String.toList := by
  have first : Framed (letters (label (satisfy accepts) name)) :=
    (advancing_letters ((Advancing.satisfy _).label _)).framed
  exact spends_joined (by simpa using ⟨first, plain_nameRest.framed_plain⟩)
    (by simpa using ⟨spends_kind name, spends_nameRest⟩)

theorem spends_domainName : Spends domainName String.toList := by
  have capital := advancing_letters ((Advancing.satisfy Text.isUppercase).label "uppercase letter")
  have hash : Spends (letters (.char '#')) String.toList := spends_kind _
  exact spends_joined (by simpa using ⟨(Built.string _).framed_plain, capital.framed,
      plain_nameRest.framed_plain, (advancing_letters (.char '#')).framed⟩)
    (by simpa using ⟨Spends.string _, spends_kind _, spends_nameRest, hash⟩)

theorem spends_namespaceMark : Spends namespaceMark String.toList := by
  have small : Advancing Parser.lower := (Advancing.satisfy _).label _
  have lowers : Spends ((Parser.many .lower).map String.ofList) String.toList :=
    (Spends.many small.framed (Leaves.label (Spends.satisfy _) _)).map fun cs => by simp
  have colon : Spends (letters (.char ':')) String.toList := spends_kind _
  refine Leaves.alt (spends_joined ?_ (by simpa using ⟨lowers, colon⟩)) (Spends.string _)
  simpa using ⟨(small.plain_many.map _).framed_plain, (advancing_letters (.char ':')).framed⟩

theorem leaves_lexeme {p : Parser α} {D : α → List Char → List Char → Prop} (hf : Framed p)
    (h : Leaves p D) :
    Leaves (language.lexeme p) fun a text rest => ∃ g, D a text (g ++ rest) ∧ Gap g rest := by
  intro s a t hs hr
  obtain ⟨b, u, hu, hr⟩ := bind_eq_success.mp hr
  obtain ⟨⟨⟩, ht, rfl⟩ := map_eq_success.mp hr
  obtain ⟨g, hg, hgap⟩ := gap_of_whiteSpace ((hf.success hu).sound hs) ht
  exact ⟨g, hg ▸ h hs hu, hgap⟩

theorem leaves_name {start name : Parser String} (hs : Advancing start) (hn : Advancing name)
    (h : Spends start String.toList) (h' : Spends name String.toList) :
    Leaves (language.lexeme (attempt (joined [start, name]))) Worded := by
  have both : Spends (joined [start, name]) String.toList :=
    spends_joined (by simpa using ⟨hs.framed, hn.framed⟩) (by simpa using ⟨h, h'⟩)
  have plain : Plain (attempt (joined [start, name])) :=
    (plain_joined (by simpa using ⟨hs.plain, hn.plain⟩)).attempt
  exact leaves_lexeme plain.framed_plain (Leaves.attempt both)

theorem leaves_names (accepts : Char → Bool) (name : String) :
    Leaves (qualified (joined [letters (label (satisfy accepts) name), nameRest])) Worded ∧
      Leaves (prefixed (joined [letters (label (satisfy accepts) name), nameRest])) Worded := by
  have name' := advancing_local ((Advancing.satisfy accepts).label name)
  exact ⟨leaves_name advancing_domainName name' spends_domainName (spends_local name),
    leaves_name advancing_namespaceMark name' spends_namespaceMark (spends_local name)⟩

theorem leaves_propertyName : Leaves propertyName Worded :=
  have ⟨qualified, prefixed⟩ := leaves_names Text.isLowercase "lowercase letter"
  ((qualified.label _).alt (prefixed.label _)).label _

theorem leaves_resourceName : Leaves resourceName Worded :=
  have ⟨qualified, prefixed⟩ := leaves_names Text.isUppercase "uppercase letter"
  (qualified.alt prefixed).label _

theorem leaves_instanceName : Leaves instanceName Worded :=
  have ⟨qualified, prefixed⟩ := leaves_names Text.isLetter "letter"
  (qualified.alt prefixed).label _

theorem spends_word :
    Spends (Language.word language.identifierStart language.identifierLetter) String.toList := by
  intro s x t hs hr
  obtain ⟨c, u, hc, hr⟩ := bind_eq_success.mp hr
  obtain ⟨cs, hcs, rfl⟩ := map_eq_success.mp hr
  have start : Spends language.identifierStart String.toList := spends_kind _
  have letter := language_regular.identifierLetter.framed
  have hu := (language_regular.identifierStart.framed.success hc).sound hs
  rw [start hs hc, Spends.many letter spends_identifierLetter hu hcs]
  simp

theorem leaves_identifier : Leaves language.identifier Worded := by
  have word := (Language.advancing_word language_regular.identifierStart
    language_regular.identifierLetter).label "identifier"
  refine leaves_lexeme (D := fun (x : String) text rest => text = x.toList ++ rest)
    (Built.attempt (word.plain.bind fun name => ?_)).framed_plain
    (Leaves.attempt fun s x t hs hr => ?_)
  · split
    · exact .unexpected _
    · exact .pure _
  · obtain ⟨name, u, hu, hr⟩ := bind_eq_success.mp hr
    split at hr
    · cases hr
    · cases hr
      exact spends_word.label _ hs hu

theorem leaves_contextPropertyName : Leaves contextPropertyName Worded :=
  leaves_propertyName.alt leaves_identifier

end Texts

section Spellings

def isSpelling (c : Char) : Bool := isBare c && c != '='

def isSigil (c : Char) : Bool := c == ':' || c == '$'

theorem isSpelling_of {accepts : Char → Bool} (hb : ∀ c, accepts c = true → isBare c = true)
    (he : accepts '=' = false) (c : Char) (h : accepts c = true) : isSpelling c = true := by
  rw [isSpelling, hb c h, Bool.true_and, bne_iff_ne]
  rintro rfl
  simp [he] at h

theorem isBare_of_isWordChar : ∀ c, isWordChar c = true → isBare c = true :=
  isBare_of (by decide +kernel) (by decide +kernel)

theorem isSpelling_of_isWordChar : ∀ c, isWordChar c = true → isSpelling c = true :=
  isSpelling_of isBare_of_isWordChar (by decide)

theorem isSpelling_of_isLowercase : ∀ c, Text.isLowercase c = true → isSpelling c = true :=
  isSpelling_of isBare_of_isLowercase (by decide)

theorem isSpelling_of_isUppercase : ∀ c, Text.isUppercase c = true → isSpelling c = true :=
  isSpelling_of isBare_of_isUppercase (by decide)

theorem isSpelling_of_isLetter : ∀ c, Text.isLetter c = true → isSpelling c = true :=
  isSpelling_of isBare_of_isLetter (by decide)

/-- A text of which each character is one of a spelling, with so many sigils. -/
structure Spelled (n : Nat) (w : List Char) : Prop where
  spelling : ∀ c ∈ w, isSpelling c = true
  sigils : w.countP isSigil = n

namespace Spelled

variable {m n : Nat}

theorem append (h : Spelled m v) (h' : Spelled n w) : Spelled (m + n) (v ++ w) :=
  ⟨List.forall_mem_append.mpr ⟨h.spelling, h'.spelling⟩, by
    rw [List.countP_append, h.sigils, h'.sigils]⟩

theorem of_kind {accepts : Char → Bool} (hs : ∀ c, accepts c = true → isSpelling c = true)
    (hn : (accepts ':' || accepts '$') = false) (hw : ∀ c ∈ w, accepts c = true) : Spelled 0 w := by
  refine ⟨fun c hc => hs c (hw c hc), List.countP_eq_zero.mpr fun c hc hsigil => ?_⟩
  rw [Bool.or_eq_false_iff] at hn
  rw [isSigil, Bool.or_eq_true, beq_iff_eq, beq_iff_eq] at hsigil
  rcases hsigil with rfl | rfl
  · simp [hw _ hc] at hn
  · simp [hw _ hc] at hn

theorem word (hw : ∀ c ∈ w, isWordChar c = true) : Spelled 0 w :=
  of_kind isSpelling_of_isWordChar (by decide) hw

theorem of_isLocal (hs : ∀ c, first c = true → isSpelling c = true)
    (hn : (first ':' || first '$') = false) (h : IsLocal first x) : Spelled 0 x.toList := by
  obtain ⟨c, w, hx, hc, hw⟩ := h
  rw [hx]
  exact append (of_kind (w := [c]) hs hn (by simpa using hc)) (word hw)

theorem of_isDomain (h : IsDomain x) : Spelled 1 x.toList := by
  obtain ⟨c, w, hx, hc, hw⟩ := h
  have model : Spelled 1 "model:".toList := ⟨List.all_eq_true.mp (by decide), by decide⟩
  have hash : Spelled 0 ['#'] := ⟨List.all_eq_true.mp (by decide), by decide⟩
  have capital : Spelled 0 [c] :=
    of_kind isSpelling_of_isUppercase (by decide) (by simpa using hc)
  rw [hx, List.append_cons _ c w]
  exact ((model.append capital).append (word hw)).append hash

theorem of_isMark (h : IsMark x) : Spelled 1 x.toList := by
  rcases h with ⟨w, hx, hw⟩ | hx
  · have colon : Spelled 1 [':'] := ⟨List.all_eq_true.mp (by decide), by decide⟩
    rw [hx]
    exact (of_kind isSpelling_of_isLowercase (by decide) hw).append colon
  · rw [hx]
    exact ⟨List.all_eq_true.mp (by decide), by decide⟩

theorem of_isName (hs : ∀ c, first c = true → isSpelling c = true)
    (hn : (first ':' || first '$') = false) (h : IsName first x) : Spelled 1 x.toList := by
  obtain ⟨y, z, rfl, hy, hz⟩ := h
  rw [String.toList_append]
  exact (hy.elim of_isDomain of_isMark).append (of_isLocal hs hn hz)

theorem solid (h : Spelled n w) (hw : w ≠ []) : Solid (w ++ r) := by
  obtain ⟨c, w, rfl⟩ := List.exists_cons_of_ne_nil hw
  have hbare : isBare c = true := by
    have hc := h.spelling c (by simp)
    rw [isSpelling, Bool.and_eq_true] at hc
    exact hc.1
  have ⟨_, hl, hb⟩ := ne_of_isBare hbare
  exact solid_iff.mpr
    ⟨by simpa using isBlank_of_isBare hbare, not_prefix_of_ne hl, not_prefix_of_ne hb⟩

end Spelled

theorem spelled_of_contextPropertyName (h : IsName Text.isLowercase x ∨ IsIdentifier x) :
    ∃ n ≤ 1, Spelled n x.toList := by
  rcases h with h | h
  · exact ⟨1, Nat.le_refl 1, .of_isName isSpelling_of_isLowercase (by decide) h⟩
  · exact ⟨0, Nat.zero_le 1, .of_isLocal isSpelling_of_isLetter (by decide) h.1⟩

end Spellings

section Headings

theorem Gap.unique (h : Gap g r) (h' : Gap g' r') (he : g ++ r = g' ++ r') : g = g' ∧ r = r' := by
  let s := State.start (String.ofList (g ++ r))
  have hs : s.rest = g ++ r := String.toList_ofList
  have hread := h.reads s (State.sound_start _) hs trivial
  rw [h'.reads s (State.sound_start _) (hs.trans he) trivial] at hread
  have hrest : (s.pass g').rest = (s.pass g).rest := by
    injection hread with _ hpass
    rw [hpass]
  rw [State.rest_pass hs, State.rest_pass (hs.trans he)] at hrest
  subst hrest
  exact ⟨List.append_cancel_right he, rfl⟩

theorem prefix_of_stops {accepts : Char → Bool} (hv : ∀ c ∈ v, accepts c = true)
    (hz : Stops accepts z) (he : v ++ u = w ++ z) : v <+: w := by
  rcases List.append_eq_append_iff.mp he with ⟨x, rfl, -⟩ | ⟨x, rfl, hzx⟩
  · exact List.prefix_append _ _
  · cases x with
    | nil => simp
    | cons c x =>
      have hstop := hz c (by simp [hzx])
      simp [hv c (by simp)] at hstop

theorem isSpelling_of_isBlank (c : Char) (h : Text.isBlank c = true) : isSpelling c = false := by
  simp [isSpelling, isBare, h]

/-- The name of an instance and the name of a type in front of what follows. -/
def Headed (text : List Char) : Prop :=
  ∃ x y g z, text = x.toList ++ (g ++ (y.toList ++ z)) ∧ Gap g (y.toList ++ z) ∧
    IsName Text.isLetter x ∧ IsName Text.isUppercase y

/-- No equals sign follows the first name of a definition: one that did would stand behind a name with
the sigils of two. -/
theorem Headed.not_assigned {n : Nat} {text b : List Char} (h : Headed text) (hb : Spelled n b)
    (hn : n ≤ 1) (hg : Gap g ('=' :: r)) : text ≠ b ++ (g ++ '=' :: r) := by
  obtain ⟨x, y, g', z, rfl, hg', hx, hy⟩ := h
  intro he
  have hx := Spelled.of_isName isSpelling_of_isLetter (by decide) hx
  have hne := ne_nil_of_isName hy
  have hy := Spelled.of_isName isSpelling_of_isUppercase (by decide) hy
  have hstop : Stops isSpelling (g ++ '=' :: r) := by
    refine hg.stops ?_ isSpelling_of_isBlank (by decide) (by decide)
    rintro c ⟨⟩
    decide
  obtain ⟨u, rfl⟩ := prefix_of_stops hx.spelling hstop he
  rw [List.append_assoc, List.append_cancel_left_eq] at he
  cases u with
  | nil =>
    have hrest := (hg'.unique hg he).2
    cases hchars : y.toList with
    | nil => exact hne hchars
    | cons c w =>
      have hc := hy.spelling c (by simp [hchars])
      rw [hchars] at hrest
      obtain rfl : c = '=' := by simpa using congrArg List.head? hrest
      simp [isSpelling] at hc
  | cons c u =>
    have hnil : g' = [] := by
      cases g' with
      | nil => rfl
      | cons d g' =>
        have hstop' : Stops isSpelling (d :: g' ++ (y.toList ++ z)) :=
          hg'.stops_of (by simp) isSpelling_of_isBlank (by decide) (by decide)
        have hd := hstop' c (by simp [he])
        simp [hb.spelling c (by simp)] at hd
    subst hnil
    obtain ⟨v, hv⟩ := prefix_of_stops hy.spelling hstop he
    have hcount := hb.sigils
    rw [← hv, List.countP_append, List.countP_append, hx.sigils, hy.sigils] at hcount
    omega

theorem Headed.append (h : Headed text) (hw : text.getLast? = some '\n') :
    Headed (text ++ w) := by
  obtain ⟨x, y, g, z, rfl, hg, hx, hy⟩ := h
  have hne : y.toList ++ z ≠ [] := List.append_ne_nil_of_left_ne_nil (ne_nil_of_isName hy) z
  have hparted : Parted (x.toList ++ g ++ (y.toList ++ z)) w := .inr (by rwa [List.append_assoc])
  refine ⟨x, y, g, z ++ w, by simp only [List.append_assoc], ?_, hx, hy⟩
  rw [← List.append_assoc]
  exact hg.append hne (hparted.of_append hne)

theorem leaves_typeDeclaration : Leaves typeDeclaration fun _ text _ => Headed text := by
  refine Leaves.withPosition fun s d t hs hr => ?_
  obtain ⟨x, u, hu, hr⟩ := bind_eq_success.mp hr
  obtain ⟨y, v, hv, -⟩ := bind_eq_success.mp hr
  obtain ⟨⟨⟩, u', hline, hv⟩ := bind_eq_success.mp hv
  have hsound := (advancing_instanceName.framed.success hu).sound hs
  have hsound' := ((Framed.primitive .sameLine).success hline).sound hsound
  have hsame : u.rest = u'.rest := Leaves.sameLine hsound hline
  obtain ⟨g, hrest, hgap⟩ := leaves_instanceName hs hu
  obtain ⟨g', hrest', -⟩ := leaves_resourceName hsound' hv
  rw [hsame, hrest'] at hgap hrest
  exact ⟨x, y, g, _, hrest, hgap, yields_instanceName hu, yields_resourceName hv⟩

theorem leaves_definition {ids : Nat → String} :
    Leaves (definition ids) fun _ text _ => Headed text := by
  have headed {f : TypeDeclaration → Parser Collection} :
      Leaves (Parser.withPosition (typeDeclaration.bind f)) fun _ text _ => Headed text :=
    (leaves_typeDeclaration.bind_left fun _ _ _ _ _ => id).withPosition
  have context : Leaves (context ids) fun _ text _ => Headed text := fun s c t hs hr =>
    headed hs (context_eq ids hs ▸ hr)
  have role : Leaves role fun _ text _ => Headed text := headed
  exact .furthest (by simpa using ⟨context, role⟩)

theorem Headed.head (h : Headed text) :
    ∃ c ∈ text.head?, c = ':' ∨ c = '$' ∨ Text.isLowercase c = true := by
  obtain ⟨x, y, g, z, rfl, -, ⟨m, n, rfl, ⟨c, w, hm, -⟩ | ⟨w, hm, hw⟩ | hm, -⟩, -⟩ := h
  · exact ⟨'m', by simp [hm], .inr (.inr (by decide))⟩
  · cases w with
    | nil => exact ⟨':', by simp [hm], .inl rfl⟩
    | cons d w => exact ⟨d, by simp [hm], .inr (.inr (hw d (by simp)))⟩
  · exact ⟨'$', by simp [hm], .inr (.inl rfl)⟩

theorem Headed.ne_nil (h : Headed text) : text ≠ [] := by
  rintro rfl
  obtain ⟨c, hc, -⟩ := h.head
  simp at hc

theorem not_isDecimalDigit_of_isLowercase (h : Text.isLowercase c = true) :
    isDecimalDigit c = false := by
  cases hd : isDecimalDigit c with
  | false => rfl
  | true =>
    simp only [isDecimalDigit, Bool.and_eq_true, decide_eq_true_eq] at hd
    have hlow : c.toNat < 0x61 := Nat.lt_of_le_of_lt (show c.toNat ≤ 0x39 from hd.2) (by decide)
    have : Text.isLowercase c = false := if_pos hlow
    simp [h] at this

theorem leaves_equals :
    Leaves (Parser.sameOrIndented.then_ (language.reservedOperator "=")) fun _ text _ =>
      ∃ r, text = '=' :: r := by
  have text : Leaves (Parser.string "=") fun _ text _ => ∃ r, text = '=' :: r :=
    fun _ _ _ _ hr => ⟨_, (string_eq_success hr).2⟩
  have mark : Leaves (language.reservedOperator "=") fun _ text _ => ∃ r, text = '=' :: r :=
    (text.bind_left fun _ _ _ _ _ => id).attempt.bind_left fun _ _ _ _ _ => id
  exact .bind Built.sameOrIndented.framed_plain .sameOrIndented (fun _ => mark)
    fun _ _ _ _ _ hr hr' => hr ▸ hr'

theorem Headed.fails_assignment (h : Headed text) : Fails (assignment contextPropertyName) text := by
  intro s hs hr
  have advancing := advancing_assignment advancing_contextPropertyName
  cases hrun : assignment contextPropertyName s with
  | success a t =>
    obtain ⟨x, u, hu, hrun⟩ := bind_eq_success.mp hrun
    obtain ⟨b, v, hv, -⟩ := bind_eq_success.mp hrun
    obtain ⟨g, hrest, hgap⟩ := leaves_contextPropertyName hs hu
    obtain ⟨r, hequals⟩ := leaves_equals
      ((advancing_contextPropertyName.framed.success hu).sound hs) hv
    obtain ⟨n, hn, hspelled⟩ := spelled_of_contextPropertyName (yields_contextPropertyName hu)
    rw [hequals] at hrest hgap
    exact absurd (hr.symm.trans hrest) (h.not_assigned hspelled hn hgap)
  | failure e t => exact ⟨e, t, rfl, advancing.plain.steady.drawn_failure hrun⟩
  | stalled => exact absurd hrun (advancing.total s hs)

theorem Headed.resists (h : Headed text) : Resists text := by
  obtain ⟨c, hc, hkind⟩ := h.head
  rw [Option.mem_def] at hc
  have stops {accepts : Char → Bool} (hcolon : accepts ':' = false) (hdollar : accepts '$' = false)
      (hlow : ∀ d, Text.isLowercase d = true → accepts d = false) : Stops accepts text := by
    intro d hd
    obtain rfl : c = d := by simpa [hc] using hd
    rcases hkind with rfl | rfl | hk
    exacts [hcolon, hdollar, hlow c hk]
  have digits : Stops isDecimalDigit text :=
    stops (by decide) (by decide) fun _ => not_isDecimalDigit_of_isLowercase
  refine ⟨?_, ?_, h.fails_assignment⟩
  · refine Refuses.alt (Refuses.char fun hzero => ?_).bind
      ((Refuses.satisfy digits).label _).bind.bind
    exact absurd (digits '0' hzero) (by decide)
  · refine (Refuses.string fun ⟨r, hr⟩ => ?_).bind
    obtain rfl : ')' = c := by simpa [← hr] using hc
    simp at hkind
    exact absurd hkind (by decide)

end Headings

end ContextRoles.Source
