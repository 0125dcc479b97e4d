import ContextRoles.Proofs.Parsing.Extension
import ContextRoles.Proofs.Source.Gap
import ContextRoles.Source.Assignment

/-! # Names are read as they are spelled

In front of a character that cannot continue it, a name is read up to its end. A name with a namespace
is refused as one with a domain, and an identifier is refused as a name.
-/

namespace ContextRoles.Source

open Parsing Lexeme
open ContextRoles.Parsing.Parser hiding some

variable {c : Char} {v w g rest text : List Char} {first : Char → Bool} {x y z : String}

section Parts

theorem reads_joined_nil : Reads (joined []) [] rest "" := (ReadsIf.pure _).map String.join

theorem reads_joined_cons {p : Parser String} {l : List (Parser String)} (h : Reads p v (w ++ rest) x)
    (h' : Reads (joined l) w rest y) : Reads (joined (p :: l)) (v ++ w) rest (x ++ y) := by
  intro s hs hr _
  rw [List.append_assoc] at hr
  obtain ⟨xs, hxs, rfl⟩ := map_eq_success.mp (h' (s.pass v) (hs.pass hr) (State.rest_pass hr) trivial)
  have hx : p s = .success x (s.pass v) := h s hs hr trivial
  rw [State.pass_append, joined, map_eq_success]
  exact ⟨x :: xs, bind_eq_success.mpr ⟨x, _, hx, map_eq_success.mpr ⟨xs, hxs, rfl⟩⟩, join_cons x xs⟩

theorem reads_joined_pair {p q : Parser String} (h : Reads p v (w ++ rest) x)
    (h' : Reads q w rest y) : Reads (joined [p, q]) (v ++ w) rest (x ++ y) := by
  have hq : Reads q w ([] ++ rest) y := h'
  have both := reads_joined_cons hq reads_joined_nil
  rw [List.append_nil, String.append_empty] at both
  exact reads_joined_cons h both

theorem fails_joined_cons {p : Parser String} {l : List (Parser String)} (h : Fails p text) :
    Fails (joined (p :: l)) text := (Fails.bind_left h).map _

theorem fails_joined_right {p : Parser String} {l : List (Parser String)} (h : Reads p v rest x)
    (h' : Fails (joined l) rest) : Fails (joined (p :: l)) (v ++ rest) := by
  intro s hs hr
  obtain ⟨e, t, hf, hd⟩ := h' (s.pass v) (hs.pass hr) (State.rest_pass hr)
  have hseq : Parser.sequence l (s.pass v) = .failure e t := by
    simp only [joined, Parser.map, Outcome.map] at hf
    cases hq : Parser.sequence l (s.pass v) <;> simp_all
  refine ⟨e, t, ?_, hd⟩
  simp [joined, Parser.map, Parser.sequence, Parser.bind, h s hs hr trivial, hseq, Outcome.map]

theorem refuses_joined_nil {p : Parser String} {l : List (Parser String)}
    (h : Reads p [] text x) (h' : Refuses (joined l) text) : Refuses (joined (p :: l)) text := by
  intro s hs hr
  obtain ⟨e, t, hf, hc, hd⟩ := h' s hs hr
  have hseq : Parser.sequence l s = .failure e t := by
    simp only [joined, Parser.map, Outcome.map] at hf
    cases hq : Parser.sequence l s <;> simp_all
  have hp : p s = .success x s := by
    have := h s hs hr trivial
    rwa [State.pass_nil] at this
  refine ⟨e, t, ?_, hc, hd⟩
  simp [joined, Parser.map, Parser.sequence, Parser.bind, hp, hseq, Outcome.map]

theorem reads_letters {p : Parser Char} (h : Reads p [c] rest c) :
    Reads (letters p) [c] rest (String.singleton c) := h.map _

theorem reads_nameRest (hw : ∀ c ∈ w, isWordChar c = true) (h : Stops isWordChar rest) :
    Reads nameRest w rest (String.ofList w) := by
  rw [← join_singletons]
  exact (takes_wordChar.many hw h).map _

theorem reads_local (name : String) (hx : IsLocal first x) (h : Stops isWordChar rest) :
    Reads (joined [letters (label (satisfy first) name), nameRest]) x.toList rest x := by
  obtain ⟨c, w, hxw, hc, hw⟩ := hx
  have both := reads_joined_pair (reads_letters ((Reads.satisfy hc).label name))
    (reads_nameRest hw h)
  have hvalue : String.singleton c ++ String.ofList w = x := by
    rw [← String.toList_inj, hxw]
    simp
  rw [hvalue] at both
  rwa [hxw]

theorem not_isWordChar_hash : isWordChar '#' = false := by decide

theorem reads_domainName (hx : IsDomain x) : Reads domainName x.toList rest x := by
  obtain ⟨c, w, hxw, hc, hw⟩ := hx
  have stop : Stops isWordChar ('#' :: rest) := by
    rintro d ⟨⟩
    exact not_isWordChar_hash
  have mark : Reads (letters (.char '#')) ['#'] rest "#" := reads_letters (.char '#')
  have tail := reads_joined_pair (reads_nameRest hw stop) mark
  have capital : Reads (letters .upper) [c] (w ++ ['#'] ++ rest) (String.singleton c) :=
    reads_letters ((Reads.satisfy hc).label _)
  have model : Reads (.string "model:") "model:".toList ([c] ++ (w ++ ['#']) ++ rest) "model:" :=
    Reads.string (by decide)
  have all := reads_joined_cons model (reads_joined_cons capital tail)
  have hvalue : "model:" ++ (String.singleton c ++ (String.ofList w ++ "#")) = x := by
    rw [← String.toList_inj, hxw]
    simp
  rw [hvalue] at all
  have htext : x.toList = "model:".toList ++ ([c] ++ (w ++ ['#'])) := by simp [hxw]
  rwa [htext]

theorem reads_lowers (hw : ∀ c ∈ w, Text.isLowercase c = true)
    (h : Stops Text.isLowercase rest) :
    Reads ((Parser.many .lower).map String.ofList) w rest (String.ofList w) := by
  have many := Reads.many_chars (f := id) hw (fun c rest hc => (Reads.satisfy hc).label _)
    ((Refuses.satisfy h).label "lowercase letter")
  rw [List.map_id] at many
  exact many.map _

theorem reads_namespaceMark (hx : IsMark x) : Reads namespaceMark x.toList rest x := by
  rcases hx with ⟨w, hxw, hw⟩ | hxw
  · have stop : Stops Text.isLowercase ([':'] ++ rest) := by
      rintro d ⟨⟩
      decide
    have both := reads_joined_pair (reads_lowers hw stop) (reads_letters (.char ':'))
    have hvalue : String.ofList w ++ String.singleton ':' = x := by
      rw [← String.toList_inj, hxw]
      simp
    rw [hvalue] at both
    rw [hxw]
    exact both.alt_left
  · have lowers : Reads ((Parser.many .lower).map String.ofList) [] ("$".toList ++ rest) "" := by
      refine reads_lowers nofun ?_
      rintro d ⟨⟩
      decide
    have colon : Refuses (joined [letters (.char ':')]) ("$".toList ++ rest) :=
      ((Refuses.char (by simp)).map _).bind.map _
    rw [hxw, show x = "$" from String.toList_inj.mp hxw]
    exact .alt_right (refuses_joined_nil lowers colon) (.string (by decide))

end Parts

section Names

/-- The characters that a name may go on with, in its domain too. -/
def isNameChar (c : Char) : Bool := isWordChar c || c == '#'

theorem stops_word (h : Stops isNameChar text) : Stops isWordChar text :=
  fun c hc => (Bool.or_eq_false_iff.mp (h c hc)).1

theorem hash_notMem (h : Stops isNameChar text) : '#' ∉ text.head? :=
  fun hc => absurd (h '#' hc) (by simp [isNameChar])

theorem isNameChar_of_isBlank (c : Char) (h : Text.isBlank c = true) : isNameChar c = false :=
  eq_false_of_isBlank h (by decide +kernel)

theorem Gap.stops_name (h : Gap g rest) (hr : Stops isNameChar rest) :
    Stops isNameChar (g ++ rest) :=
  h.stops hr isNameChar_of_isBlank (by decide) (by decide)

theorem takeWhile_ne_colon {w t : List Char} (hw : ':' ∉ w) :
    (w ++ ':' :: t).takeWhile (· != ':') = w := by
  rw [List.takeWhile_append_of_pos]
  · simp
  · intro c hc
    rw [bne_iff_ne]
    rintro rfl
    exact hw hc

theorem fails_domainName (hy : IsMark y) (hz : IsLocal first z) (h : Stops isNameChar rest) :
    Fails domainName (y.toList ++ (z.toList ++ rest)) := by
  by_cases hmodel : "model:".toList <+: y.toList ++ (z.toList ++ rest)
  · have hy' : y.toList = "model:".toList := by
      obtain ⟨u, hu⟩ := hmodel
      rcases hy with ⟨w, hyw, hw⟩ | hyd
      · have hcolon : ':' ∉ w := fun hm => absurd (hw _ hm) (by decide)
        rw [hyw, List.append_assoc] at hu
        have hwords := congrArg (List.takeWhile (· != ':')) hu
        rw [List.singleton_append, takeWhile_ne_colon hcolon,
          show "model:".toList ++ u = "model".toList ++ ':' :: u by simp,
          takeWhile_ne_colon (by decide)] at hwords
        rw [hyw, ← hwords]
        rfl
      · rw [hyd] at hu
        exact absurd (congrArg List.head? hu) (by simp)
    obtain ⟨c, w, hzw, -, hw⟩ := hz
    have model : Reads (.string "model:") "model:".toList (z.toList ++ rest) "model:" :=
      Reads.string (by decide)
    rw [hy']
    refine fails_joined_right model ?_
    rw [hzw]
    by_cases hc : Text.isUppercase c = true
    · have capital : Reads (letters .upper) [c] (w ++ rest) (String.singleton c) :=
        reads_letters ((Reads.satisfy hc).label _)
      have hash : Refuses (letters (.char '#')) rest := (Refuses.char (hash_notMem h)).map _
      have word := fails_joined_right (reads_nameRest hw (stops_word h))
        (fails_joined_cons (l := []) hash.fails)
      exact (fails_joined_right capital word :)
    · have capital : Refuses (letters .upper) (c :: w ++ rest) := by
        refine ((Refuses.satisfy ?_).label _).map _
        rintro d ⟨⟩
        simpa using hc
      exact fails_joined_cons capital.fails
  · exact fails_joined_cons (Refuses.string hmodel).fails

theorem refuses_qualified {p : Parser String} (h : Fails domainName text) :
    Refuses (qualified p) text := (Refuses.attempt (fails_joined_cons h)).bind

theorem reads_qualified {name : String} (hy : IsDomain y) (hz : IsLocal first z) (hg : Gap g rest)
    (h : Stops isWordChar (g ++ rest)) :
    Reads (qualified (joined [letters (label (satisfy first) name), nameRest]))
      ((y ++ z).toList ++ g) rest (y ++ z) := by
  have both := reads_joined_pair (reads_domainName hy) (reads_local name hz h)
  rw [← String.toList_append] at both
  exact hg.lexeme both.attempt

theorem reads_prefixed {name : String} (hy : IsMark y) (hz : IsLocal first z) (hg : Gap g rest)
    (h : Stops isWordChar (g ++ rest)) :
    Reads (prefixed (joined [letters (label (satisfy first) name), nameRest]))
      ((y ++ z).toList ++ g) rest (y ++ z) := by
  have both := reads_joined_pair (reads_namespaceMark hy) (reads_local name hz h)
  rw [← String.toList_append] at both
  exact hg.lexeme both.attempt

theorem refuses_qualified_of_mark {p : Parser String} (hy : IsMark y) (hz : IsLocal first z)
    (h : Stops isNameChar (g ++ rest)) :
    Refuses (qualified p) ((y ++ z).toList ++ g ++ rest) := by
  have failed := fails_domainName hy hz h
  rw [String.toList_append, List.append_assoc, List.append_assoc]
  exact refuses_qualified failed

theorem reads_propertyName (hx : IsName Text.isLowercase x) (hg : Gap g rest)
    (h : Stops isNameChar (g ++ rest)) : Reads propertyName (x.toList ++ g) rest x := by
  obtain ⟨y, z, rfl, hy | hy, hz⟩ := hx
  · exact (((reads_qualified hy hz hg (stops_word h)).label _).alt_left).label _
  · exact (Reads.alt_right ((refuses_qualified_of_mark hy hz h).label _)
      ((reads_prefixed hy hz hg (stops_word h)).label _)).label _

theorem reads_resourceName (hx : IsName Text.isUppercase x) (hg : Gap g rest)
    (h : Stops isNameChar (g ++ rest)) : Reads resourceName (x.toList ++ g) rest x := by
  obtain ⟨y, z, rfl, hy | hy, hz⟩ := hx
  · exact ((reads_qualified hy hz hg (stops_word h)).alt_left).label _
  · exact (Reads.alt_right (refuses_qualified_of_mark hy hz h)
      (reads_prefixed hy hz hg (stops_word h))).label _

theorem reads_instanceName_of_domain (hy : IsDomain y) (hz : IsLocal Text.isLetter z)
    (hg : Gap g rest) (h : Stops isWordChar (g ++ rest)) :
    Reads instanceName ((y ++ z).toList ++ g) rest (y ++ z) :=
  ((reads_qualified hy hz hg h).alt_left).label _

theorem reads_instanceName (hx : IsName Text.isLetter x) (hg : Gap g rest)
    (h : Stops isNameChar (g ++ rest)) : Reads instanceName (x.toList ++ g) rest x := by
  obtain ⟨y, z, rfl, hy | hy, hz⟩ := hx
  · exact reads_instanceName_of_domain hy hz hg (stops_word h)
  · exact (Reads.alt_right (refuses_qualified_of_mark hy hz h)
      (reads_prefixed hy hz hg (stops_word h))).label _

end Names

section Identifiers

/-- A word that begins with a letter and is not reserved. -/
def IsIdentifier (x : String) : Prop :=
  IsLocal Text.isLetter x ∧ inSorted language.reservedTable (language.key x) = false

theorem yields_identifier : Yields language.identifier IsIdentifier := by
  have word : Yields (Language.word language.identifierStart language.identifierLetter)
      (IsLocal Text.isLetter) := by
    refine (yields_letters ((Yields.satisfy _).label _)).bind_left fun x hx => ?_
    obtain ⟨c, hxc, hc⟩ := hx
    refine yields_identifierLetter.many.map fun xs hxs => ⟨c, (String.join xs).toList, ?_, hc, ?_⟩
    · rw [String.toList_append, hxc]
      rfl
    · refine isWord_join fun y hy d hd => ?_
      obtain ⟨e, hye, he⟩ := hxs y hy
      rw [hye, List.mem_singleton] at hd
      exact hd ▸ he
  refine yields_lexeme (((word.label _).bind_left fun x hx => ?_).attempt)
  split
  · exact .fail _
  next h => exact .pure ⟨hx, by simpa using h⟩

theorem reads_word (hx : IsLocal Text.isLetter x) (h : Stops isWordChar rest) :
    Reads (Language.word language.identifierStart language.identifierLetter) x.toList rest x := by
  obtain ⟨c, w, hxw, hc, hw⟩ := hx
  have start : Takes language.identifierStart String.singleton Text.isLetter :=
    ((Takes.satisfy _).label _).letters
  have read := Lexeme.reads_word start takes_wordChar hc hw h
  rwa [← hxw, String.ofList_toList] at read

theorem reads_identifier (hx : IsIdentifier x) (hg : Gap g rest) (h : Stops isWordChar (g ++ rest)) :
    Reads language.identifier (x.toList ++ g) rest x := by
  have word := (reads_word hx.1 h).label "identifier"
  have checked := word.bind (b := x) (w := []) (f := fun name =>
    if inSorted language.reservedTable (language.key name) = true then
      Parser.unexpected s!"reserved word {Text.quote name}"
    else Parser.pure name) (by
      simp only [hx.2, Bool.false_eq_true, if_false]
      exact ReadsIf.pure x)
  rw [List.append_nil] at checked
  exact hg.lexeme checked.attempt

theorem fails_namespaceMark (hd : '$' ∉ text.head?)
    (hc : ':' ∉ (text.dropWhile Text.isLowercase).head?) : Fails namespaceMark text := by
  have small : ∀ c ∈ text.takeWhile Text.isLowercase, Text.isLowercase c = true :=
    List.all_eq_true.mp List.all_takeWhile
  have colon : Refuses (letters (.char ':')) (text.dropWhile Text.isLowercase) :=
    (Refuses.char hc).map _
  have prefixed : Fails (joined [(Parser.many .lower).map String.ofList, letters (.char ':')])
      text := by
    have failed := fails_joined_right (reads_lowers small (stops_dropWhile _ text))
      (fails_joined_cons (l := []) colon.fails)
    rwa [List.takeWhile_append_dropWhile] at failed
  refine prefixed.alt (Refuses.string fun hdollar => ?_).fails
  obtain ⟨u, rfl⟩ := hdollar
  exact hd rfl

theorem refuses_propertyName (hq : Fails domainName text) (hp : Fails namespaceMark text) :
    Refuses propertyName text :=
  ((refuses_qualified hq).label _ |>.alt ((Refuses.attempt (fails_joined_cons hp)).bind.label _)).label _

theorem notMem_of_isLocal {d : Char} (hf : first d = false) (hd : isWordChar d = false)
    (hx : IsLocal first x) : d ∉ x.toList := by
  obtain ⟨c, w, hxw, hc, hw⟩ := hx
  rw [hxw, List.mem_cons, not_or]
  constructor
  · rintro rfl
    simp [hf] at hc
  · exact fun hm => absurd (hw _ hm) (by simp [hd])

theorem refuses_propertyName_identifier (hx : IsLocal Text.isLetter x)
    (h : Stops isWordChar text) (hl : Stops Text.isLowercase text) (hc : ':' ∉ text.head?) :
    Refuses propertyName (x.toList ++ text) := by
  have hcolon : ':' ∉ x.toList :=
    notMem_of_isLocal (by decide) (by decide) hx
  refine refuses_propertyName (fails_joined_cons (Refuses.string fun hmodel => ?_).fails)
    (fails_namespaceMark ?_ ?_)
  · have hinside := prefix_of_prefix_append hmodel fun c hm hmem => ?_
    · exact hcolon (hinside.subset (by decide))
    · have hword : isWordChar c = false := h c hm
      have hne : c ≠ ':' := by
        rintro rfl
        exact hc hm
      have known : ("model:".toList.all fun c => isWordChar c || c == ':') = true := by
        decide
      simpa [hword, hne] using List.all_eq_true.mp known c hmem
  · obtain ⟨c, w, hxw, hletter, -⟩ := hx
    rw [hxw]
    rintro ⟨⟩
    exact absurd hletter (by decide)
  · intro hm
    have hmem : ':' ∈ x.toList ∨ ':' ∈ text.head? := by
      rw [List.dropWhile_append] at hm
      split at hm
      · have hstop : text.dropWhile Text.isLowercase = text := by
          cases text with
          | nil => rfl
          | cons c text => rw [List.dropWhile_cons_of_neg (by simp [hl c rfl])]
        rw [hstop] at hm
        exact .inr hm
      next hne =>
        refine .inl ((List.dropWhile_sublist Text.isLowercase).mem ?_)
        cases hrest : x.toList.dropWhile Text.isLowercase with
        | nil => simp [hrest] at hne
        | cons c r =>
          rw [hrest] at hm
          cases hm
          exact List.mem_cons_self
    exact hmem.elim hcolon hc

theorem reads_contextPropertyName (hx : IsName Text.isLowercase x ∨ IsIdentifier x)
    (hg : Gap g ('=' :: rest)) :
    Reads contextPropertyName (x.toList ++ g) ('=' :: rest) x := by
  have stop : ∀ accepts : Char → Bool, accepts '=' = false → Stops accepts ('=' :: rest) := by
    rintro accepts h c ⟨⟩
    exact h
  rcases hx with hx | hx
  · exact (reads_propertyName hx hg (hg.stops_name (stop _ (by decide)))).alt_left
  · have words := hg.stops_word (stop _ (by decide))
    refine Reads.alt_right ?_ (reads_identifier hx hg words)
    rw [List.append_assoc]
    refine refuses_propertyName_identifier hx.1 words ?_ ?_
    · exact hg.stops (stop _ (by decide))
        (fun _ hc => eq_false_of_isBlank hc (by decide +kernel)) (by decide) (by decide)
    · have colon : Stops (· == ':') (g ++ '=' :: rest) := hg.stops (stop _ (by decide))
        (fun _ hc => eq_false_of_isBlank (f := (· == ':')) hc (by decide)) (by decide)
        (by decide)
      exact fun hc => absurd (colon ':' hc) (by decide)

end Identifiers

section Keywords

/-- Whether a name begins with a word as if the word stood before it. -/
def LedBy (word name : String) : Prop :=
  ∃ rest, name.toList = word.toList ++ rest ∧ Stops isWordChar rest

theorem exists_mark (hx : IsName first x) : ':' ∈ x.toList ∨ '$' ∈ x.toList := by
  obtain ⟨y, z, rfl, ⟨c, w, hy, -, -⟩ | ⟨w, hy, -⟩ | hy, -⟩ := hx
  · exact .inl (by simp [hy])
  · exact .inl (by simp [hy])
  · exact .inr (by simp [hy])

theorem refuses_reserved_name (hn : x ≠ "") (hw : IsWord x) (hy : IsName first y)
    (hl : ¬ LedBy x y) : Refuses (language.reserved x) (y.toList ++ text) := by
  by_cases hprefix : x.toList <+: y.toList ++ text
  · rcases List.prefix_or_prefix_of_prefix hprefix (List.prefix_append _ _) with ⟨r, hr⟩ | hlong
    · cases r with
      | nil => exact absurd ⟨[], hr.symm, nofun⟩ hl
      | cons c r =>
        by_cases hc : isWordChar c = true
        · rw [← hr, List.append_assoc]
          exact refuses_reserved_word hn hc
        · refine absurd ⟨c :: r, hr.symm, ?_⟩ hl
          rintro d ⟨⟩
          simpa using hc
    · rcases exists_mark hy with hm | hm
      · exact absurd (hw _ (hlong.subset hm)) (by decide)
      · exact absurd (hw _ (hlong.subset hm)) (by decide)
  · exact refuses_reserved hprefix

end Keywords

end ContextRoles.Source
