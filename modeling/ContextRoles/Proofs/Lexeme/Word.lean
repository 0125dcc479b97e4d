import ContextRoles.Proofs.Lexeme.Lookup
import ContextRoles.Proofs.Parsing.Accumulation
import ContextRoles.Proofs.Parsing.Reading

/-! # The longest word decides

An identifier is the longest word at the cursor, provided that it is not reserved. A reserved word or
operator is read only where it is the longest run of its characters. So of an identifier and a reserved
word, and of two reserved operators, at most one is read in one place.
-/

namespace ContextRoles.Lexeme

open Parsing
open ContextRoles.Parsing.Parser hiding some
open Text (quote)

/-- `w` is the longest beginning of a text that has a property. -/
structure Longest (P : List Char → Prop) (text w : List Char) : Prop where
  begins : w <+: text
  holds : P w
  longest : ∀ v, v <+: text → P v → v.length ≤ w.length

/-- A character that may begin a word, with characters that may follow in one. -/
inductive WordOf (first next : Char → Bool) : List Char → Prop where
  | intro {c : Char} {w : List Char} : first c = true → (∀ d ∈ w, next d = true) →
      WordOf first next (c :: w)

section Longest

variable {P : List Char → Prop} {accepts first next : Char → Bool} {c : Char}
  {v w text : List Char}

theorem Longest.unique (h : Longest P text v) (h' : Longest P text w) : v = w := by
  have hlength : v.length = w.length :=
    Nat.le_antisymm (h'.longest v h.begins h.holds) (h.longest w h'.begins h'.holds)
  rw [List.prefix_iff_eq_take.mp h.begins, List.prefix_iff_eq_take.mp h'.begins, hlength]

theorem prefix_takeWhile (h : v <+: text) (hv : ∀ c ∈ v, accepts c = true) :
    v <+: text.takeWhile accepts := by
  obtain ⟨r, rfl⟩ := h
  rw [List.takeWhile_append_of_pos hv]
  exact List.prefix_append v _

theorem longest_takeWhile (accepts : Char → Bool) (text : List Char) :
    Longest (fun v => ∀ c ∈ v, accepts c = true) text (text.takeWhile accepts) where
  begins := List.takeWhile_prefix accepts
  holds := List.all_eq_true.mp List.all_takeWhile
  longest _ hv hall := (prefix_takeWhile hv hall).length_le

theorem longest_run_iff : Longest (fun v => ∀ c ∈ v, accepts c = true) text w ↔
    w = text.takeWhile accepts :=
  ⟨fun h => h.unique (longest_takeWhile accepts text), fun h => h ▸ longest_takeWhile accepts text⟩

theorem longest_run_append_iff (hv : ∀ c ∈ v, accepts c = true) (r : List Char) :
    Longest (fun v => ∀ c ∈ v, accepts c = true) (v ++ r) v ↔
      ∀ c ∈ r.head?, accepts c = false := by
  rw [longest_run_iff, List.takeWhile_append_of_pos hv, List.self_eq_append_right]
  cases r with
  | nil => simp
  | cons c r => simp [List.takeWhile_cons]

theorem longest_word (hc : first c = true) (text : List Char) :
    Longest (WordOf first next) (c :: text) (c :: text.takeWhile next) where
  begins := List.cons_prefix_cons.mpr ⟨rfl, List.takeWhile_prefix next⟩
  holds := .intro hc (longest_takeWhile next text).holds
  longest v hv hword := by
    cases hword with
    | intro _ hw =>
      exact Nat.succ_le_succ ((longest_takeWhile next text).longest _ (List.cons_prefix_cons.mp hv).2 hw)

theorem longest_word_iff : Longest (WordOf first next) text w ↔
    ∃ c r, text = c :: r ∧ first c = true ∧ w = c :: r.takeWhile next := by
  constructor
  · intro h
    obtain ⟨r, hr⟩ := h.begins
    cases hword : h.holds with
    | @intro c v hc _ => exact ⟨c, v ++ r, hr.symm, hc, h.unique (hr ▸ longest_word hc (v ++ r))⟩
  · rintro ⟨c, r, rfl, hc, rfl⟩
    exact longest_word hc r

end Longest

section Takes

variable {α β : Type} {p q : Parser α} {f : Char → α} {accepts accepts' : Char → Bool}
  {c : Char} {w rest : List Char}

/-- `p` reads one character with a property, as a value made of it, and refuses everything else. -/
structure Takes (p : Parser α) (f : Char → α) (accepts : Char → Bool) : Prop where
  reads : ∀ c rest, accepts c = true → Reads p [c] rest (f c)
  refuses : ∀ s : State, s.Placed → (∀ c ∈ s.rest.head?, accepts c = false) → RefusesAt p s

namespace Takes

theorem satisfy (accepts : Char → Bool) : Takes (Parser.satisfy accepts) id accepts :=
  ⟨fun _ _ hc => Reads.satisfy hc, fun _ _ h => .satisfy h⟩

theorem label (h : Takes p f accepts) (name : String) : Takes (p.label name) f accepts :=
  ⟨fun c rest hc => (h.reads c rest hc).label name,
    fun s hs hstop => .label (h.refuses s.checkpoint hs hstop) name⟩

theorem refuses_text (h : Takes p f accepts) (hstop : ∀ c ∈ rest.head?, accepts c = false) :
    Refuses p rest := by
  rintro s hs rfl
  exact h.refuses s hs.placed hstop

theorem alt (h : Takes p f accepts) (h' : Takes q f accepts') :
    Takes (Parser.alt p q) f fun c => accepts c || accepts' c where
  reads c rest hc := by
    cases hp : accepts c with
    | true => exact (h.reads c rest hp).alt_left
    | false =>
      have hq : accepts' c = true := by simpa [hp] using hc
      exact .alt_right (h.refuses_text (by simpa using hp)) (h'.reads c rest hq)
  refuses s hs hstop :=
    .alt (h.refuses s.checkpoint hs fun c hc => (Bool.or_eq_false_iff.mp (hstop c hc)).1)
      (h'.refuses s.checkpoint hs fun c hc => (Bool.or_eq_false_iff.mp (hstop c hc)).2)

theorem map (h : Takes p f accepts) (g : α → β) : Takes (Parser.map g p) (g ∘ f) accepts :=
  ⟨fun c rest hc => (h.reads c rest hc).map g, fun s hs hstop => (h.refuses s hs hstop).map g⟩

theorem char (c : Char) : Takes (Parser.char c) id (· == c) := (satisfy _).label _

theorem oneOf (chars : List Char) : Takes (Parser.oneOf chars) id chars.contains := satisfy _

theorem letters {p : Parser Char} (h : Takes p id accepts) :
    Takes (Lexeme.letters p) String.singleton accepts := h.map _

theorem many (h : Takes p f accepts) (hw : ∀ c ∈ w, accepts c = true)
    (hstop : ∀ c ∈ rest.head?, accepts c = false) : Reads (Parser.many p) w rest (w.map f) :=
  .many_chars hw h.reads (h.refuses_text hstop)

end Takes

end Takes

theorem takes_identifierStart : Takes (letters (Parser.alt .letter (.char '_'))) String.singleton
    fun c => Text.isLetter c || c == '_' :=
  (((Takes.satisfy _).label _).alt (.char '_')).letters

theorem takes_identifierLetter :
    Takes (letters (Parser.alt .alphanumeric (.oneOf ['_', '\'']))) String.singleton
      fun c => Text.isAlphanumeric c || ['_', '\''].contains c :=
  (((Takes.satisfy _).label _).alt (.oneOf _)).letters

section Words

variable {p q next : Parser String} {accepts first : Char → Bool} {c : Char} {w rest : List Char}
  {name : String} {s : State}

theorem join_singletons (w : List Char) :
    String.join (w.map String.singleton) = String.ofList w := by
  rw [← String.toList_inj, String.toList_join]
  induction w with
  | nil => rfl
  | cons c w ih => simpa using ih

theorem reads_word (hp : Takes p String.singleton first) (hq : Takes q String.singleton accepts)
    (hc : first c = true) (hw : ∀ d ∈ w, accepts d = true)
    (hstop : ∀ d ∈ rest.head?, accepts d = false) :
    Reads (Language.word p q) (c :: w) rest (String.ofList (c :: w)) := by
  have both := (hp.reads c (w ++ rest) hc).bind
    (f := fun c => (Parser.many q).map fun cs => c ++ String.join cs)
    ((hq.many hw hstop).map fun cs => String.singleton c ++ String.join cs)
  have hvalue : String.singleton c ++ String.join (w.map String.singleton) =
      String.ofList (c :: w) := by
    rw [join_singletons, ← String.toList_inj]
    simp
  rwa [hvalue] at both

/-- What stands behind a reserved word or operator: none of the characters that would make it longer. -/
def ending (next : Parser String) (name : String) : Parser Unit :=
  label (notFollowedBy next) s!"end of {quote name}"

theorem reads_ending (hstop : Fails next rest) : Reads (ending next name) [] rest () :=
  (Reads.notFollowedBy hstop).label _

theorem reads_whole {spelling : Parser String} (h : Reads spelling w rest name)
    (hstop : Fails next rest) : Reads (attempt (spelling.skip (ending next name))) w rest name := by
  have longest : Reads (ending next name) [] rest () := reads_ending hstop
  have both := h.skip (w := []) longest
  rw [List.append_nil] at both
  exact both.attempt

theorem refuses_whole (hn : name ≠ "") (h : Reads next [c] rest (String.singleton c)) :
    Refuses (attempt ((Parser.string name).skip (ending next name))) (name.toList ++ c :: rest) := by
  have longer : Refuses (ending next name) (c :: rest) := (Refuses.notFollowedBy h).label _
  exact .attempt (Fails.bind_right (.string hn) (longer.map _).fails)

theorem refusesAt_whole (h : ¬ name.toList <+: s.rest) :
    RefusesAt (attempt ((Parser.string name).skip (ending next name))) s :=
  .attempt (RefusesAt.string h).bind.failsAt

/-- From `s` on, `p` reads the text with a property, and fails without a trace where there is none. -/
structure ReadsJust (p : Parser String) (s : State) (P : List Char → Prop) : Prop where
  reads : ∀ w, P w → p s = .success (String.ofList w) (s.pass w)
  refuses : (∀ w, ¬ P w) → ∃ e t, p s = .failure e t ∧ t.consumed = s.consumed

theorem ReadsJust.of_success {P : List Char → Prop} {x : String} {t : State} (h : ReadsJust p s P)
    (hr : p s = .success x t) : ∃ w, P w ∧ x = String.ofList w ∧ t = s.pass w := by
  by_cases hP : ∃ w, P w
  · obtain ⟨w, hw⟩ := hP
    rw [h.reads w hw] at hr
    cases hr
    exact ⟨w, hw, rfl, rfl⟩
  · obtain ⟨e, u, hu, -⟩ := h.refuses fun w hw => hP ⟨w, hw⟩
    rw [hu] at hr
    cases hr

theorem readsJust_whole (hnext : Takes next String.singleton accepts) (hn : name ≠ "")
    (hall : ∀ c ∈ name.toList, accepts c = true) (hs : s.Placed) :
    ReadsJust (attempt ((Parser.string name).skip (ending next name))) s fun w =>
      Longest (fun v => ∀ c ∈ v, accepts c = true) s.rest w ∧ w = name.toList := by
  have hne : name.toList ≠ [] := by simpa using hn
  constructor
  · rintro w ⟨hrun, rfl⟩
    obtain ⟨r, hr⟩ := hrun.begins
    have hs : s.Sound := hs.sound_or.resolve_right fun hnil =>
      hne (List.append_eq_nil_iff.mp (hr.trans hnil)).1
    have hstop := (longest_run_append_iff hall r).mp (hr ▸ hrun)
    rw [String.ofList_toList]
    exact reads_whole (.string hn) (hnext.refuses_text hstop).fails s hs hr.symm trivial
  · intro hnot
    by_cases hp : name.toList <+: s.rest
    · obtain ⟨r, hr⟩ := hp
      have hs : s.Sound := hs.sound_or.resolve_right fun hnil =>
        hne (List.append_eq_nil_iff.mp (hr.trans hnil)).1
      have hlonger : ¬ ∀ c ∈ r.head?, accepts c = false := fun hstop =>
        hnot _ ⟨hr ▸ (longest_run_append_iff hall r).mpr hstop, rfl⟩
      cases r with
      | nil => exact absurd nofun hlonger
      | cons c r =>
        have hc : accepts c = true := by simpa using hlonger
        obtain ⟨e, t, ht, hset, -⟩ := refuses_whole hn (hnext.reads c r hc) s hs hr.symm
        exact ⟨e, t, ht, hset⟩
    · obtain ⟨e, t, ht, hset, -⟩ := refusesAt_whole hp
      exact ⟨e, t, ht, hset⟩

end Words

namespace Language

variable {lang : Language} {first next opFirst opNext : Char → Bool} {s : State}

/-- Words and operators are read character by character. -/
structure Charwise (lang : Language) (first next opFirst opNext : Char → Bool) : Prop where
  identifierStart : Takes lang.identifierStart String.singleton first
  identifierLetter : Takes lang.identifierLetter String.singleton next
  operatorStart : Takes lang.operatorStart String.singleton opFirst
  operatorLetter : Takes lang.operatorLetter String.singleton opNext

variable (lang)

def checked (name : String) : Parser String :=
  if lang.isReservedName name then unexpected s!"reserved word {quote name}" else Parser.pure name

/-- An identifier, without what separates it from the next lexeme. -/
def bareIdentifier : Parser String :=
  attempt ((label (word lang.identifierStart lang.identifierLetter) "identifier").bind lang.checked)

/-- A reserved word, without what separates it from the next lexeme. -/
def bareReserved (name : String) : Parser String :=
  let spelled := if lang.caseSensitive then Parser.string name else anyCase name
  attempt (spelled.skip (ending lang.identifierLetter name))

/-- A reserved operator, without what separates it from the next lexeme. -/
def bareReservedOperator (name : String) : Parser String :=
  attempt ((Parser.string name).skip (ending lang.operatorLetter name))

theorem identifier_eq : lang.identifier = lang.lexeme lang.bareIdentifier := rfl

theorem reserved_eq (name : String) : lang.reserved name = lang.lexeme (lang.bareReserved name) := rfl

theorem reservedOperator_eq (name : String) :
    lang.reservedOperator name = lang.lexeme (lang.bareReservedOperator name) := rfl

variable {lang}

theorem bareReserved_eq (hc : lang.caseSensitive = true) (name : String) : lang.bareReserved name =
    attempt ((Parser.string name).skip (ending lang.identifierLetter name)) := by
  rw [bareReserved, if_pos hc]

theorem reads_longest_word (h : lang.Charwise first next opFirst opNext) (hc : first c = true)
    (r : List Char) :
    Reads (label (word lang.identifierStart lang.identifierLetter) "identifier")
      (c :: r.takeWhile next) (r.dropWhile next) (String.ofList (c :: r.takeWhile next)) :=
  (reads_word h.identifierStart h.identifierLetter hc (longest_takeWhile next r).holds
    fun _ => eq_false_of_head?_dropWhile).label _

theorem readsJust_bareIdentifier (h : lang.Charwise first next opFirst opNext) (hs : s.Placed) :
    ReadsJust lang.bareIdentifier s fun w =>
      Longest (WordOf first next) s.rest w ∧ lang.isReservedName (String.ofList w) = false := by
  constructor
  · rintro w ⟨hlongest, hfree⟩
    obtain ⟨c, r, hr, hc, rfl⟩ := longest_word_iff.mp hlongest
    have hs : s.Sound := hs.sound_or.resolve_right (by simp [hr])
    have pass : Reads (lang.checked (String.ofList (c :: r.takeWhile next))) [] (r.dropWhile next)
        (String.ofList (c :: r.takeWhile next)) := by
      rw [checked, if_neg (Bool.eq_false_iff.mp hfree)]
      exact .pure _
    have both := (reads_longest_word h hc r).bind (f := lang.checked) (w := []) pass
    rw [List.append_nil] at both
    exact both.attempt s hs (by simp [hr]) trivial
  · intro hnot
    suffices RefusesAt lang.bareIdentifier s by
      obtain ⟨e, t, ht, hset, -⟩ := this
      exact ⟨e, t, ht, hset⟩
    by_cases hword : ∃ c r, s.rest = c :: r ∧ first c = true
    · obtain ⟨c, r, hr, hc⟩ := hword
      have hs : s.Sound := hs.sound_or.resolve_right (by simp [hr])
      have hreserved : lang.isReservedName (String.ofList (c :: r.takeWhile next)) = true :=
        eq_true_of_ne_false fun hfree => hnot _ ⟨hr ▸ longest_word hc r, hfree⟩
      have stop : Fails (lang.checked (String.ofList (c :: r.takeWhile next))) (r.dropWhile next) := by
        rw [checked, if_pos hreserved]
        exact (Refuses.fail _).fails
      have both := Fails.bind_right (f := lang.checked) (reads_longest_word h hc r) stop
      rw [List.cons_append, List.takeWhile_append_dropWhile] at both
      exact .attempt (both s hs hr)
    · have stop : ∀ c ∈ s.rest.head?, first c = false := by
        intro c hc
        obtain ⟨r, hr⟩ := List.head?_eq_some_iff.mp hc
        simpa using fun hfirst => hword ⟨c, r, hr, hfirst⟩
      have start : RefusesAt lang.identifierStart s.checkpoint :=
        h.identifierStart.refuses s.checkpoint hs stop
      exact .attempt (start.bind.label _).bind.failsAt

theorem identifier_or_reserved (h : lang.Charwise first next opFirst opNext) (hs : s.Placed)
    {name x y : String} {t u : State} (hn : name ≠ "") (hall : ∀ c ∈ name.toList, next c = true)
    (hcase : lang.caseSensitive = true) (hreserved : lang.isReservedName name = true)
    (hx : lang.bareIdentifier s = .success x t) : lang.bareReserved name s ≠ .success y u := by
  intro hy
  obtain ⟨w, ⟨hw, hfree⟩, -, -⟩ := (readsJust_bareIdentifier h hs).of_success hx
  rw [bareReserved_eq hcase] at hy
  obtain ⟨v, ⟨hv, rfl⟩, -, -⟩ :=
    (readsJust_whole h.identifierLetter hn hall hs).of_success hy
  obtain ⟨c, r, hr, -, rfl⟩ := longest_word_iff.mp hw
  have hrun : name.toList = (c :: r).takeWhile next := hr ▸ longest_run_iff.mp hv
  have hc : next c = true := by
    by_cases hc : next c = true
    · exact hc
    · rw [List.takeWhile_cons_of_neg hc] at hrun
      exact absurd (by simpa using hrun) hn
  rw [List.takeWhile_cons_of_pos hc] at hrun
  rw [← hrun, String.ofList_toList, hreserved] at hfree
  cases hfree

theorem reservedOperator_unique (h : lang.Charwise first next opFirst opNext) (hs : s.Placed)
    {a b x y : String} {t u : State} (ha : a ≠ "") (hb : b ≠ "")
    (ha' : ∀ c ∈ a.toList, opNext c = true) (hb' : ∀ c ∈ b.toList, opNext c = true)
    (hx : lang.bareReservedOperator a s = .success x t)
    (hy : lang.bareReservedOperator b s = .success y u) : a = b := by
  obtain ⟨v, ⟨hv, rfl⟩, -, -⟩ := (readsJust_whole h.operatorLetter ha ha' hs).of_success hx
  obtain ⟨w, ⟨hw, rfl⟩, -, -⟩ := (readsJust_whole h.operatorLetter hb hb' hs).of_success hy
  exact String.toList_inj.mp (hv.unique hw)

/-- Which words and operators are read in a language whose characters are told by predicates. A name is
looked up correctly. The longest word at the cursor is an identifier unless it is reserved, and a reserved
word or operator is read where it is the longest run of its characters. So what is read in one place is
never both an identifier and a reserved word, nor two reserved operators. Where none is read the flag
stays as it was. -/
theorem words_exact (lang : Language) (h : lang.Charwise first next opFirst opNext) :
    (∀ name, lang.isReservedName name = true ↔ lang.key name ∈ lang.reservedNames.map lang.key) ∧
    lang.identifier = lang.lexeme lang.bareIdentifier ∧
    (∀ name, lang.reserved name = lang.lexeme (lang.bareReserved name)) ∧
    (∀ name, lang.reservedOperator name = lang.lexeme (lang.bareReservedOperator name)) ∧
    ∀ s : State, s.Placed →
      (ReadsJust lang.bareIdentifier s fun w =>
        Longest (WordOf first next) s.rest w ∧ lang.isReservedName (String.ofList w) = false) ∧
      (∀ name, name ≠ "" → (∀ c ∈ name.toList, next c = true) → lang.caseSensitive = true →
        (ReadsJust (lang.bareReserved name) s fun w =>
          Longest (fun v => ∀ c ∈ v, next c = true) s.rest w ∧ w = name.toList) ∧
        (lang.isReservedName name = true → ∀ x t y u,
          lang.bareIdentifier s = .success x t → lang.bareReserved name s ≠ .success y u)) ∧
      ∀ name, name ≠ "" → (∀ c ∈ name.toList, opNext c = true) →
        (ReadsJust (lang.bareReservedOperator name) s fun w =>
          Longest (fun v => ∀ c ∈ v, opNext c = true) s.rest w ∧ w = name.toList) ∧
        ∀ other, other ≠ "" → (∀ c ∈ other.toList, opNext c = true) → other ≠ name →
          ∀ x t y u, lang.bareReservedOperator name s = .success x t →
            lang.bareReservedOperator other s ≠ .success y u := by
  refine ⟨lang.isReservedName_iff, lang.identifier_eq, lang.reserved_eq, lang.reservedOperator_eq,
    fun s hs => ⟨readsJust_bareIdentifier h hs, fun name hn hall hcase => ⟨?_, ?_⟩,
      fun name hn hall => ⟨readsJust_whole h.operatorLetter hn hall hs, ?_⟩⟩⟩
  · rw [bareReserved_eq hcase]
    exact readsJust_whole h.identifierLetter hn hall hs
  · exact fun hreserved x t y u hx => identifier_or_reserved h hs hn hall hcase hreserved hx
  · exact fun other ho hall' hne x t y u hx hy =>
      hne (reservedOperator_unique h hs ho hn hall' hall hy hx)

def conditional : Language where
  reservedNames := ["iff", "if", "else", "if"]

theorem charwise_conditional : conditional.Charwise (fun c => Text.isLetter c || c == '_')
    (fun c => Text.isAlphanumeric c || ['_', '\''].contains c) defaultOperatorChars.contains
    defaultOperatorChars.contains where
  identifierStart := takes_identifierStart
  identifierLetter := takes_identifierLetter
  operatorStart := (Takes.oneOf _).letters
  operatorLetter := (Takes.oneOf _).letters

theorem words_exact_conditional :
    conditional.caseSensitive = true ∧ (State.start "iff<=").Placed ∧
    conditional.isReservedName "iff" = true ∧
    conditional.bareReserved "iff" (State.start "iff<=") =
      .success "iff" ((State.start "iff<=").pass "iff".toList) ∧
    (∀ x t, conditional.bareIdentifier (State.start "iff<=") ≠ .success x t) ∧
    (∃ e t, conditional.bareReserved "if" (State.start "iff<=") = .failure e t ∧
      t.consumed = false) ∧
    (State.start "iffy").Placed ∧ conditional.bareIdentifier (State.start "iffy") =
      .success "iffy" ((State.start "iffy").pass "iffy".toList) := by
  obtain ⟨lookup, -, -, -, exact_⟩ := words_exact conditional charwise_conditional
  have hs := (State.sound_start "iff<=").placed
  have hs' := (State.sound_start "iffy").placed
  have hreserved : conditional.isReservedName "iff" = true := (lookup "iff").mpr (by decide)
  have hfree : conditional.isReservedName "iffy" = false :=
    Bool.eq_false_iff.mpr fun h => absurd ((lookup "iffy").mp h) (by decide)
  obtain ⟨hread, hapart⟩ := (exact_ _ hs).2.1 "iff" (by decide)
    (List.all_eq_true.mp (by decide +kernel)) rfl
  have hiff := hread.reads "iff".toList ⟨longest_run_iff.mpr (by decide +kernel), rfl⟩
  obtain ⟨hshorter, -⟩ := (exact_ _ hs).2.1 "if" (by decide)
    (List.all_eq_true.mp (by decide +kernel)) rfl
  refine ⟨rfl, hs, hreserved, hiff, fun x t hx => hapart hreserved x t _ _ hx hiff, ?_, hs', ?_⟩
  · refine hshorter.refuses fun w ⟨hw, hname⟩ => ?_
    rw [hname, longest_run_iff] at hw
    exact absurd hw (by decide +kernel)
  · exact (exact_ _ hs').1.reads "iffy".toList
      ⟨longest_word_iff.mpr ⟨'i', "ffy".toList, by decide, by decide +kernel, by decide +kernel⟩, hfree⟩

end Language

end ContextRoles.Lexeme
