import ContextRoles.Proofs.Lexeme.Totality
import ContextRoles.Proofs.Lexeme.Trivia
import ContextRoles.Proofs.Lexeme.Word

/-! # Reserved words in any case

Where case does not matter, a reserved word is compared with as many characters as its name has. Lowering
makes a dotted capital I into two characters and leaves the length of everything else as it is. So a word
that differs from a name in case only is as long as the name, and is read, unless one of the two has more
dotted capitals than the other.
-/

namespace ContextRoles.Text

/-- Two spellings that differ in case only. -/
def Alike (name : String) (w : List Char) : Prop := lower (String.ofList w) = lower name

instance (name : String) (w : List Char) : Decidable (Alike name w) :=
  inferInstanceAs (Decidable (_ = _))

theorem length_lowerChar (c : Char) :
    (lowerChar c).length = 1 + if c == 'İ' then 1 else 0 := by
  by_cases hc : c = 'İ'
  · rw [hc]
    rfl
  · have hn : c.toNat ≠ 0x130 := fun h => hc (Char.toNat_inj.mp h)
    rw [lowerChar, if_neg hn, if_neg (by simpa using hc)]
    rfl

theorem length_lowerAfter (before w : List Char) :
    (lowerAfter before w).length = w.length + w.count 'İ' := by
  induction w generalizing before with
  | nil => rfl
  | cons c w ih =>
    rw [lowerAfter, List.length_append, ih]
    -- A sigma is the only character whose small form depends on where it stands.
    split
    next hc =>
      have hne : c ≠ 'İ' := by
        rintro rfl
        exact absurd hc (by decide)
      rw [List.count_cons_of_ne hne, List.length_singleton, List.length_cons]
      omega
    · rw [length_lowerChar, List.length_cons, List.count_cons]
      omega

theorem length_lower (w : List Char) :
    (lower (String.ofList w)).length = w.length + w.count 'İ' := by
  rw [lower, String.length_ofList, String.toList_ofList, length_lowerAfter]

theorem Alike.length_add_count {name : String} {w : List Char} (h : Alike name w) :
    w.length + w.count 'İ' = name.length + name.toList.count 'İ' := by
  rw [← length_lower, h, ← name.ofList_toList, length_lower, String.toList_ofList,
    String.length_ofList]

end ContextRoles.Text

namespace ContextRoles.Lexeme

open Parsing
open ContextRoles.Parsing.Parser hiding some
open Text (Alike quote)

section Ending

variable {next : Parser String} {name : String} {s t : State}

theorem attempt_eq_success {α : Type} {p : Parser α} {x : α} :
    attempt p s = .success x t ↔ p s = .success x t := by
  unfold attempt
  cases p s <;> simp

theorem notFollowedBy_eq_success {x : Unit} : notFollowedBy next s = .success x t ↔
    ∃ e u, next s = .failure e u ∧ s.rewindFrom u = t := by
  unfold notFollowedBy
  constructor
  · intro h
    cases hr : next s with
    | failure e u =>
      rw [hr] at h
      cases h
      exact ⟨e, u, rfl, rfl⟩
    | _ => simp [hr] at h
  · rintro ⟨e, u, hr, rfl⟩
    rw [hr]

theorem ending_eq_success {x : Unit} : ending next name s = .success x t ↔
    ∃ e u, next s.checkpoint = .failure e u ∧ s.rewindFrom u = t := by
  constructor
  · intro h
    rcases alt_success h with ⟨v, hv, rfl⟩ | ⟨e, v, u, -, -, hu, -⟩
    · obtain ⟨e, u, hu, rfl⟩ := notFollowedBy_eq_success.mp hv
      exact ⟨e, u, hu, by simp [State.checkpoint, State.withConsumed, State.rewindFrom]⟩
    · cases hu
  · rintro ⟨e, u, hu, rfl⟩
    have hread : notFollowedBy next s.checkpoint = .success x (s.checkpoint.rewindFrom u) :=
      notFollowedBy_eq_success.mpr ⟨e, u, hu, rfl⟩
    rw [ending, label, alt, hread]
    simp [Outcome.merge, Outcome.mapState, State.checkpoint, State.withConsumed, State.rewindFrom]

end Ending

namespace Language

variable {lang : Language} {name x : String} {s t : State} {w : List Char}

/-- Whether a text is as long as a name that it differs from in case only. -/
def Keeps (name : String) (w : List Char) : Prop := Alike name w → w.length = name.length

theorem keeps_iff : Keeps name w ↔ (Alike name w → w.count 'İ' = name.toList.count 'İ') := by
  refine forall_congr' fun h => ?_
  have hlength := h.length_add_count
  omega

theorem anyCase_eq_success : anyCase name s = .success x t ↔
    Alike name (s.rest.take name.length) ∧ name = x ∧ s.advance name.length = t := by
  unfold anyCase Text.Alike
  split <;> simp [*]

theorem bareReserved_eq_success (hc : lang.caseSensitive = false) :
    lang.bareReserved name s = .success x t ↔ Alike name (s.rest.take name.length) ∧ name = x ∧
      ∃ e u, lang.identifierLetter (s.advance name.length).checkpoint = .failure e u ∧
        (s.advance name.length).rewindFrom u = t := by
  have hword : lang.bareReserved name = attempt ((anyCase name).skip
      (ending lang.identifierLetter name)) := by
    rw [bareReserved, if_neg (Bool.eq_false_iff.mp hc)]
  rw [hword, attempt_eq_success, Parser.skip, bind_eq_success]
  constructor
  · rintro ⟨y, u, hy, hu⟩
    obtain ⟨halike, rfl, rfl⟩ := anyCase_eq_success.mp hy
    obtain ⟨_, hend, rfl⟩ := map_eq_success.mp hu
    exact ⟨halike, rfl, ending_eq_success.mp hend⟩
  · rintro ⟨halike, rfl, hend⟩
    exact ⟨name, _, anyCase_eq_success.mpr ⟨halike, rfl, rfl⟩,
      map_eq_success.mpr ⟨(), ending_eq_success.mpr hend, rfl⟩⟩

theorem reserved_eq_success : lang.reserved name s = .success x t ↔
    ∃ u, lang.bareReserved name s = .success x u ∧ lang.whiteSpace u = .success () t := by
  rw [reserved_eq, lexeme, Parser.skip, bind_eq_success]
  constructor
  · rintro ⟨y, u, hu, ht⟩
    obtain ⟨_, hspace, rfl⟩ := map_eq_success.mp ht
    exact ⟨u, hu, hspace⟩
  · rintro ⟨u, hu, hspace⟩
    exact ⟨x, u, hu, map_eq_success.mpr ⟨(), hspace, rfl⟩⟩

/-- A word at the cursor, with no letter behind it. -/
structure Whole (lang : Language) (s : State) (w : List Char) : Prop where
  begins : w <+: s.rest
  nonempty : w ≠ []
  stops : FailsAt lang.identifierLetter (s.pass w).checkpoint

theorem Whole.advance_eq (h : lang.Whole s w) : s.advance w.length = s.pass w := by
  obtain ⟨r, hr⟩ := h.begins
  exact State.advance_eq_pass h.nonempty hr.symm

theorem Whole.bareReserved_iff (h : lang.Whole s w) (hc : lang.caseSensitive = false) :
    lang.bareReserved name s = .success name (s.pass w) ↔ Alike name w ∧ w.length = name.length := by
  have htake : s.rest.take w.length = w := (List.prefix_iff_eq_take.mp h.begins).symm
  rw [bareReserved_eq_success hc]
  constructor
  · rintro ⟨halike, -, e, u, -, hu⟩
    have hoffset : s.offset + name.length = s.offset + w.length := congrArg State.offset hu
    have hlength : w.length = name.length := by omega
    exact ⟨by rwa [← hlength, htake] at halike, hlength⟩
  · rintro ⟨halike, hlength⟩
    obtain ⟨e, u, hu, hd⟩ := h.stops
    rw [← hlength, htake, h.advance_eq]
    exact ⟨halike, rfl, e, u, hu, State.rewindFrom_eq_self hd⟩

theorem bareIdentifier_reserved
    (h : label (word lang.identifierStart lang.identifierLetter) "identifier" s =
      .success (String.ofList w) (s.pass w))
    (hreserved : lang.isReservedName (String.ofList w) = true) :
    lang.bareIdentifier s =
      .failure ⟨.unexpected s!"reserved word {quote (String.ofList w)}", (s.pass w).position⟩
        ((s.pass w).withConsumed s.consumed) := by
  simp only [bareIdentifier, attempt, Parser.bind, h, checked, if_pos hreserved, unexpected, fail]

theorem isReservedName_iff_alike (hc : lang.caseSensitive = false) :
    lang.isReservedName (String.ofList w) = true ↔ ∃ name ∈ lang.reservedNames, Alike name w := by
  have hkey : lang.key = Text.lower := by
    funext name
    rw [key, if_neg (Bool.eq_false_iff.mp hc)]
  rw [isReservedName_iff, hkey, List.mem_map]
  simp only [Text.Alike, eq_comm]

theorem sound_of_bareReserved (hc : lang.caseSensitive = false) (hs : s.Sound)
    (hkeep : Keeps name (s.rest.take name.length)) (hr : lang.bareReserved name s = .success x t) :
    t.Sound := by
  obtain ⟨halike, -, e, u, -, rfl⟩ := (bareReserved_eq_success hc).mp hr
  have hlength := hkeep halike
  rw [List.length_take] at hlength
  have hle : name.length ≤ s.rest.length := by omega
  exact ((State.Reaches.advance hle).sound hs).rewindFrom u

theorem stops_of_bareReserved {next : Char → Bool} (hc : lang.caseSensitive = false) (hs : s.Sound)
    (hnext : Takes lang.identifierLetter String.singleton next)
    (hr : lang.bareReserved name s = .success x t) : ∀ c ∈ t.rest.head?, next c = false := by
  obtain ⟨-, -, e, u, hu, rfl⟩ := (bareReserved_eq_success hc).mp hr
  intro c hhead
  obtain ⟨r, hr⟩ := List.head?_eq_some_iff.mp hhead
  have hdrop : s.rest.drop name.length = c :: r := hr
  have hle : name.length ≤ s.rest.length := by
    have hlength := congrArg List.length hdrop
    rw [List.length_drop, List.length_cons] at hlength
    omega
  refine Bool.eq_false_iff.mpr fun hletter => ?_
  have read := hnext.reads c r hletter _ ((State.Reaches.advance hle).sound hs).checkpoint hdrop trivial
  rw [hu] at read
  cases read

/-- Reserved words where case does not matter. What is read is alike to the name and not a part of a longer
word, and the cursor stays in the text. A word with no letter behind it is read where it is alike to the
name, so a word that is rejected as an identifier is read as each of the reserved names that it is alike
to. All of this holds of texts that are as long as the names that they are alike to, and those are the
ones that have as many dotted capitals. -/
theorem reserved_alike (lang : Language) (hc : lang.caseSensitive = false) :
    (∀ name w, Keeps name w ↔ (Alike name w → w.count 'İ' = name.toList.count 'İ')) ∧
    lang.identifier = lang.lexeme lang.bareIdentifier ∧
    (∀ name, lang.reserved name = lang.lexeme (lang.bareReserved name)) ∧
    ∀ s : State, s.Sound →
      (∀ name x t, lang.reserved name s = .success x t → ∃ w u, s.rest = w ++ u.rest ∧ Alike name w ∧
        lang.bareReserved name s = .success x u ∧
        (∀ next, Takes lang.identifierLetter String.singleton next →
          ∀ c ∈ u.rest.head?, next c = false) ∧
        (Keeps name w → u.offset = s.offset + w.length ∧ t.offset ≤ s.size)) ∧
      (∀ name w, lang.Whole s w → Keeps name w →
        (lang.bareReserved name s = .success name (s.pass w) ↔ Alike name w)) ∧
      ∀ w, lang.Whole s w →
        label (word lang.identifierStart lang.identifierLetter) "identifier" s =
          .success (String.ofList w) (s.pass w) →
        lang.isReservedName (String.ofList w) = true →
        (∃ e t, lang.bareIdentifier s = .failure e t ∧
          e.cause = .unexpected s!"reserved word {quote (String.ofList w)}") ∧
        (∃ name ∈ lang.reservedNames, Alike name w) ∧
        ∀ name ∈ lang.reservedNames, Alike name w → Keeps name w →
          lang.bareReserved name s = .success name (s.pass w) := by
  have read {s : State} {name : String} {w : List Char} (hw : lang.Whole s w) (hkeep : Keeps name w) :
      lang.bareReserved name s = .success name (s.pass w) ↔ Alike name w := by
    rw [hw.bareReserved_iff hc, and_iff_left_of_imp hkeep]
  refine ⟨fun _ _ => keeps_iff, lang.identifier_eq, lang.reserved_eq, fun s hs => ⟨?_,
    fun name w => read, fun w hw hread hreserved => ⟨?_, ?_, ?_⟩⟩⟩
  · intro name x t hr
    obtain ⟨u, hu, hspace⟩ := reserved_eq_success.mp hr
    obtain ⟨halike, -, e, v, -, hv⟩ := (bareReserved_eq_success hc).mp hu
    have hrest : u.rest = s.rest.drop name.length := by
      rw [← hv]
      rfl
    have hoffset : u.offset = s.offset + name.length := by
      rw [← hv]
      rfl
    refine ⟨s.rest.take name.length, u, ?_, halike, hu,
      fun _ hnext => stops_of_bareReserved hc hs hnext hu, fun hkeep => ⟨?_, ?_⟩⟩
    · rw [hrest, List.take_append_drop]
    · rw [hoffset, hkeep halike]
    · have hreach : u.Reaches t := plain_whiteSpace.framed_plain.success hspace
      have hsize : t.size = s.size := by
        rw [hreach.size_eq, ← hv]
        rfl
      have hsound := hreach.sound (sound_of_bareReserved hc hs hkeep hu)
      rw [← hsize]
      exact Nat.le.intro hsound
  · exact ⟨_, _, bareIdentifier_reserved hread hreserved, rfl⟩
  · exact (isReservedName_iff_alike hc).mp hreserved
  · exact fun name _ halike hkeep => (read hw hkeep).mpr halike

def dotted : Language where
  reservedNames := ["İl", "als"]
  caseSensitive := false

theorem reserved_alike_dotted :
    dotted.caseSensitive = false ∧ (State.start "İL x").Sound ∧
    dotted.Whole (State.start "İL x") "İL".toList ∧ Keeps "İl" "İL".toList ∧
    dotted.bareReserved "İl" (State.start "İL x") =
      .success "İl" ((State.start "İL x").pass "İL".toList) ∧
    dotted.bareReserved "als" (State.start "İL x") ≠
      .success "als" ((State.start "İL x").pass "İL".toList) ∧
    dotted.isReservedName "İL" = true ∧
    ∃ e t, dotted.bareIdentifier (State.start "İL x") = .failure e t ∧
      e.cause = .unexpected "reserved word 'İL'" := by
  obtain ⟨keeps, -, -, exact_⟩ := reserved_alike dotted rfl
  have hs := State.sound_start "İL x"
  have hr : (State.start "İL x").rest = "İL".toList ++ " x".toList := by decide
  obtain ⟨-, read, rejected⟩ := exact_ _ hs
  have hkeep : Keeps "İl" "İL".toList := (keeps _ _).mpr fun _ => by decide
  have hkeep' : Keeps "als" "İL".toList := (keeps _ _).mpr fun h => absurd h (by decide +kernel)
  have hreserved : dotted.isReservedName "İL" = true :=
    (isReservedName_iff_alike (w := "İL".toList) rfl).mpr ⟨"İl", by decide, by decide +kernel⟩
  have hwhole : dotted.Whole (State.start "İL x") "İL".toList :=
    ⟨by decide, by decide, (takes_identifierLetter.refuses _
      (hs.pass hr).checkpoint.placed (by rintro _ ⟨⟩; decide +kernel)).failsAt⟩
  have hword : Reads _ "İL".toList " x".toList "İL" := reads_word takes_identifierStart
    takes_identifierLetter (c := 'İ') (w := ['L']) (by decide +kernel)
    (List.all_eq_true.mp (by decide +kernel)) (by rintro _ ⟨⟩; decide +kernel)
  obtain ⟨⟨e, t, hfail, hcause⟩, -, -⟩ := rejected "İL".toList hwhole
    ((hword.label "identifier") _ hs hr trivial) hreserved
  refine ⟨rfl, hs, hwhole, hkeep, (read _ _ hwhole hkeep).mpr (by decide +kernel), fun h => ?_,
    hreserved, e, t, hfail, hcause.trans (by decide +kernel)⟩
  exact absurd ((read _ _ hwhole hkeep').mp h) (by decide +kernel)

/-- A language with a reserved word that is two characters where its capital is one. -/
def undotted : Language where
  reservedNames := ["i\u0307"]
  caseSensitive := false

/-- A word at the end of the text is read as a name that is longer, and the cursor ends up beyond the end.
In front of something else the word is rejected as an identifier and not read as the name either. -/
theorem not_reserved_alike_undotted :
    undotted.caseSensitive = false ∧
    ((State.start "İ").Sound ∧ ∃ t, undotted.reserved "i\u0307" (State.start "İ") =
      .success "i\u0307" t ∧ (State.start "İ").size < t.offset) ∧
    (State.start "İ ").Sound ∧ undotted.Whole (State.start "İ ") ['İ'] ∧ Alike "i\u0307" ['İ'] ∧
    (∃ e t, undotted.bareIdentifier (State.start "İ ") = .failure e t ∧
      e.cause = .unexpected "reserved word 'İ'") ∧
    ∀ x t, undotted.reserved "i\u0307" (State.start "İ ") ≠ .success x t := by
  have hs := State.sound_start "İ"
  have hs' := State.sound_start "İ "
  have hr : (State.start "İ ").rest = ['İ'] ++ [' '] := by decide
  have halike : Alike "i\u0307" ['İ'] := by decide +kernel
  have hreserved : undotted.isReservedName "İ" = true :=
    (isReservedName_iff_alike (w := ['İ']) rfl).mpr ⟨"i\u0307", by decide, halike⟩
  have hword : Reads _ ['İ'] [' '] "İ" := reads_word takes_identifierStart
    takes_identifierLetter (c := 'İ') (w := []) (by decide +kernel) nofun
    (by rintro _ ⟨⟩; decide +kernel)
  refine ⟨rfl, ⟨hs, ?_⟩, hs', ⟨by decide, by decide, ?_⟩, halike, ?_, fun x t h => ?_⟩
  · obtain ⟨e, u, hend, -⟩ := takes_identifierLetter.refuses
      ((State.start "İ").advance 2).checkpoint ⟨['İ'], rfl, rfl⟩ nofun
    have hread : undotted.bareReserved "i\u0307" (State.start "İ") =
        .success "i\u0307" (((State.start "İ").advance 2).rewindFrom u) :=
      (bareReserved_eq_success rfl).mpr ⟨by decide +kernel, rfl, e, u, hend, rfl⟩
    exact ⟨_, reserved_eq_success.mpr ⟨_, hread, whiteSpace_solid (solid_nil _)⟩, Nat.lt_add_one 1⟩
  · exact (takes_identifierLetter.refuses _
      (hs'.pass hr).checkpoint.placed (by rintro _ ⟨⟩; decide +kernel)).failsAt
  · exact ⟨_, _, bareIdentifier_reserved ((hword.label "identifier") _ hs' hr trivial)
      hreserved, by decide +kernel⟩
  · obtain ⟨u, hu, -⟩ := reserved_eq_success.mp h
    have hread : Alike "i\u0307" ['İ', ' '] := ((bareReserved_eq_success rfl).mp hu).1
    exact absurd hread (by decide +kernel)

end Language

end ContextRoles.Lexeme
