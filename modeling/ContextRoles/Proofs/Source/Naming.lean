import ContextRoles.Proofs.Parsing.Totality
import ContextRoles.Source.Name

/-! # The spelling of names

A name that is read consists of a domain or a namespace and of a local part. Its characters are those
of words and a few marks, so neither the name nor the id made of it holds a hyphen.
-/

namespace ContextRoles.Source

open Parsing Parser Lexeme

section Shapes

/-- A character that may stand in a name after the first one of a part. -/
def isWordChar (c : Char) : Bool := Text.isAlphanumeric c || ['_', '\''].contains c

def IsWord (x : String) : Prop := ∀ c ∈ x.toList, isWordChar c = true

/-- A word that begins with a character of some kind. -/
def IsLocal (first : Char → Bool) (x : String) : Prop :=
  ∃ c w, x.toList = c :: w ∧ first c = true ∧ ∀ d ∈ w, isWordChar d = true

/-- `model:`, a word with a capital and a number sign. -/
def IsDomain (x : String) : Prop :=
  ∃ c w, x.toList = "model:".toList ++ c :: w ++ ['#'] ∧ Text.isUppercase c = true ∧
    ∀ d ∈ w, isWordChar d = true

/-- Small letters and a colon, or a dollar sign. -/
def IsMark (x : String) : Prop :=
  (∃ w, x.toList = w ++ [':'] ∧ ∀ d ∈ w, Text.isLowercase d = true) ∨ x.toList = ['$']

/-- A local part after its domain or namespace. -/
def IsName (first : Char → Bool) (x : String) : Prop :=
  ∃ y z, x = y ++ z ∧ (IsDomain y ∨ IsMark y) ∧ IsLocal first z

end Shapes

section Yields

theorem yields_letters {p : Parser Char} {V : Char → Prop} (h : Yields p V) :
    Yields (letters p) fun x => ∃ c, x.toList = [c] ∧ V c :=
  h.map fun c hc => ⟨c, by simp, hc⟩

theorem join_cons (x : String) (xs : List String) : String.join (x :: xs) = x ++ String.join xs := by
  rw [← String.toList_inj]
  simp

theorem yields_joined_nil : Yields (joined []) (· = "") := by
  rintro s a t hr
  obtain ⟨b, ⟨⟩, rfl⟩ := map_eq_success.mp hr
  rfl

theorem yields_joined_cons {p : Parser String} {ps : List (Parser String)} {V W : String → Prop}
    (h : Yields p V) (h' : Yields (joined ps) W) :
    Yields (joined (p :: ps)) fun x => ∃ y z, x = y ++ z ∧ V y ∧ W z := by
  intro s a t hr
  obtain ⟨as, has, rfl⟩ := map_eq_success.mp hr
  obtain ⟨b, u, hb, hr'⟩ := bind_eq_success.mp has
  obtain ⟨bs, hbs, rfl⟩ := map_eq_success.mp hr'
  exact ⟨b, String.join bs, join_cons _ _, h hb, h' (map_eq_success.mpr ⟨bs, hbs, rfl⟩)⟩

theorem joined_pair_eq_success {p q : Parser String} {s t : State} {x : String}
    (h : joined [p, q] s = .success x t) :
    ∃ y z u, p s = .success y u ∧ q u = .success z t ∧ x = y ++ z := by
  obtain ⟨xs, hxs, rfl⟩ := map_eq_success.mp h
  obtain ⟨y, u, hy, hr⟩ := bind_eq_success.mp hxs
  obtain ⟨ys, hys, rfl⟩ := map_eq_success.mp hr
  obtain ⟨z, v, hz, hr⟩ := bind_eq_success.mp hys
  obtain ⟨zs, ⟨⟩, rfl⟩ := map_eq_success.mp hr
  exact ⟨y, z, u, hy, hz, by simp⟩

theorem yields_joined_pair {p q : Parser String} {V W : String → Prop} (h : Yields p V)
    (h' : Yields q W) : Yields (joined [p, q]) fun x => ∃ y z, x = y ++ z ∧ V y ∧ W z := by
  intro s x t hr
  obtain ⟨y, z, u, hy, hz, rfl⟩ := joined_pair_eq_success hr
  exact ⟨y, z, rfl, h hy, h' hz⟩

theorem yields_identifierLetter :
    Yields language.identifierLetter fun x => ∃ c, x.toList = [c] ∧ isWordChar c = true :=
  yields_letters (((Yields.satisfy _).label _ |>.mono fun c hc => by simp [isWordChar, hc]).alt
    ((Yields.satisfy _).mono fun c hc => by
      unfold isWordChar
      rw [hc, Bool.or_true]))

theorem isWord_join {xs : List String} (h : ∀ x ∈ xs, IsWord x) : IsWord (String.join xs) := by
  intro c hc
  rw [String.toList_join, List.mem_flatMap] at hc
  obtain ⟨x, hx, hc⟩ := hc
  exact h x hx c hc

theorem yields_nameRest : Yields nameRest IsWord :=
  yields_identifierLetter.many.map fun xs hxs => isWord_join fun x hx d hd => by
    obtain ⟨c, hc, hcw⟩ := hxs x hx
    rw [hc, List.mem_singleton] at hd
    exact hd ▸ hcw

theorem yields_local {accepts : Char → Bool} {name : String} :
    Yields (joined [letters (label (satisfy accepts) name), nameRest]) (IsLocal accepts) :=
  (yields_joined_pair (yields_letters ((Yields.satisfy _).label _)) yields_nameRest).mono <| by
    rintro x ⟨y, z, rfl, ⟨c, hy, hc⟩, hz⟩
    exact ⟨c, z.toList, by simp [hy], hc, hz⟩

theorem yields_domainName : Yields domainName IsDomain := by
  refine (yields_joined_cons (.string _) (yields_joined_cons
    (yields_letters ((Yields.satisfy _).label _)) (yields_joined_cons yields_nameRest
    (yields_joined_cons (yields_letters ((Yields.satisfy _).label _)) yields_joined_nil)))).mono ?_
  rintro x ⟨y, z, rfl, rfl, u, z, rfl, ⟨c, hu, hc⟩, w, z, rfl, hw, v, z, rfl, ⟨d, hv, hd⟩, rfl⟩
  obtain rfl : d = '#' := by simpa using hd
  exact ⟨c, w.toList, by simp [hu, hv], hc, hw⟩

theorem yields_namespaceMark : Yields namespaceMark IsMark := by
  refine .alt ((yields_joined_pair (V := fun x => ∀ d ∈ x.toList, Text.isLowercase d = true)
    ?_ (yields_letters ((Yields.satisfy _).label _))).mono ?_) ((Yields.string _).mono ?_)
  · exact ((Yields.satisfy _).label _).many.map fun cs hcs => by simpa using hcs
  · rintro x ⟨y, z, rfl, hy, c, hz, hc⟩
    obtain rfl : c = ':' := by simpa using hc
    exact .inl ⟨y.toList, by simp [hz], hy⟩
  · rintro x rfl
    exact .inr rfl

theorem yields_lexeme {α : Type} {p : Parser α} {V : α → Prop} (h : Yields p V) :
    Yields (language.lexeme p) V := h.skip

theorem yields_qualified {p : Parser String} {first : Char → Bool} (h : Yields p (IsLocal first)) :
    Yields (qualified p) (IsName first) :=
  yields_lexeme (((yields_joined_pair yields_domainName h).mono
    fun _ ⟨y, z, hx, hy, hz⟩ => ⟨y, z, hx, .inl hy, hz⟩).attempt)

theorem yields_prefixed {p : Parser String} {first : Char → Bool} (h : Yields p (IsLocal first)) :
    Yields (prefixed p) (IsName first) :=
  yields_lexeme (((yields_joined_pair yields_namespaceMark h).mono
    fun _ ⟨y, z, hx, hy, hz⟩ => ⟨y, z, hx, .inr hy, hz⟩).attempt)

theorem yields_propertyName : Yields propertyName (IsName Text.isLowercase) :=
  (((yields_qualified yields_local).label _).alt ((yields_prefixed yields_local).label _)).label _

theorem yields_resourceName : Yields resourceName (IsName Text.isUppercase) :=
  ((yields_qualified yields_local).alt (yields_prefixed yields_local)).label _

theorem yields_instanceName : Yields instanceName (IsName Text.isLetter) :=
  ((yields_qualified yields_local).alt (yields_prefixed yields_local)).label _

end Yields

section Hyphens

/-- A text without a hyphen. -/
def Hyphenless (x : String) : Prop := '-' ∉ x.toList

instance (x : String) : Decidable (Hyphenless x) := inferInstanceAs (Decidable (¬ _))

theorem Hyphenless.append {x y : String} (h : Hyphenless x) (h' : Hyphenless y) :
    Hyphenless (x ++ y) := by
  simp only [Hyphenless, String.toList_append, List.mem_append, not_or]
  exact ⟨h, h'⟩

theorem ne_hyphen_of_isWordChar {c : Char} (h : isWordChar c = true) : c ≠ '-' := by
  rintro rfl
  exact absurd h (by decide)

theorem IsLocal.hyphenless {first : Char → Bool} (hf : first '-' = false) {x : String}
    (h : IsLocal first x) : Hyphenless x := by
  obtain ⟨c, w, hx, hc, hw⟩ := h
  rw [Hyphenless, hx, List.mem_cons, not_or]
  constructor
  · rintro rfl
    exact absurd hc (by simp [hf])
  · exact fun hm => ne_hyphen_of_isWordChar (hw _ hm) rfl

theorem IsDomain.hyphenless {x : String} (h : IsDomain x) : Hyphenless x := by
  obtain ⟨c, w, hx, hc, hw⟩ := h
  have hword : '-' ∉ w := fun hm => ne_hyphen_of_isWordChar (hw _ hm) rfl
  have hcapital : '-' ≠ c := by
    rintro rfl
    exact absurd hc (by decide)
  rw [Hyphenless, hx]
  simp [hword, hcapital]

theorem IsMark.hyphenless {x : String} (h : IsMark x) : Hyphenless x := by
  rcases h with ⟨w, hx, hw⟩ | hx
  · have hword : '-' ∉ w := fun hm => absurd (hw _ hm) (by decide)
    rw [Hyphenless, hx]
    simp [hword]
  · rw [Hyphenless, hx]
    decide

theorem IsName.hyphenless {first : Char → Bool} (hf : first '-' = false) {x : String}
    (h : IsName first x) : Hyphenless x := by
  obtain ⟨y, z, rfl, hy, hz⟩ := h
  exact (hy.elim IsDomain.hyphenless IsMark.hyphenless).append (hz.hyphenless hf)

theorem mem_of_mem_localChars {c : Char} {x : List Char} (h : c ∈ localChars x) : c ∈ x := by
  have last : c ∈ afterLast '#' x → c ∈ x := fun hc => by
    rw [afterLast, List.mem_reverse] at hc
    exact List.mem_reverse.mp ((List.takeWhile_sublist _).mem hc)
  have first : c ∈ afterFirst ':' x → c ∈ x := fun hc => by
    unfold afterFirst at hc
    split at hc
    · exact (List.dropWhile_sublist _).mem (List.mem_of_mem_drop hc)
    · exact hc
  unfold localChars at h
  split at h
  · exact last h
  · split at h
    next rest hrest => exact first (hrest ▸ List.mem_cons_of_mem _ h)
    · exact first h

theorem Hyphenless.localName {x : String} (h : Hyphenless x) : Hyphenless (localName x) :=
  fun hm => h (mem_of_mem_localChars (by simpa [ContextRoles.localName] using hm))

theorem yields_hyphenless : Yields instanceName fun x => Hyphenless (localName x) :=
  yields_instanceName.mono fun _ hx => (hx.hyphenless (by decide)).localName

end Hyphens

end ContextRoles.Source
