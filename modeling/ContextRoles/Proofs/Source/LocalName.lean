import ContextRoles.Proofs.Model.Name
import ContextRoles.Proofs.Source.Heading

/-! # The local part of an instance name

The name of an instance is read with its domain or namespace, and its id is what is left without them.
That is the local name, however it is spelled, since the marks in front of it cannot stand in it.
-/

namespace ContextRoles.Source

open Parsing Lexeme
open ContextRoles.Parsing.Parser hiding some

variable {x y z : String} {s t : State}

section Parts

/-- A local name for an instance, and the domain or namespace in front of it. -/
structure NameParts (start name : String) : Prop where
  start : IsDomain start ∨ IsMark start
  name : IsLocal Text.isLetter name

/-- The marks in names, and the hyphen of generated ids. -/
def nameMarks : List Char := [':', '#', '$', '-']

theorem IsLocal.notMem_nameMarks (h : IsLocal Text.isLetter z) : ∀ c ∈ nameMarks, c ∉ z.toList := by
  have known : (nameMarks.all fun c => !Text.isLetter c && !isWordChar c) = true := by decide
  intro c hc
  have hmark := List.all_eq_true.mp known c hc
  rw [Bool.and_eq_true, Bool.not_eq_true', Bool.not_eq_true'] at hmark
  exact notMem_of_isLocal hmark.1 hmark.2 h

theorem NameParts.localName_append (h : NameParts y z) : localName (y ++ z) = z := by
  have hash : '#' ∉ z.toList := h.name.notMem_nameMarks '#' (by decide)
  have colon : ':' ∉ z.toList := h.name.notMem_nameMarks ':' (by decide)
  have dollar : '$' ∉ z.toList := h.name.notMem_nameMarks '$' (by decide)
  rw [← String.toList_inj, localName, String.toList_ofList, String.toList_append]
  obtain ⟨c, w, hy, -, -⟩ | ⟨w, hy, hw⟩ | hy := h.start
  · rw [hy, List.append_assoc, List.singleton_append, localChars_hash hash]
  · have small : ∀ c, Text.isLowercase c = false → c ∉ w := fun c hc hm => by simp [hw c hm] at hc
    rw [hy, List.append_assoc, List.singleton_append,
      localChars_colon (small '#' (by decide)) (small ':' (by decide)) hash dollar]
  · rw [hy, List.singleton_append, localChars_dollar hash colon]

end Parts

section Reading

/-- The text begins with a word, which goes as far as it can. -/
def Longest (x : String) (text rest : List Char) : Prop :=
  text = x.toList ++ rest ∧ Stops isWordChar rest

theorem leaves_nameRest : Leaves nameRest Longest := by
  intro s x t hs hr
  have small : ∀ c ∈ s.rest.takeWhile isWordChar, isWordChar c = true :=
    List.all_eq_true.mp List.all_takeWhile
  have hrest : s.rest = s.rest.takeWhile isWordChar ++ s.rest.dropWhile isWordChar :=
    List.takeWhile_append_dropWhile.symm
  have stop := stops_dropWhile isWordChar s.rest
  have read := reads_nameRest small stop s hs hrest trivial
  cases hr.symm.trans read
  rw [State.rest_pass hrest]
  exact ⟨by simp, stop⟩

theorem leaves_joined_pair {p q : Parser String} (hf : Framed p) (h : Spends p String.toList)
    (h' : Leaves q Longest) : Leaves (joined [p, q]) Longest := by
  intro s x t hs hr
  obtain ⟨y, z, u, hy, hz, rfl⟩ := joined_pair_eq_success hr
  obtain ⟨hrest, stop⟩ := h' ((hf.success hy).sound hs) hz
  exact ⟨by rw [h hs hy, hrest, String.toList_append, List.append_assoc], stop⟩

theorem leaves_localInstanceName : Leaves localInstanceName Longest :=
  leaves_joined_pair (advancing_letters ((Advancing.satisfy _).label _)).framed (spends_kind _)
    leaves_nameRest

/-- The text begins with a name of two parts, which goes as far as it can, and a gap. -/
def Accepted (x : String) (text rest : List Char) : Prop :=
  ∃ g, ((∃ y z, x = y ++ z ∧ NameParts y z) ∧ Longest x text (g ++ rest)) ∧ Gap g rest

theorem leaves_accepted {start : Parser String} (hs : Advancing start)
    (h : Spends start String.toList) (hy : Yields start fun y => IsDomain y ∨ IsMark y) :
    Leaves (language.lexeme (attempt (joined [start, localInstanceName]))) Accepted := by
  have plain : Plain (attempt (joined [start, localInstanceName])) :=
    (plain_joined (by simpa using ⟨hs.plain, advancing_localInstanceName.plain⟩)).attempt
  refine leaves_lexeme (D := fun x text rest => (∃ y z, x = y ++ z ∧ NameParts y z) ∧
    Longest x text rest) plain.framed_plain (Leaves.attempt fun s x t hsound hr => ⟨?_, ?_⟩)
  · obtain ⟨y, z, u, hstart, hlocal, rfl⟩ := joined_pair_eq_success hr
    exact ⟨y, z, rfl, hy hstart, yields_local hlocal⟩
  · exact leaves_joined_pair hs.framed h leaves_localInstanceName hsound hr

theorem leaves_instanceName_accepted : Leaves instanceName Accepted := by
  have qualified : Leaves (qualified localInstanceName) Accepted :=
    leaves_accepted advancing_domainName spends_domainName (yields_domainName.mono fun _ => .inl)
  have prefixed : Leaves (prefixed localInstanceName) Accepted :=
    leaves_accepted advancing_namespaceMark spends_namespaceMark
      (yields_namespaceMark.mono fun _ => .inr)
  exact (qualified.alt prefixed).label _

end Reading

/-- The id of a name is its local part. A text that is read as the name of an instance begins with a
domain or a namespace and a local part, which ends where no word goes on, with white space behind it. The
name is what stands in front of the white space. Without its domain or namespace it is the local part, in
which neither the marks of names nor a hyphen stand. Every name that is spelled in this way is read, one
with a namespace where no number sign follows it. So names have one id exactly when their local parts are
equal, and no id holds a hyphen. -/
theorem localName_spelled :
    (∀ s x t, s.Sound → instanceName s = .success x t → ∃ y z g,
      s.rest = y.toList ++ (z.toList ++ (g ++ t.rest)) ∧ NameParts y z ∧
      Stops isWordChar (g ++ t.rest) ∧ Gap g t.rest ∧
      x = y ++ z ∧ localName x = z ∧ ∀ c ∈ nameMarks, c ∉ z.toList) ∧
    (∀ y z g rest, NameParts y z → Gap g rest →
      (IsDomain y ∧ Stops isWordChar (g ++ rest) ∨ Stops isNameChar (g ++ rest)) →
      Reads instanceName ((y ++ z).toList ++ g) rest (y ++ z)) ∧
    (∀ y z y' z', NameParts y z → NameParts y' z' →
      (localName (y ++ z) = localName (y' ++ z') ↔ z = z')) ∧
    ∀ s x t, instanceName s = .success x t → '-' ∉ (localName x).toList := by
  refine ⟨fun s x t hs hr => ?_, fun y z g rest h hg hstop => ?_, fun y z y' z' h h' => ?_,
    fun s x t hr => yields_hyphenless hr⟩
  · obtain ⟨g, ⟨⟨y, z, rfl, h⟩, hrest, hstop⟩, hg⟩ := leaves_instanceName_accepted hs hr
    rw [String.toList_append, List.append_assoc] at hrest
    exact ⟨y, z, g, hrest, h, hstop, hg, rfl, h.localName_append, h.name.notMem_nameMarks⟩
  · rcases hstop with ⟨hy, hstop⟩ | hstop
    · exact reads_instanceName_of_domain hy h.name hg hstop
    · exact reads_instanceName ⟨y, z, rfl, h.start, h.name⟩ hg hstop
  · rw [h.localName_append, h'.localName_append]

def likeDomain : String := "model:Foo -- :B"

def behindLikeDomain : State where
  rest := []
  offset := 15
  size := 15
  position := ⟨1, 16⟩
  consumed := true

theorem localName_spelled_overlapping :
    (State.start likeDomain).Sound ∧
    instanceName (State.start likeDomain) = .success "model:Foo" behindLikeDomain ∧
    (∃ y z g, likeDomain.toList = y.toList ++ (z.toList ++ (g ++ [])) ∧ NameParts y z ∧
      Stops isWordChar (g ++ []) ∧ Gap g [] ∧ "model:Foo" = y ++ z ∧ localName "model:Foo" = z ∧
      ∀ c ∈ nameMarks, c ∉ z.toList) ∧
    '-' ∉ (localName "model:Foo").toList ∧
    (NameParts "model:" "Foo" ∧ NameParts "model:Zaak#" "Foo") ∧
    localName ("model:" ++ "Foo") = localName ("model:Zaak#" ++ "Foo") ∧
    (Gap [' '] ['#'] ∧ IsDomain "model:Zaak#" ∧ Stops isWordChar [' ', '#']) ∧
    Reads instanceName (("model:Zaak#" ++ "Foo").toList ++ [' ']) ['#'] ("model:Zaak#" ++ "Foo") := by
  obtain ⟨spelled, reads, same, hyphenless⟩ := localName_spelled
  have hsound := State.sound_start likeDomain
  have hr : instanceName (State.start likeDomain) = .success "model:Foo" behindLikeDomain := by
    decide +kernel
  have foo : IsLocal Text.isLetter "Foo" :=
    ⟨'F', "oo".toList, rfl, by decide, List.all_eq_true.mp (by decide)⟩
  have mark : IsMark "model:" := .inl ⟨"model".toList, rfl, List.all_eq_true.mp (by decide)⟩
  have domain : IsDomain "model:Zaak#" :=
    ⟨'Z', "aak".toList, rfl, by decide, List.all_eq_true.mp (by decide)⟩
  have parts : NameParts "model:" "Foo" := ⟨.inr mark, foo⟩
  have parts' : NameParts "model:Zaak#" "Foo" := ⟨.inl domain, foo⟩
  have hg : Gap [' '] ['#'] := .blank (by decide) (.nil (by decide))
  have hstop : Stops isWordChar [' ', '#'] := by decide
  exact ⟨hsound, hr, spelled _ _ _ hsound hr, hyphenless _ _ _ hr, ⟨parts, parts'⟩,
    (same _ _ _ _ parts parts').mpr rfl, ⟨hg, domain, hstop⟩,
    reads _ _ _ _ parts' hg (.inl ⟨domain, hstop⟩)⟩

end ContextRoles.Source
