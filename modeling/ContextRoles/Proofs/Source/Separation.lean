import ContextRoles.Proofs.Parsing.Extension
import ContextRoles.Proofs.Source.Gap
import ContextRoles.Proofs.Source.Totality
import Mathlib.Data.List.Basic

/-! # White space where more text follows

What is skipped in front of a lexeme is a gap. A gap that ends with the text goes on where a new line
follows, so a lexeme that is accepted by itself is read with all that separates it from the next line.
-/

namespace ContextRoles.Source

open Parsing Lexeme
open ContextRoles.Parsing.Parser hiding some

variable {α : Type} {p q : Parser α} {c : Char} {g g' rest tail text w x z : List Char}

section Skipping

theorem Gap.eq_nil (h : Gap [] text) (hz : ∀ c ∈ text.head?, c = '\n') : text = [] := by
  cases text with
  | nil => rfl
  | cons d text =>
    obtain rfl := hz d rfl
    exact absurd (h.solid.blank '\n' rfl) (by decide)

theorem gap_of_whiteSpace {s t : State} (hs : s.Sound)
    (hr : language.whiteSpace s = .success () t) : ∃ g, s.rest = g ++ t.rest ∧ Gap g t.rest := by
  obtain ⟨g, rest, hrest, hg, rfl⟩ := (Language.whiteSpace_eq_success hs.placed).mp hr
  rw [State.rest_pass hrest]
  exact ⟨g, hrest, hg⟩

end Skipping

section Lines

/-- The text is at its end or at the end of a line. -/
def EndsLine (text : List Char) : Prop := ∀ c ∈ text.head?, c = '\n'

theorem EndsLine.stops {accepts : Char → Bool} (h : EndsLine text) (hn : accepts '\n' = false) :
    Stops accepts text := fun c hc => h c hc ▸ hn

theorem EndsLine.notMem (h : EndsLine text) (hn : '\n' ∉ w) : ∀ c ∈ text.head?, c ∉ w :=
  fun c hc => h c hc ▸ hn

/-- Two marks do not come together where the line ends between two texts. -/
def Parted (text z : List Char) : Prop := EndsLine z ∨ text.getLast? = some '\n'

theorem Parted.of_append (h : Parted (w ++ text) z) (ht : text ≠ []) : Parted text z :=
  h.imp_right fun h => by rwa [List.getLast?_append_of_ne_nil w ht] at h

theorem Parted.prefix_of_prefix {a b : Char} (h : Parted text z) (ht : text ≠ []) (ha : a ≠ '\n')
    (hb : b ≠ '\n') (hp : [a, b] <+: text ++ z) : [a, b] <+: text := by
  rcases h with hz | hend
  · exact prefix_of_prefix_append hp (hz.notMem (by simp [Ne.symm ha, Ne.symm hb]))
  · match text with
    | [] => exact absurd rfl ht
    | [c] =>
      obtain rfl : c = '\n' := by simpa using hend
      exact absurd (List.cons_prefix_cons.mp hp).1 ha
    | c :: d :: text => exact List.prefix_of_prefix_length_le hp (List.prefix_append _ _) (by simp)

theorem Solid.append (h : Solid text) (ht : text ≠ []) (hz : Parted text z) : Solid (text ++ z) := by
  obtain ⟨blank, line, comment⟩ := solid_iff.mp h
  refine solid_iff.mpr ⟨fun c hc => ?_, fun hp => line (hz.prefix_of_prefix ht (by decide) (by decide) hp),
    fun hp => comment (hz.prefix_of_prefix ht (by decide) (by decide) hp)⟩
  cases text with
  | nil => exact absurd rfl ht
  | cons d text => exact blank c hc

theorem drop_append_of_isPrefixOf (h : w.isPrefixOf text = true) :
    (text ++ z).drop w.length = text.drop w.length ++ z :=
  List.drop_append_of_le_length (List.isPrefixOf_iff_prefix.mp h).length_le

theorem isPrefixOf_append_of_le (h : w.length ≤ text.length) :
    w.isPrefixOf (text ++ z) = w.isPrefixOf text := by
  rw [Bool.eq_iff_iff, List.isPrefixOf_iff_prefix, List.isPrefixOf_iff_prefix]
  exact ⟨fun hw => List.prefix_of_prefix_length_le hw (List.prefix_append _ _) h,
    fun hw => hw.trans (List.prefix_append _ _)⟩

theorem afterComment_append {depth : Nat}
    (h : afterComment "\x7b-".toList "-\x7d".toList true depth text = some rest) :
    afterComment "\x7b-".toList "-\x7d".toList true depth (text ++ z) = some (rest ++ z) := by
  have marks : ∀ c d text, "-\x7d".toList.isPrefixOf (c :: d :: text ++ z) =
      "-\x7d".toList.isPrefixOf (c :: d :: text) ∧ "\x7b-".toList.isPrefixOf (c :: d :: text ++ z) =
      "\x7b-".toList.isPrefixOf (c :: d :: text) := fun c d text =>
    ⟨isPrefixOf_append_of_le (by simp), isPrefixOf_append_of_le (by simp)⟩
  induction depth, text using afterComment.induct "\x7b-".toList "-\x7d".toList true with
  | case1 text =>
    rw [afterComment] at h ⊢
    cases h
    rfl
  | case2 depth => simp [afterComment] at h
  | case3 depth c text hc ih =>
    rw [afterComment, if_pos hc] at h
    cases text with
    | nil => simp at hc
    | cons d text =>
      rw [List.cons_append, afterComment, ← List.cons_append, (marks c d text).1, if_pos hc,
        drop_append_of_isPrefixOf hc]
      exact ih h
  | case4 depth c text hc ho ih =>
    rw [afterComment, if_neg hc, if_pos ho] at h
    cases text with
    | nil => simp at ho
    | cons d text =>
      rw [List.cons_append, afterComment, ← List.cons_append, (marks c d text).1, if_neg hc,
        (marks c d text).2, if_pos ho, drop_append_of_isPrefixOf (by simpa using ho)]
      exact ih h
  | case5 depth c text hc ho ih =>
    rw [afterComment, if_neg hc, if_neg ho] at h
    cases text with
    | nil => simp [afterComment] at h
    | cons d text =>
      rw [List.cons_append, afterComment, ← List.cons_append, (marks c d text).1, if_neg hc,
        (marks c d text).2, if_neg ho]
      exact ih h

theorem Gap.append (h : Gap g rest) (hr : rest ≠ []) (hz : Parted rest z) : Gap g (rest ++ z) := by
  induction h using Gap.induction with
  | nil h => exact .nil (h.append hr hz)
  | blank hc _ ih => exact .blank hc (ih hr hz)
  | line hx _ ih => exact .line hx (ih hr hz)
  | last hx => exact absurd rfl hr
  | @comment x g rest hx _ ih =>
    refine .comment ?_ (ih hr hz)
    have := afterComment_append (z := z) hx
    simpa only [List.append_assoc] using this

/-- A gap goes on into the next one, unless a line comment at its end would take the next one in. -/
theorem Gap.join_of (h : Gap g []) (h' : Gap g' tail)
    (hz : EndsLine (g' ++ tail) ∨ g = [] ∨ g.getLast? = some '\n') : Gap (g ++ g') tail := by
  generalize hrest : ([] : List Char) = rest at h
  induction h using Gap.induction with
  | nil _ => exact h'
  | @blank c g rest hc _ ih =>
    refine .blank hc (ih ?_ hrest)
    rcases hz with hz | hz | hz
    · exact .inl hz
    · cases hz
    · cases g with
      | nil => exact .inr (.inl rfl)
      | cons d g => exact .inr (.inr (by simpa using hz))
  | @line x g rest hx hg ih =>
    have := ih (hz.imp_right fun hz => .inr (by
      rw [List.getLast?_append_cons] at hz
      simpa using hz)) hrest
    rw [List.append_assoc, List.cons_append]
    exact .line hx this
  | @last x hx =>
    have hends : EndsLine (g' ++ tail) := by
      rcases hz with hz | hz | hz
      · exact hz
      · simp at hz
      · have hmem := List.mem_of_getLast? hz
        rw [List.mem_append] at hmem
        exact absurd hmem (by simpa using hx)
    cases g' with
    | nil =>
      obtain rfl := h'.eq_nil hends
      rw [List.append_nil]
      exact .last hx
    | cons c g' =>
      obtain rfl : c = '\n' := hends c rfl
      exact .line hx h'
  | @comment x g rest hx _ ih =>
    subst hrest
    have hcomment := afterComment_append (z := g' ++ tail) hx
    rw [List.append_assoc]
    refine .comment ?_ (ih ?_ rfl)
    · simpa only [List.append_nil, List.append_assoc] using hcomment
    · rcases hz with hz | hz | hz
      · exact .inl hz
      · simp at hz
      · cases g with
        | nil => exact .inr (.inl rfl)
        | cons d g =>
          rw [List.getLast?_append_cons] at hz
          exact .inr (.inr hz)

theorem Gap.join (h : Gap g []) (h' : Gap g' tail) (hz : EndsLine (g' ++ tail)) :
    Gap (g ++ g') tail := h.join_of h' (.inl hz)

end Lines

section Lexemes

variable {Q : List Char → Prop}

theorem extends_whiteSpace (hz : EndsLine z) :
    Parser.Extends Q (· ≠ []) [] z language.whiteSpace := by
  intro s a t hs _ hr ht
  obtain ⟨g, hg, hgap⟩ := gap_of_whiteSpace hs hr
  rw [← List.append_nil g] at hg
  exact ⟨g, by simpa using hg, by simpa using (hgap.append ht (.inl hz)).reads⟩

theorem extends_whiteSpace_end (h : Gap g tail) (hz : EndsLine (g ++ tail)) :
    Parser.Extends Q (· = []) g tail language.whiteSpace := by
  intro s a t hs _ hr ht
  obtain ⟨w, hw, hgap⟩ := gap_of_whiteSpace hs hr
  rw [ht] at hgap
  exact ⟨w, hw, ht ▸ (hgap.join h hz).reads⟩

theorem extends_lexeme (hp : Framed p) (h : Parser.Extends Q (fun _ => True) [] (g ++ tail) p)
    (hg : Gap g tail) (hz : EndsLine (g ++ tail)) :
    Parser.Extends Q (· = []) g tail (language.lexeme p) :=
  .bind hp h (fun _ => (extends_whiteSpace_end hg hz).map _) (fun _ _ _ _ _ _ _ => trivial)
    (by simp)

theorem stillRefuses_lexeme (hp : Plain p) (h : StillRefuses Q z p) (h' : Parser.Extends Q Q [] z p) :
    StillRefuses Q z (language.lexeme p) :=
  .bind hp (fun _ => Language.plain_whiteSpace.map _) h h' fun _ =>
    (StillRefuses.map (.manyFrom language.separation []) _).map _

end Lexemes

end ContextRoles.Source
