import ContextRoles.Proofs.Json.RoundTrip
import ContextRoles.Text.Split

/-! # The compact form is printable

A compact document consists of the printable characters of ASCII, so it has no line ends that reading
it from a file could change.
-/

namespace ContextRoles

open Json

def IsPlain (c : Char) : Prop := 0x20 ≤ c.toNat ∧ c.toNat ≤ 0x7E

instance (c : Char) : Decidable (IsPlain c) := inferInstanceAs (Decidable (_ ∧ _))

def PlainText (text : List Char) : Prop := ∀ c ∈ text, IsPlain c

instance (text : List Char) : Decidable (PlainText text) := List.decidableBAll IsPlain text

namespace PlainText

variable {x y : List Char}

theorem nil : PlainText [] := nofun

theorem append (h : PlainText x) (h' : PlainText y) : PlainText (x ++ y) :=
  List.forall_mem_append.mpr ⟨h, h'⟩

theorem cons {c : Char} (hc : IsPlain c) (h : PlainText x) : PlainText (c :: x) :=
  List.forall_mem_cons.mpr ⟨hc, h⟩

theorem unifyLineEnds_eq (h : PlainText x) : Text.unifyLineEnds x = x := by
  induction x with
  | nil => rfl
  | cons c x ih =>
    obtain ⟨hc, hx⟩ := List.forall_mem_cons.mp h
    have hreturn : c ≠ '\r' := by
      rintro rfl
      exact absurd hc (by decide)
    rw [Text.unifyLineEnds.eq_def]
    split
    next heq => cases heq
    next heq => exact absurd (List.cons.inj heq).1 hreturn
    next heq => exact absurd (List.cons.inj heq).1 hreturn
    next heq =>
      cases heq
      rw [ih hx]

end PlainText

section Rendering

theorem isPlain_hexDigit : ∀ d < 16, IsPlain (Text.hexDigit d) := by decide

theorem plainText_hexDigits (width n : Nat) : PlainText (Text.hexDigits width n) := by
  induction width generalizing n with
  | zero => exact .nil
  | succ width ih =>
    rw [Text.hexDigits]
    exact (ih _).append (.cons (isPlain_hexDigit _ (Nat.mod_lt _ (by decide))) .nil)

theorem plainText_unicodeEscape (n : Nat) : PlainText (JsonValue.unicodeEscape n) :=
  .cons (by decide) (.cons (by decide) (plainText_hexDigits 4 n))

theorem plainText_encodeChar (c : Char) : PlainText (JsonValue.encodeChar .compact c) := by
  cases hs : JsonValue.shortEscape? c with
  | some escape =>
    simp only [JsonValue.encodeChar, hs]
    unfold JsonValue.shortEscape? at hs
    repeat' split at hs
    all_goals cases hs
    all_goals exact .cons (by decide) (.cons (by decide) .nil)
  | none =>
    simp only [JsonValue.encodeChar, hs]
    split
    next hc => exact .cons hc .nil
    next =>
      split
      · exact plainText_unicodeEscape _
      · exact (plainText_unicodeEscape _).append (plainText_unicodeEscape _)

theorem plainText_encodeString (s : String) : PlainText (JsonValue.encodeString .compact s).toList := by
  rw [JsonValue.encodeString, String.toList_ofList]
  refine (PlainText.cons (by decide) fun c hc => ?_).append (.cons (by decide) .nil)
  obtain ⟨d, -, hd⟩ := List.mem_flatMap.mp hc
  exact plainText_encodeChar d c hd

theorem plainText_toString (n : Int) : PlainText (toString n).toList := by
  have digits : PlainText (Nat.toDigits 10 n.natAbs) := by
    intro c hc
    obtain ⟨k, hk, rfl⟩ := exists_of_isDigit (isDigit_of_mem_toDigits hc)
    have plain : ∀ k < 10, IsPlain (Char.ofNat (48 + k)) := by decide
    exact plain k hk
  rw [toString_toList]
  split
  · exact digits
  · exact .cons (by decide) digits

theorem Json.Rows.plainText {α : Type} {spells : List Char → α → Prop} {separator ending w : List Char}
    {as : List α} (hs : ∀ text a, spells text a → PlainText text) (hseparator : PlainText separator)
    (hending : PlainText ending) (h : Rows spells separator ending w as) : PlainText w := by
  induction h with
  | last ha => exact (hs _ _ ha).append hending
  | cons ha _ ih => exact (hs _ _ ha).append (hseparator.append ih)

theorem plainText_bracketed {α : Type} {opening closing : String} {o c : Char}
    (ho : opening.toList = [o]) (hc : closing.toList = [c]) (hp : IsPlain o ∧ IsPlain c) (depth : Nat)
    {text : α → String} {as : List α} (h : ∀ a ∈ as, PlainText (text a).toList) :
    PlainText (JsonValue.bracketed .compact depth opening closing (as.map text)).toList := by
  by_cases hne : as = []
  · subst hne
    simp only [JsonValue.bracketed, List.map_nil, List.isEmpty_nil, if_true, String.toList_append, ho, hc]
    exact .cons hp.1 (.cons hp.2 .nil)
  · rw [JsonValue.toList_bracketed ho hc .compact depth (by simpa using hne)]
    have rows : Rows (fun text _ => PlainText text) [','] [c] _ as := rows_bracketed hne h
    exact .cons hp.1 (rows.plainText (fun _ _ h => h) (.cons (by decide) .nil) (.cons hp.2 .nil))

theorem JsonValue.Exact.plainText {v : JsonValue} (h : v.Exact) (depth : Nat) :
    PlainText (v.renderAt .compact depth).toList := by
  induction h generalizing depth with
  | null => exact show PlainText "null".toList by decide
  | bool b =>
    cases b
    · exact show PlainText "false".toList by decide
    · exact show PlainText "true".toList by decide
  | int n => exact plainText_toString n
  | str s => exact plainText_encodeString s
  | arr _ ih =>
    rw [renderAt, renderItems_eq]
    exact plainText_bracketed rfl rfl (by decide) depth fun v hv => ih v hv (depth + 1)
  | obj _ _ ih =>
    rw [renderAt, renderMembers_eq]
    refine plainText_bracketed rfl rfl (by decide) depth fun m hm => ?_
    rw [renderMember, String.toList_append, String.toList_append]
    exact ((plainText_encodeString _).append (.cons (by decide) .nil)).append (ih m hm (depth + 1))

end Rendering

end ContextRoles
