import ContextRoles.Artifact.LaxChecks
import ContextRoles.Proofs.Model.OrderedMap

/-! # Lax checks let values of the right types pass -/

namespace ContextRoles.Artifact.LaxChecks

theorem checkTexts_arr (texts : List String) : checkTexts (.arr (texts.map .str)) = .ok texts := by
  have items : ∀ first, checkItems checkText first (texts.map .str) = .ok texts := by
    induction texts with
    | nil => exact fun _ => rfl
    | cons text texts ih =>
      intro first
      rw [List.map_cons, checkItems, ih]
      rfl
  exact items 0

theorem checkTextLists_obj (lists : OrderedMap (List String)) :
    checkTextLists (.obj (lists.entries.map fun (name, texts) => (name, .arr (texts.map .str)))) =
      .ok lists := by
  have members : ∀ entries : List (String × List String), checkMembers checkTexts
      (entries.map fun (name, texts) => (name, .arr (texts.map .str))) = .ok entries := by
    intro entries
    induction entries with
    | nil => rfl
    | cons entry entries ih =>
      rw [List.map_cons, checkMembers, ih, checkTexts_arr]
      rfl
  rw [checkTextLists, members]
  exact congrArg _ lists.ofList_entries

instance : LawfulFieldChecks where
  check_encode
    | .text, _ => rfl
    | .optionalText, none => rfl
    | .optionalText, some _ => rfl
    | .optionalInteger, none => rfl
    | .optionalInteger, some _ => rfl
    | .texts, texts => checkTexts_arr texts
    | .textLists, lists => checkTextLists_obj lists

end ContextRoles.Artifact.LaxChecks
