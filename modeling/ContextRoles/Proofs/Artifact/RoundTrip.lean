import ContextRoles.Artifact.Decoding
import ContextRoles.Proofs.Artifact.LaxChecks
import ContextRoles.Proofs.Json.RoundTrip

/-! # Artifacts are read back as they were written

The records of a collection hold no doubles and no key twice, and each is decoded to the entity that it
was made of by every check that lets values of the right types pass. The entities go back under their
keys, in their order, when the keys are their ids.
-/

namespace ContextRoles

namespace Artifact

open JsonValue

section Encoding

theorem exact_textItems (texts : List String) : (textItems texts).Exact :=
  .arr (by simpa using fun s _ => .str s)

theorem exact_textLists (lists : OrderedMap (List String)) : (textLists lists).Exact := by
  refine .obj (fun m hm => ?_) ?_
  · obtain ⟨entry, -, rfl⟩ := List.mem_map.mp hm
    exact exact_textItems entry.2
  · simpa [Function.comp_def] using lists.nodup

theorem exact_optionalMember {α : Type} {f : α → JsonValue} (hf : ∀ a, (f a).Exact) (name : String)
    (a : Option α) : ∀ m ∈ optionalMember name f a, m.2.Exact := by
  cases a with
  | none => exact nofun
  | some a => simpa [optionalMember] using hf a

theorem exact_encodeRole (r : Role) : (encodeRole r).Exact := by
  refine .obj ?_ ?_
  · simp only [List.forall_mem_append]
    refine ⟨⟨?_, exact_optionalMember .str _ _⟩, exact_optionalMember .int _ _⟩
    simpa using ⟨.str _, .str _, .str _, .str _, exact_textLists _, exact_textLists _⟩
  · cases r.binding <;> cases r.occurrence <;> simp [optionalMember]

theorem exact_encodeInnerRole (r : InnerRole) : (encodeInnerRole r).Exact := by
  refine .obj ?_ ?_
  · rw [List.forall_mem_append]
    refine ⟨?_, exact_optionalMember .str _ _⟩
    simpa using ⟨.str _, exact_textLists _⟩
  · cases r.binding <;> simp [optionalMember]

theorem exact_encodeContext (c : Context) : (encodeContext c).Exact :=
  .obj (by simpa using ⟨.str _, .str _, .str _, exact_encodeInnerRole _, .str _, exact_textItems _⟩)
    (by simp)

theorem exact_encodeEntity (e : Entity) : (encodeEntity e).Exact := by
  cases e with
  | role r => exact exact_encodeRole r
  | context c => exact exact_encodeContext c

theorem exact_encode (c : Collection) : (encode c).Exact := by
  have entities : (JsonValue.arr (c.entities.values.map encodeEntity)).Exact :=
    .arr (by simpa using fun e _ => exact_encodeEntity e)
  exact .obj (by simpa using ⟨.str _, .str _, entities⟩) (by simp)

end Encoding

section Members

variable {members : Members} {name : String}

theorem member?_nil (name : String) : member? [] name = none := rfl

theorem member?_cons (m : String × JsonValue) (members : Members) (name : String) :
    member? (m :: members) name = if name = m.1 then some m.2 else member? members name := by
  by_cases h : name = m.1
  · rw [if_pos h, h]
    exact List.lookup_cons_self
  · rw [if_neg h, member?, List.lookup_cons, beq_false_of_ne h]
    rfl

theorem member?_append (x y : Members) (name : String) :
    member? (x ++ y) name = (member? x name).or (member? y name) := List.lookup_append

theorem member?_optionalMember {α : Type} (f : α → JsonValue) (a : Option α) (key name : String) :
    member? (optionalMember key f a) name = if name = key then a.map f else none := by
  cases a with
  | none => exact (ite_self _).symm
  | some a => exact member?_cons _ _ _

end Members

section Decoding

theorem bind_ok {α β : Type} (a : α) (f : α → Decoded β) : (Except.ok a >>= f) = f a := rfl

variable [FieldChecks] [LawfulFieldChecks]

theorem field_encode (name : String) (type : FieldType) (a : type.Value) :
    field name type (type.encode a) = .ok a := by
  rw [field, LawfulFieldChecks.check_encode]
  rfl

theorem field_text (name s : String) : field name .text (.str s) = .ok s := field_encode name .text s

theorem field_optionalText (name : String) (a : Option String) :
    field name .optionalText ((a.map .str).getD .null) = .ok a := field_encode name .optionalText a

theorem field_optionalInteger (name : String) (a : Option Int) :
    field name .optionalInteger ((a.map .int).getD .null) = .ok a :=
  field_encode name .optionalInteger a

theorem field_texts (name : String) (texts : List String) :
    field name .texts (textItems texts) = .ok texts := field_encode name .texts texts

theorem field_textLists (name : String) (lists : OrderedMap (List String)) :
    field name .textLists (textLists lists) = .ok lists := field_encode name .textLists lists

theorem decodeInnerRole_encodeInnerRole (r : InnerRole) :
    decodeInnerRole (encodeInnerRole r) = .ok r := by
  simp only [decodeInnerRole, encodeInnerRole, fieldsOf, bind_ok, required, optionalField,
    member?_append, member?_cons, member?_nil, member?_optionalMember, String.reduceEq, if_true,
    if_false, Option.some_or, Option.none_or, Option.getD_some, field_text, field_optionalText,
    field_textLists]
  rfl

theorem decodeEntity_role (r : Role) : decodeEntity (encodeRole r) = .ok (.role r) := by
  simp only [decodeEntity, decodeRole, encodeRole, fieldsOf, bind_ok, required, optionalField,
    member?_append, member?_cons, member?_nil, member?_optionalMember, String.reduceEq, if_true,
    if_false, Option.none_or, Option.or_none, Option.getD_some, field_text, field_optionalText,
    field_textLists, field_optionalInteger]
  rfl

theorem decodeEntity_context (c : Context) : decodeEntity (encodeContext c) = .ok (.context c) := by
  simp only [decodeEntity, decodeContext, encodeContext, fieldsOf, bind_ok, required, optionalField,
    member?_cons, String.reduceEq, if_true, if_false, Option.getD_some, field_text, field_texts,
    decodeInnerRole_encodeInnerRole]
  rfl

theorem decodeEntity_encodeEntity (e : Entity) : decodeEntity (encodeEntity e) = .ok e := by
  cases e with
  | role r => exact decodeEntity_role r
  | context c => exact decodeEntity_context c

theorem decodeEntities_map (entries : List (String × Entity)) (m : OrderedMap Entity)
    (h : ∀ entry ∈ entries, entry.1 = entry.2.id) :
    decodeEntities ((entries.map Prod.snd).map encodeEntity) m = .ok (m.insertAll entries) := by
  induction entries generalizing m with
  | nil => rfl
  | cons entry entries ih =>
    rw [List.forall_mem_cons] at h
    simp only [List.map_cons, decodeEntities, decodeEntity_encodeEntity, bind_ok, ih _ h.2, ← h.1]
    rfl

theorem decode_encode {c : Collection} (h : ∀ entry ∈ c.entities.entries, entry.1 = entry.2.id) :
    decode (encode c) = .ok c := by
  have entities := decodeEntities_map c.entities.entries .empty h
  rw [← OrderedMap.ofList_eq, OrderedMap.ofList_entries] at entities
  simp only [decode, decodeCollection, encode, formatVersion, optionalField, required,
    member?_cons, String.reduceEq, if_true, if_false, Option.getD_some, itemsOf, bind_ok,
    OrderedMap.values, entities, field_text]
  rfl

end Decoding

end Artifact

namespace Collection

variable {c : Collection}

section Reading

variable [Artifact.FieldChecks] [Artifact.LawfulFieldChecks]

theorem deserialize_serialize (h : ∀ entry ∈ c.entities.entries, entry.1 = entry.2.id)
    (layout : JsonLayout) : deserialize (c.serialize layout) = .ok c := by
  rw [deserialize, serialize, (Artifact.exact_encode c).parse_render layout]
  exact Artifact.decode_encode h

/-- A collection whose keys are the ids of its entities survives being written with any indentation, or
with none, and being read again. -/
theorem deserialize_serialize_ofIndent (h : ∀ entry ∈ c.entities.entries, entry.1 = entry.2.id)
    (indent : Option Int) : deserialize (c.serialize (.ofIndent indent)) = .ok c :=
  deserialize_serialize h (.ofIndent indent)

end Reading

/-- Characters of every kind of escape, an empty binding and one that is absent. -/
def escapes : Collection where
  name := "\x01\"\\\t\x7f\u00e9😀"
  entities := .ofList [
    ("r", .role
      { id := "r", typeName := "", binding := some "", properties := .ofList [("q", ["", "/"]), ("p", [])],
        filledRoles := .empty, occurrence := some (-20) }),
    ("c", .context
      { id := "c", typeName := ":T", innerRole := { id := "i", properties := .empty }, outerRole := "r" })]

theorem deserialize_serialize_escapes :
    (∀ entry ∈ escapes.entities.entries, entry.1 = entry.2.id) ∧
    deserialize (escapes.serialize (.ofIndent none)) = .ok escapes ∧
    deserialize (escapes.serialize (.ofIndent (some (-1)))) = .ok escapes := by
  have h : ∀ entry ∈ escapes.entities.entries, entry.1 = entry.2.id := by decide +kernel
  exact ⟨h, deserialize_serialize_ofIndent h none, deserialize_serialize_ofIndent h (some (-1))⟩

end Collection

end ContextRoles
