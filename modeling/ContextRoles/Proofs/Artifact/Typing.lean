import ContextRoles.Proofs.Artifact.RoundTrip

/-! # Which documents are decoded or refused

A document is refused for its shape: as no JSON, no record, a record of an unknown kind or without a
field. The types of the fields are checked when the record is built, and what fails there is no refusal.
This happens only to a record that has every field that it needs and one of them with a value that its
check does not let pass. A value of the right type always passes.
-/

namespace ContextRoles

namespace Artifact

section Checks

variable {α β : Type}

def Succeeds (p : Checked α) : Prop := ∃ a, p = .ok a

theorem succeeds_ok (a : α) : Succeeds (.ok a : Checked α) := ⟨a, rfl⟩

theorem not_succeeds_error (faults : List FieldError) : ¬ Succeeds (.error faults : Checked α) := nofun

theorem succeeds_and {p : Checked α} {q : Checked β} :
    Succeeds (p.and q) ↔ Succeeds p ∧ Succeeds q := by
  cases p <;> cases q <;> simp [Succeeds, Checked.and]

theorem succeeds_within (step : Step) {p : Checked α} : Succeeds (p.within step) ↔ Succeeds p := by
  cases p with
  | ok a => exact iff_of_true (succeeds_ok a) (succeeds_ok a)
  | error faults => exact iff_of_false (not_succeeds_error _) (not_succeeds_error _)

/-- The check of fields of a type lets a value pass. -/
def Passes [FieldChecks] (type : FieldType) (v : JsonValue) : Prop :=
  Succeeds (FieldChecks.check type v)

def HasType (type : FieldType) (v : JsonValue) : Prop := ∃ a, v = type.encode a

theorem HasType.passes [FieldChecks] [LawfulFieldChecks] {type : FieldType} {v : JsonValue}
    (h : HasType type v) : Passes type v := by
  obtain ⟨a, rfl⟩ := h
  exact ⟨a, LawfulFieldChecks.check_encode type a⟩

end Checks

section Schemas

/-- The fields that a record has to have, and the types of those that it may have. -/
structure Schema where
  needed : List String
  fields : List (String × FieldType)

namespace Schema

def role : Schema where
  needed := ["id", "type"]
  fields := [("id", .text), ("type", .text), ("binding", .optionalText), ("context", .text),
    ("properties", .textLists), ("filled_roles", .textLists), ("occurrence", .optionalInteger)]

def innerRole : Schema where
  needed := ["id"]
  fields := [("id", .text), ("binding", .optionalText), ("properties", .textLists)]

def context : Schema where
  needed := ["id", "type", "inner_role", "outer_role"]
  fields := [("id", .text), ("type", .text), ("outer_role", .text), ("roles", .texts)]

def collection : Schema where
  needed := ["name"]
  fields := [("name", .text)]

variable (P : FieldType → JsonValue → Prop) (schema : Schema) (members : Members)

def Complete : Prop := ∀ name ∈ schema.needed, ∃ v, JsonValue.member? members name = some v

def Fits : Prop :=
  ∀ field ∈ schema.fields, ∀ v, JsonValue.member? members field.1 = some v → P field.2 v

/-- Either a field is missing or all of them fit. -/
def Sound : Prop := schema.Complete members → schema.Fits P members

end Schema

variable (P : FieldType → JsonValue → Prop)

/-- A value that is no record of a known kind, or a record that is sound with the records in it. -/
def SoundEntity (value : JsonValue) : Prop :=
  ∀ members, value = .obj members →
    (JsonValue.member? members "kind" = some (.str "rol") → Schema.role.Sound P members) ∧
    (JsonValue.member? members "kind" = some (.str "context") → Schema.context.Sound P members ∧
      ∀ inner, JsonValue.member? members "inner_role" = some (.obj inner) →
        Schema.innerRole.Sound P inner)

def SoundDocument (members : Members) : Prop :=
  Schema.collection.Sound P members ∧
  ∀ items, JsonValue.member? members "entities" = some (.arr items) →
    ∀ item ∈ items, SoundEntity P item

variable {P} {Q : FieldType → JsonValue → Prop} {members : Members}

theorem Schema.Sound.mono {schema : Schema} (h : schema.Sound P members)
    (hPQ : ∀ type v, P type v → Q type v) : schema.Sound Q members :=
  fun complete field hfield v hv => hPQ _ v (h complete field hfield v hv)

theorem SoundDocument.mono (h : SoundDocument P members) (hPQ : ∀ type v, P type v → Q type v) :
    SoundDocument Q members :=
  ⟨h.1.mono hPQ, fun items hitems item hitem inner hinner =>
    have hsound := h.2 items hitems item hitem inner hinner
    ⟨fun hkind => (hsound.1 hkind).mono hPQ,
      fun hkind => ⟨(hsound.2 hkind).1.mono hPQ, fun r hr => ((hsound.2 hkind).2 r hr).mono hPQ⟩⟩⟩

theorem SoundDocument.passes [FieldChecks] [LawfulFieldChecks] (h : SoundDocument HasType members) :
    SoundDocument Passes members := h.mono fun _ _ => HasType.passes

theorem soundEntity_text (s : String) : SoundEntity P (.str s) := nofun

end Schemas

section Settling

variable {α β : Type} {members : Members}

/-- The document is refused as a whole, and not for a field of the wrong type. -/
def DecodeError.IsRefusal : DecodeError → Prop
  | wrongFields _ _ => False
  | _ => True

/-- A value is decoded or refused. -/
def Settles (d : Decoded α) : Prop := (∃ a, d = .ok a) ∨ ∃ e, d = .error e ∧ e.IsRefusal

theorem settles_ok (a : α) : Settles (.ok a : Decoded α) := .inl ⟨a, rfl⟩

theorem settles_error {e : DecodeError} (h : e.IsRefusal) : Settles (.error e : Decoded α) :=
  .inr ⟨e, rfl, h⟩

theorem Settles.bind {p : Decoded α} {f : α → Decoded β} (hp : Settles p)
    (hf : ∀ a, p = .ok a → Settles (f a)) : Settles (p >>= f) := by
  obtain ⟨a, rfl⟩ | ⟨e, rfl, he⟩ := hp
  · exact hf a rfl
  · exact settles_error he

theorem Settles.map (f : α → β) {p : Decoded α} (hp : Settles p) : Settles (p.map f) := by
  obtain ⟨a, rfl⟩ | ⟨e, rfl, he⟩ := hp
  · exact settles_ok (f a)
  · exact settles_error he

theorem settles_fieldsOf (value : JsonValue) : Settles (fieldsOf value) := by
  cases value with
  | obj members => exact settles_ok members
  | _ => exact settles_error trivial

theorem settles_required (members : Members) (name : String) : Settles (required members name) := by
  rw [required]
  cases JsonValue.member? members name with
  | none => exact settles_error trivial
  | some v => exact settles_ok v

theorem settles_itemsOf (value : JsonValue) : Settles (itemsOf value) := by
  cases value with
  | arr items => exact settles_ok items
  | str s => exact settles_ok _
  | obj members => exact settles_ok _
  | _ => exact settles_error trivial

theorem settles_build_bind (record : Record) {fields : Checked α} (f : α → β) :
    Settles (build record fields >>= fun a => pure (f a)) ↔ Succeeds fields := by
  cases fields with
  | ok a => exact iff_of_true (settles_ok _) (succeeds_ok a)
  | error faults =>
    refine iff_of_false ?_ (not_succeeds_error faults)
    rintro (⟨_, h⟩ | ⟨_, h, he⟩)
    · cases h
    · cases h
      exact he

theorem eq_obj_of_fieldsOf {value : JsonValue} (h : fieldsOf value = .ok members) :
    value = .obj members := by
  cases value <;> simp_all [fieldsOf]

theorem required_eq_ok {name : String} {v : JsonValue} :
    required members name = .ok v ↔ JsonValue.member? members name = some v := by
  rw [required]
  cases JsonValue.member? members name <;> simp

theorem Schema.sound_of_missing {P : FieldType → JsonValue → Prop} {schema : Schema} (name : String)
    (hname : name ∈ schema.needed) (h : JsonValue.member? members name = none) :
    schema.Sound P members := by
  intro complete
  obtain ⟨v, hv⟩ := complete name hname
  rw [h] at hv
  cases hv

theorem Schema.sound_iff {P : FieldType → JsonValue → Prop} {schema : Schema}
    (h : schema.Complete members) : schema.Sound P members ↔ schema.Fits P members :=
  forall_prop_of_true h

theorem soundEntity_item {P : FieldType → JsonValue → Prop} (h : SoundDocument P members)
    {items : List JsonValue}
    (hitems : itemsOf (optionalField members "entities" (.arr [])) = .ok items) :
    ∀ item ∈ items, SoundEntity P item := by
  rw [optionalField] at hitems
  cases hv : JsonValue.member? members "entities" with
  | none =>
    rw [hv] at hitems
    rw [← Except.ok.inj hitems]
    exact List.forall_mem_nil _
  | some v =>
    rw [hv, Option.getD_some] at hitems
    cases v with
    | arr entities => exact Except.ok.inj hitems ▸ h.2 entities hv
    | str s =>
      rw [← Except.ok.inj hitems, List.forall_mem_map]
      exact fun _ _ => soundEntity_text _
    | obj fields =>
      rw [← Except.ok.inj hitems, List.forall_mem_map]
      exact fun _ _ => soundEntity_text _
    | _ => cases hitems

theorem hasType_noText : HasType .optionalText .null := ⟨none, rfl⟩

theorem hasType_noInteger : HasType .optionalInteger .null := ⟨none, rfl⟩

theorem hasType_emptyText : HasType .text (.str "") := ⟨"", rfl⟩

theorem hasType_noTexts : HasType .texts (.arr []) := ⟨[], rfl⟩

theorem hasType_noLists : HasType .textLists (.obj []) := ⟨.empty, rfl⟩

section Records

variable [FieldChecks]

theorem succeeds_required {name : String} (label : String) {type : FieldType} {v : JsonValue}
    (hv : JsonValue.member? members name = some v) :
    Succeeds (field label type v) ↔ ∀ v, JsonValue.member? members name = some v → Passes type v := by
  simp [field, succeeds_within, hv, Passes]

variable [LawfulFieldChecks]

theorem succeeds_optionalField (name label : String) {type : FieldType} {default : JsonValue}
    (hd : HasType type default) :
    Succeeds (field label type (optionalField members name default)) ↔
      ∀ v, JsonValue.member? members name = some v → Passes type v := by
  rw [field, succeeds_within, optionalField]
  cases JsonValue.member? members name with
  | none => exact iff_of_true hd.passes fun _ hv => (Option.some_ne_none _ hv.symm).elim
  | some v => simp [Passes]

theorem settles_decodeRole (members : Members) :
    Settles (decodeRole members) ↔ Schema.role.Sound Passes members := by
  rw [decodeRole, required, required]
  cases hid : JsonValue.member? members "id" with
  | none => exact iff_of_true (settles_error trivial) (Schema.sound_of_missing _ (by decide) hid)
  | some id =>
    cases htype : JsonValue.member? members "type" with
    | none => exact iff_of_true (settles_error trivial) (Schema.sound_of_missing _ (by decide) htype)
    | some typeName =>
      have complete : Schema.role.Complete members := by
        simp [Schema.Complete, Schema.role, hid, htype]
      refine (settles_build_bind ..).trans (.trans ?_ (Schema.sound_iff complete).symm)
      simp only [succeeds_and, succeeds_required _ hid, succeeds_required _ htype,
        succeeds_optionalField "binding" _ hasType_noText,
        succeeds_optionalField "context" _ hasType_emptyText,
        succeeds_optionalField "properties" _ hasType_noLists,
        succeeds_optionalField "filled_roles" _ hasType_noLists,
        succeeds_optionalField "occurrence" _ hasType_noInteger]
      simp [Schema.Fits, Schema.role]

theorem settles_decodeInnerRole (members : Members) :
    Settles (decodeInnerRole (.obj members)) ↔ Schema.innerRole.Sound Passes members := by
  change Settles (required members "id" >>= _) ↔ _
  rw [required]
  cases hid : JsonValue.member? members "id" with
  | none => exact iff_of_true (settles_error trivial) (Schema.sound_of_missing _ (by decide) hid)
  | some id =>
    have complete : Schema.innerRole.Complete members := by
      simp [Schema.Complete, Schema.innerRole, hid]
    refine (settles_build_bind ..).trans (.trans ?_ (Schema.sound_iff complete).symm)
    simp only [succeeds_and, succeeds_required _ hid,
      succeeds_optionalField "binding" _ hasType_noText,
      succeeds_optionalField "properties" _ hasType_noLists]
    simp [Schema.Fits, Schema.innerRole]

theorem settles_decodeContext (h : Schema.context.Sound Passes members)
    (hinner : ∀ inner, JsonValue.member? members "inner_role" = some (.obj inner) →
      Schema.innerRole.Sound Passes inner) : Settles (decodeContext members) := by
  refine .bind (settles_required ..) fun id hid => .bind (settles_required ..) fun typeName htype =>
    .bind (settles_required ..) fun role hrole => ?_
  rw [required_eq_ok] at hid htype hrole
  have inner : Settles (decodeInnerRole role) := by
    cases role with
    | obj inner => exact (settles_decodeInnerRole inner).mpr (hinner inner hrole)
    | _ => exact settles_error trivial
  refine inner.bind fun _ _ => .bind (settles_required ..) fun outer houter => ?_
  rw [required_eq_ok] at houter
  have fits : Schema.context.Fits Passes members :=
    h (by simp [Schema.Complete, Schema.context, hid, htype, hrole, houter])
  refine (settles_build_bind ..).mpr ?_
  simp only [succeeds_and, succeeds_required _ hid, succeeds_required _ htype,
    succeeds_required _ houter, succeeds_optionalField "roles" _ hasType_noTexts]
  simpa [Schema.Fits, Schema.context] using fits

theorem settles_decodeEntity {value : JsonValue} (h : SoundEntity Passes value) :
    Settles (decodeEntity value) := by
  refine .bind (settles_fieldsOf _) fun members hmembers =>
    .bind (settles_required ..) fun kind hkind => ?_
  rw [required_eq_ok] at hkind
  obtain ⟨role, context⟩ := h members (eq_obj_of_fieldsOf hmembers)
  split
  · exact (settles_decodeContext (context hkind).1 (context hkind).2).map _
  · exact ((settles_decodeRole members).mpr (role hkind)).map _
  · exact settles_error trivial

theorem settles_decodeEntities {items : List JsonValue} (h : ∀ item ∈ items, SoundEntity Passes item)
    (entities : OrderedMap Entity) : Settles (decodeEntities items entities) := by
  induction items generalizing entities with
  | nil => exact settles_ok entities
  | cons item items ih =>
    rw [List.forall_mem_cons] at h
    exact .bind (settles_decodeEntity h.1) fun _ _ => ih h.2 _

theorem settles_decodeCollection (h : SoundDocument Passes members) :
    Settles (decodeCollection members) := by
  refine .bind (settles_itemsOf _) fun items hitems =>
    .bind (settles_decodeEntities (soundEntity_item h hitems) _) fun _ _ =>
    .bind (settles_required ..) fun name hname => ?_
  rw [required_eq_ok] at hname
  have fits : Schema.collection.Fits Passes members :=
    h.1 (by simp [Schema.Complete, Schema.collection, hname])
  refine (settles_build_bind ..).mpr ((succeeds_required _ hname).mpr ?_)
  simpa [Schema.Fits, Schema.collection] using fits

theorem settles_decode {value : JsonValue}
    (h : ∀ members, value = .obj members → SoundDocument Passes members) : Settles (decode value) := by
  cases value with
  | obj members =>
    rw [decode]
    split
    · split
      · exact settles_decodeCollection (h members rfl)
      · exact settles_error trivial
    · exact settles_error trivial
  | _ => exact settles_error trivial

end Records

end Settling

end Artifact

namespace Collection

open Artifact

section Settling

variable [FieldChecks]

theorem settles_of_parse_error {text : String} {e : JsonError} (h : JsonValue.parse text = .error e) :
    Settles (deserialize text) := by
  simp only [deserialize, h]
  exact settles_error trivial

/-- A text is read as a collection or refused, whatever is in it, unless a record that has every field
that it needs has one with a value that its check does not let pass. -/
theorem deserialize_settles [LawfulFieldChecks] {text : String}
    (h : ∀ members, JsonValue.parse text = .ok (.obj members) → SoundDocument Passes members) :
    Settles (deserialize text) := by
  cases hparse : JsonValue.parse text with
  | ok value =>
    simp only [deserialize, hparse]
    exact settles_decode fun members heq => h members (heq ▸ hparse)
  | error e => exact settles_of_parse_error hparse

end Settling

/-- A role that is decoded, and behind it a context that has a number for an id and no type. -/
def patchy : Members :=
  [("v", .str "1"), ("entities", .arr [
    .obj [("kind", .str "rol"), ("id", .str "r"), ("type", .str ":R"), ("occurrence", .int 2),
      ("properties", .obj [("p", .arr [.str "1"])])],
    .obj [("kind", .str "context"), ("id", .int 1)]])]

theorem soundDocument_patchy : SoundDocument HasType patchy := by
  refine ⟨Schema.sound_of_missing "name" (by decide) rfl, ?_⟩
  rintro _ ⟨⟩
  simp only [List.forall_mem_cons]
  refine ⟨?_, ?_, List.forall_mem_nil _⟩
  · rintro _ ⟨⟩
    have properties : HasType .textLists (.obj [("p", .arr [.str "1"])]) :=
      ⟨.ofList [("p", ["1"])], rfl⟩
    refine ⟨fun _ _ => ?_, by simp [member?_cons]⟩
    simpa [Schema.Fits, Schema.role, member?_cons, member?_nil] using
      ⟨⟨"r", rfl⟩, ⟨":R", rfl⟩, properties, ⟨some 2, rfl⟩⟩
  · rintro _ ⟨⟩
    exact ⟨by simp [member?_cons],
      fun _ => ⟨Schema.sound_of_missing "type" (by decide) rfl, by simp [member?_cons, member?_nil]⟩⟩

theorem deserialize_settles_patchy :
    (∀ members, JsonValue.parse (JsonValue.render .compact (.obj patchy)) = .ok (.obj members) →
      SoundDocument Passes members) ∧
    Settles (deserialize (JsonValue.render .compact (.obj patchy))) := by
  have hexact : (JsonValue.obj patchy).Exact := by
    refine .obj ?_ (by decide)
    simp only [patchy, List.forall_mem_cons]
    refine ⟨.str _, .arr ?_, nofun⟩
    simp only [List.forall_mem_cons]
    refine ⟨.obj ?_ (by decide), .obj ?_ (by decide), nofun⟩
    · simp only [List.forall_mem_cons]
      refine ⟨.str _, .str _, .str _, .int _, .obj ?_ (by decide), nofun⟩
      simpa using .arr (by simpa using .str _)
    · simpa using ⟨.str _, .int 1⟩
  have h : ∀ members, JsonValue.parse (JsonValue.render .compact (.obj patchy)) = .ok (.obj members) →
      SoundDocument Passes members := by
    intro members hmembers
    rw [hexact.parse_render] at hmembers
    exact JsonValue.obj.inj (Except.ok.inj hmembers) ▸ soundDocument_patchy.passes
  exact ⟨h, deserialize_settles h⟩

theorem deserialize_numbered : deserialize "\x7b\"v\":\"1\",\"name\":1\x7d" =
    .error (.wrongFields .collection [⟨[.key "name"], .notText⟩]) := by
  have hexact : (JsonValue.obj [("v", .str "1"), ("name", .int 1)]).Exact :=
    .obj (by simp [JsonValue.Exact.str, JsonValue.Exact.int]) (by decide)
  have htext : "\x7b\"v\":\"1\",\"name\":1\x7d" =
      JsonValue.render .compact (.obj [("v", .str "1"), ("name", .int 1)]) := by decide +kernel
  rw [htext, deserialize, hexact.parse_render]
  rfl

/-- A document with a number for a name is neither decoded nor refused. -/
theorem not_settles_numbered :
    deserialize "\x7b\"v\":\"1\",\"name\":1\x7d" =
      .error (.wrongFields .collection [⟨[.key "name"], .notText⟩]) ∧
    ¬ Settles (deserialize "\x7b\"v\":\"1\",\"name\":1\x7d") := by
  refine ⟨deserialize_numbered, ?_⟩
  rw [deserialize_numbered]
  rintro (⟨_, ⟨⟩⟩ | ⟨_, ⟨⟩, refusal⟩)
  exact refusal

end Collection

end ContextRoles
