import ContextRoles.Proofs.Json.Scalar
import ContextRoles.Proofs.Model.OrderedMap

/-! # Documents are read back as they were written

A value without doubles is read back from its text, in either layout and at any depth. The text of a
value begins with a character that tells its kind, blanks are skipped between the elements of a list
or an object, and the fuel of the reader is twice what is left of the text.
-/

namespace ContextRoles

open Json

/-- A value without doubles, no key of which occurs twice in one object. -/
inductive JsonValue.Exact : JsonValue → Prop where
  | null : Exact .null
  | bool (b : Bool) : Exact (.bool b)
  | int (n : Int) : Exact (.int n)
  | str (s : String) : Exact (.str s)
  | arr {vs : List JsonValue} : (∀ v ∈ vs, Exact v) → Exact (.arr vs)
  | obj {ms : List (String × JsonValue)} :
      (∀ m ∈ ms, Exact m.2) → (ms.map Prod.fst).Nodup → Exact (.obj ms)

namespace Json

variable {c : Char} {rest b gap closing text : List Char} {fuel offset : Nat} {v : JsonValue}

section Blanks

def Blanks (b : List Char) : Prop := ∀ c ∈ b, Cursor.isBlank c = true

theorem blanks_lineBreak (layout : JsonLayout) (depth : Nat) :
    Blanks (layout.lineBreak depth).toList := by
  intro c hc
  cases layout with
  | compact => simp [JsonLayout.lineBreak] at hc
  | indented width =>
    have : c = '\n' ∨ c = ' ' := by
      simp only [JsonLayout.lineBreak, String.toList_append, String.toList_ofList,
        List.mem_append, List.mem_replicate] at hc
      exact hc.imp (by simp) And.right
    rcases this with rfl | rfl <;> rfl

theorem skipBlanks_append (hb : Blanks b) (hrest : ∀ c ∈ rest.head?, Cursor.isBlank c = false) :
    Cursor.skipBlanks ⟨b ++ rest, offset⟩ = ⟨rest, offset + b.length⟩ := by
  have stop : rest.takeWhile Cursor.isBlank = [] := by
    cases rest with
    | nil => rfl
    | cons c rest => exact List.takeWhile_cons_of_neg (by simp [hrest c rfl])
  rw [Cursor.skipBlanks, List.takeWhile_append_of_pos hb, stop, List.append_nil, Cursor.advance,
    List.drop_left]

theorem skipBlanks_cons (hc : Cursor.isBlank c = false) :
    Cursor.skipBlanks ⟨c :: rest, offset⟩ = ⟨c :: rest, offset⟩ :=
  skipBlanks_append (b := []) nofun (by rintro _ ⟨⟩; exact hc)

theorem endsNumber_cons (hc : c ∈ [',', ']', '\x7d', ' ', '\t', '\n', '\r']) :
    EndsNumber (c :: rest) := by
  have ends : [',', ']', '\x7d', ' ', '\t', '\n', '\r'].all (fun c =>
      !isDigit c && c != '.' && c != 'e' && c != 'E') = true := by decide
  rintro _ ⟨⟩
  have hends := List.all_eq_true.mp ends c hc
  simpa [and_assoc] using hends

theorem endsNumber_blanks (hb : Blanks b) (hrest : EndsNumber rest) : EndsNumber (b ++ rest) := by
  cases b with
  | nil => exact hrest
  | cons c b =>
    have hc : Cursor.isBlank c = true := hb c (.head _)
    simp only [Cursor.isBlank, Bool.or_eq_true, decide_eq_true_eq] at hc
    rcases hc with ((rfl | rfl) | rfl) | rfl <;> exact endsNumber_cons (by decide)

end Blanks

def startChars : List Char := "\"[\x7b-0123456789ntf".toList

theorem start_facts :
    ∀ c ∈ startChars, Cursor.isBlank c = false ∧ c ≠ ']' ∧ c ≠ '\x7d' ∧ c ≠ '\uFEFF' := by
  have facts : startChars.all (fun c =>
      !Cursor.isBlank c && c != ']' && c != '\x7d' && c != '\uFEFF') = true := by decide
  simpa [and_assoc] using facts

def Starts (text : List Char) : Prop := ∃ c t, text = c :: t ∧ c ∈ startChars

theorem Starts.head (h : Starts text) (rest : List Char) :
    ∀ c ∈ (text ++ rest).head?, c ∈ startChars := by
  obtain ⟨c, t, rfl, hc⟩ := h
  rintro _ ⟨⟩
  exact hc

theorem Starts.skipBlanks (h : Starts text) (hb : Blanks b) :
    Cursor.skipBlanks ⟨b ++ (text ++ rest), offset⟩ = ⟨text ++ rest, offset + b.length⟩ :=
  skipBlanks_append hb fun c hc => (start_facts c (h.head rest c hc)).1

/-- A text that is read as a value wherever no more of a number follows. -/
structure Spells (text : List Char) (v : JsonValue) : Prop where
  starts : Starts text
  reads : ∀ fuel offset rest, EndsNumber rest → 2 * text.length ≤ fuel →
    value fuel ⟨text ++ rest, offset⟩ = .ok (v, ⟨rest, offset + text.length⟩)

/-- The text of a member: its key, a colon and its value. -/
inductive SpellsMember : List Char → String × JsonValue → Prop where
  | mk {layout : JsonLayout} {b text : List Char} {key : String} {v : JsonValue} :
      Blanks b → Spells text v →
      SpellsMember ((JsonValue.encodeString layout key).toList ++ (':' :: (b ++ text))) (key, v)

theorem starts_encodeString (layout : JsonLayout) (s : String) (rest : List Char) :
    Starts ((JsonValue.encodeString layout s).toList ++ rest) :=
  ⟨'"', _, by simp only [JsonValue.encodeString, String.toList_ofList, List.cons_append]; rfl,
    by decide⟩

section Elements

variable {α : Type} {vs : List JsonValue} {ms : List (String × JsonValue)} {w : List Char}

/-- The texts of elements, with a separator between two of them and an end behind the last one. -/
inductive Rows (spells : List Char → α → Prop) (separator ending : List Char) :
    List Char → List α → Prop where
  | last {text : List Char} {a : α} :
      spells text a → Rows spells separator ending (text ++ ending) [a]
  | cons {text w : List Char} {a : α} {as : List α} :
      spells text a → Rows spells separator ending w as →
      Rows spells separator ending (text ++ (separator ++ w)) (a :: as)

theorem Rows.starts {spells : List Char → α → Prop} {separator ending : List Char} {as : List α}
    (hs : ∀ text a, spells text a → Starts text) (h : Rows spells separator ending w as) :
    Starts w := by
  cases h with
  | last ha =>
    obtain ⟨c, t, rfl, hc⟩ := hs _ _ ha
    exact ⟨c, _, rfl, hc⟩
  | cons ha _ =>
    obtain ⟨c, t, rfl, hc⟩ := hs _ _ ha
    exact ⟨c, _, rfl, hc⟩

theorem Rows.starts_items {separator ending : List Char} (h : Rows Spells separator ending w vs) :
    Starts w := h.starts fun _ _ hv => hv.starts

theorem Rows.starts_members {separator ending : List Char}
    (h : Rows SpellsMember separator ending w ms) : Starts w := by
  refine h.starts ?_
  rintro _ _ ⟨-, -⟩
  exact starts_encodeString _ _ _

theorem items_rows (hgap : Blanks gap) (hclosing : Blanks closing)
    (h : Rows Spells (',' :: gap) (closing ++ [']']) w vs) {done : List JsonValue}
    (hfuel : 2 * w.length + 1 ≤ fuel) :
    items fuel done ⟨w ++ rest, offset⟩ =
      .ok (.arr (done.reverse ++ vs), ⟨rest, offset + w.length⟩) := by
  induction h generalizing fuel offset done with
  | @last text v hv =>
    obtain ⟨fuel, rfl⟩ : ∃ n, fuel = n + 1 := ⟨fuel - 1, by omega⟩
    have hlast : EndsNumber (closing ++ (']' :: rest)) :=
      endsNumber_blanks hclosing (endsNumber_cons (by decide))
    simp only [List.length_append, List.length_cons] at hfuel
    have hread := hv.reads fuel offset _ hlast (by omega)
    have hskip : Cursor.skipBlanks ⟨closing ++ (']' :: rest), offset + text.length⟩ =
        ⟨']' :: rest, offset + text.length + closing.length⟩ :=
      skipBlanks_append hclosing (by rintro _ ⟨⟩; rfl)
    simp only [List.append_assoc, List.cons_append, List.nil_append, items, hread, hskip]
    simp [Cursor.advance, Nat.add_assoc]
  | @cons text w v vs hv hvs ih =>
    obtain ⟨fuel, rfl⟩ : ∃ n, fuel = n + 1 := ⟨fuel - 1, by omega⟩
    simp only [List.length_append, List.length_cons] at hfuel
    have hread := hv.reads fuel offset (',' :: (gap ++ (w ++ rest))) (endsNumber_cons (by decide))
      (by omega)
    have hcomma : Cursor.isBlank ',' = false := by decide
    simp only [List.append_assoc, List.cons_append, items, hread, skipBlanks_cons hcomma,
      Cursor.advance, List.drop_succ_cons, List.drop_zero, hvs.starts_items.skipBlanks hgap]
    rw [ih (by omega)]
    simp [Nat.add_assoc, Nat.add_comm 1]

def afterMember (fuel : Nat) (done : List (String × JsonValue)) (next : Cursor) :
    Read JsonValue :=
  match next.skipBlanks.rest with
  | '\x7d' :: _ => .ok (.obj done, next.skipBlanks.advance 1)
  | ',' :: _ => members fuel done (next.skipBlanks.advance 1).skipBlanks
  | _ => next.skipBlanks.fault .expectedComma

theorem members_spelled {m : String × JsonValue} (h : SpellsMember text m)
    {done : List (String × JsonValue)} (hrest : EndsNumber rest) (hfuel : 2 * text.length ≤ fuel) :
    members (fuel + 1) done ⟨text ++ rest, offset⟩ =
      afterMember fuel (setEntry m.1 m.2 done) ⟨rest, offset + text.length⟩ := by
  obtain @⟨layout, b, t, key, v, hb, hv⟩ := h
  obtain ⟨x, hx⟩ : ∃ x, (JsonValue.encodeString layout key).toList = '"' :: x :=
    ⟨_, String.toList_ofList⟩
  have hkey := string_encodeString layout key (':' :: (b ++ (t ++ rest))) offset
  have hcolon : Cursor.isBlank ':' = false := by decide
  have hlength : ((JsonValue.encodeString layout key).toList ++ (':' :: (b ++ t))).length =
      (JsonValue.encodeString layout key).toList.length + 1 + b.length + t.length := by
    simp only [List.length_append, List.length_cons]
    omega
  rw [hlength, ← Nat.add_assoc, ← Nat.add_assoc, ← Nat.add_assoc]
  have hread := hv.reads fuel
    (offset + (JsonValue.encodeString layout key).toList.length + 1 + b.length) rest hrest (by omega)
  simp only [hx, List.cons_append, List.append_assoc] at hkey hread ⊢
  simp only [members, hkey, skipBlanks_cons hcolon, Cursor.advance, List.drop_succ_cons,
    List.drop_zero, hv.starts.skipBlanks hb, hread]
  rfl

theorem members_rows (hgap : Blanks gap) (hclosing : Blanks closing)
    (h : Rows SpellsMember (',' :: gap) (closing ++ ['\x7d']) w ms)
    {done : List (String × JsonValue)} (hkeys : ((done ++ ms).map Prod.fst).Nodup)
    (hfuel : 2 * w.length + 1 ≤ fuel) :
    members fuel done ⟨w ++ rest, offset⟩ =
      .ok (.obj (done ++ ms), ⟨rest, offset + w.length⟩) := by
  have append {m : String × JsonValue} {ms done : List (String × JsonValue)}
      (hkeys : ((done ++ m :: ms).map Prod.fst).Nodup) :
      setEntry m.1 m.2 done = done ++ [m] := by
    refine OrderedMap.setEntry_of_notMem m.2 fun hm => ?_
    rw [List.map_append, List.nodup_append] at hkeys
    exact hkeys.2.2 _ hm _ (.head _) rfl
  induction h generalizing fuel offset done with
  | @last text m hm =>
    obtain ⟨fuel, rfl⟩ : ∃ n, fuel = n + 1 := ⟨fuel - 1, by omega⟩
    have hlast : EndsNumber (closing ++ ('\x7d' :: rest)) :=
      endsNumber_blanks hclosing (endsNumber_cons (by decide))
    simp only [List.length_append, List.length_cons] at hfuel
    have hskip : Cursor.skipBlanks ⟨closing ++ ('\x7d' :: rest), offset + text.length⟩ =
        ⟨'\x7d' :: rest, offset + text.length + closing.length⟩ :=
      skipBlanks_append hclosing (by rintro _ ⟨⟩; rfl)
    simp only [List.append_assoc, List.cons_append, List.nil_append]
    rw [members_spelled hm hlast (by omega), afterMember, hskip, append hkeys]
    simp [Cursor.advance, Nat.add_assoc]
  | @cons text w m ms hm hms ih =>
    obtain ⟨fuel, rfl⟩ : ∃ n, fuel = n + 1 := ⟨fuel - 1, by omega⟩
    simp only [List.length_append, List.length_cons] at hfuel
    have hcomma : Cursor.isBlank ',' = false := by decide
    simp only [List.append_assoc, List.cons_append]
    rw [members_spelled hm (endsNumber_cons (by decide)) (by omega), append hkeys]
    simp only [afterMember, skipBlanks_cons hcomma, Cursor.advance, List.drop_succ_cons,
      List.drop_zero, hms.starts_members.skipBlanks hgap]
    rw [ih (by simpa using hkeys) (by omega)]
    simp [Nat.add_assoc, Nat.add_comm 1]

end Elements

section Values

theorem value_scalar (hq : text.head? ≠ some '"') (hb : text.head? ≠ some '[')
    (hbrace : text.head? ≠ some '\x7b') :
    value (fuel + 1) ⟨text, offset⟩ = scalar ⟨text, offset⟩ := by
  rw [value]
  split
  next heq => exact absurd (congrArg List.head? heq) hq
  next heq => exact absurd (congrArg List.head? heq) hb
  next heq => exact absurd (congrArg List.head? heq) hbrace
  next => rfl

theorem spells_scalar (hstart : Starts text)
    (hhead : ∀ c ∈ text.head?, c ≠ '"' ∧ c ≠ '[' ∧ c ≠ '\x7b')
    (h : ∀ rest offset, EndsNumber rest →
      scalar ⟨text ++ rest, offset⟩ = .ok (v, ⟨rest, offset + text.length⟩)) : Spells text v where
  starts := hstart
  reads fuel offset rest hrest hfuel := by
    obtain ⟨c, t, rfl, -⟩ := hstart
    obtain ⟨hq, hb, hbrace⟩ := hhead c rfl
    simp only [List.length_cons] at hfuel
    obtain ⟨fuel, rfl⟩ : ∃ n, fuel = n + 1 := ⟨fuel - 1, by omega⟩
    rw [value_scalar (by simpa using hq) (by simpa using hb) (by simpa using hbrace), h _ _ hrest]

theorem spells_null : Spells "null".toList .null :=
  spells_scalar ⟨'n', _, rfl, by decide⟩ (by simp) fun _ _ _ => rfl

theorem spells_true : Spells "true".toList (.bool true) :=
  spells_scalar ⟨'t', _, rfl, by decide⟩ (by simp) fun _ _ _ => rfl

theorem spells_false : Spells "false".toList (.bool false) :=
  spells_scalar ⟨'f', _, rfl, by decide⟩ (by simp) fun _ _ _ => rfl

theorem toString_head (n : Int) : ∃ d t, isDigit d = true ∧
    ((toString n).toList = d :: t ∨ (toString n).toList = '-' :: d :: t) := by
  rw [toString_toList]
  obtain ⟨d, t, hd, -⟩ := head_toDigits n.natAbs
  refine ⟨d, t, isDigit_of_mem_toDigits (n := n.natAbs) (by rw [hd]; exact .head _), ?_⟩
  rw [hd]
  split
  · exact .inl rfl
  · exact .inr rfl

theorem not_prefix_toString (n : Int) (rest : List Char) :
    ∀ m ∈ literals, ¬ m.1.toList <+: (toString n).toList ++ rest := by
  obtain ⟨d, t, hd, ht⟩ := toString_head n
  have hne : ∀ e, isDigit e = false → e ≠ d := by
    rintro e he rfl
    simp [hd] at he
  rcases ht with ht | ht <;> rw [ht]
  · simp [literals, hne 'n' rfl, hne 't' rfl, hne 'f' rfl, hne 'N' rfl, hne 'I' rfl, hne '-' rfl]
  · simp [literals, hne 'I' rfl]

theorem spells_int (n : Int) : Spells (toString n).toList (.int n) := by
  obtain ⟨d, t, hd, ht⟩ := toString_head n
  have digit : ∀ k < 10, Char.ofNat (48 + k) ∈ startChars ∧ Char.ofNat (48 + k) ≠ '"' ∧
      Char.ofNat (48 + k) ≠ '[' ∧ Char.ofNat (48 + k) ≠ '\x7b' := by decide
  obtain ⟨k, hk, rfl⟩ := exists_of_isDigit hd
  refine spells_scalar ?_ ?_ fun rest offset hrest => ?_
  · rcases ht with ht | ht
    · exact ⟨_, t, ht, (digit k hk).1⟩
    · exact ⟨'-', _, ht, by decide⟩
  · rcases ht with ht | ht <;> rw [ht]
    · rintro _ ⟨⟩
      exact (digit k hk).2
    · rintro _ ⟨⟩
      decide
  · rw [scalar]
    split
    next name v hfind =>
      have hprefix := List.find?_some hfind
      exact absurd (List.isPrefixOf_iff_prefix.mp hprefix)
        (not_prefix_toString n rest (name, v) (List.mem_of_find?_eq_some hfind))
    · simp only [number?_toString n hrest, Cursor.advance, List.drop_left]

theorem spells_str (layout : JsonLayout) (s : String) :
    Spells (JsonValue.encodeString layout s).toList (.str s) where
  starts := by simpa using starts_encodeString layout s []
  reads fuel offset rest _ hfuel := by
    obtain ⟨x, hx⟩ : ∃ x, (JsonValue.encodeString layout s).toList = '"' :: x :=
      ⟨_, String.toList_ofList⟩
    have hread := string_encodeString layout s rest offset
    rw [hx] at hread hfuel ⊢
    simp only [List.length_cons] at hfuel
    obtain ⟨fuel, rfl⟩ : ∃ n, fuel = n + 1 := ⟨fuel - 1, by omega⟩
    rw [List.cons_append] at hread ⊢
    rw [value, hread]
    rfl

theorem spells_arr {vs : List JsonValue} {w : List Char} (hgap : Blanks gap)
    (hclosing : Blanks closing) (h : Rows Spells (',' :: gap) (closing ++ [']']) w vs) :
    Spells ('[' :: (gap ++ w)) (.arr vs) where
  starts := ⟨'[', _, rfl, by decide⟩
  reads fuel offset rest _ hfuel := by
    simp only [List.length_append, List.length_cons] at hfuel
    obtain ⟨fuel, rfl⟩ : ∃ n, fuel = n + 1 := ⟨fuel - 1, by omega⟩
    have hopen : (w ++ rest).head? ≠ some ']' := fun he =>
      (start_facts ']' (h.starts_items.head rest ']' he)).2.1 rfl
    simp only [List.cons_append, List.append_assoc, value, Cursor.advance, List.drop_succ_cons,
      List.drop_zero, h.starts_items.skipBlanks hgap, if_neg hopen]
    rw [items_rows hgap hclosing h (by omega)]
    simp [Nat.add_assoc, Nat.add_comm 1]

theorem spells_arr_nil : Spells ['[', ']'] (.arr []) where
  starts := ⟨'[', _, rfl, by decide⟩
  reads fuel offset rest _ hfuel := by
    obtain ⟨fuel, rfl⟩ : ∃ n, fuel = n + 1 := ⟨fuel - 1, by simp at hfuel; omega⟩
    have hclose : Cursor.isBlank ']' = false := by decide
    simp [value, Cursor.advance, skipBlanks_cons hclose, Nat.add_assoc]

theorem spells_obj_nil : Spells ['\x7b', '\x7d'] (.obj []) where
  starts := ⟨'\x7b', _, rfl, by decide⟩
  reads fuel offset rest _ hfuel := by
    obtain ⟨fuel, rfl⟩ : ∃ n, fuel = n + 1 := ⟨fuel - 1, by simp at hfuel; omega⟩
    have hclose : Cursor.isBlank '\x7d' = false := by decide
    simp [value, Cursor.advance, skipBlanks_cons hclose, Nat.add_assoc]

theorem spells_obj {ms : List (String × JsonValue)} {w : List Char} (hgap : Blanks gap)
    (hclosing : Blanks closing) (hkeys : (ms.map Prod.fst).Nodup)
    (h : Rows SpellsMember (',' :: gap) (closing ++ ['\x7d']) w ms) :
    Spells ('\x7b' :: (gap ++ w)) (.obj ms) where
  starts := ⟨'\x7b', _, rfl, by decide⟩
  reads fuel offset rest _ hfuel := by
    simp only [List.length_append, List.length_cons] at hfuel
    obtain ⟨fuel, rfl⟩ : ∃ n, fuel = n + 1 := ⟨fuel - 1, by omega⟩
    have hopen : (w ++ rest).head? ≠ some '\x7d' := fun he =>
      (start_facts '\x7d' (h.starts_members.head rest '\x7d' he)).2.2.1 rfl
    simp only [List.cons_append, List.append_assoc, value, Cursor.advance, List.drop_succ_cons,
      List.drop_zero, h.starts_members.skipBlanks hgap, if_neg hopen]
    rw [members_rows hgap hclosing h (by simpa using hkeys) (by omega)]
    simp [Nat.add_assoc, Nat.add_comm 1]

theorem rows_bracketed {α : Type} {spells : List Char → α → Prop} {separator ending : List Char}
    {text : α → String} {as : List α} (hne : as ≠ []) (h : ∀ a ∈ as, spells (text a).toList a) :
    Rows spells separator ending
      (separator.intercalate ((as.map text).map String.toList) ++ ending) as := by
  induction as with
  | nil => exact absurd rfl hne
  | cons a as ih =>
    rw [List.forall_mem_cons] at h
    cases as with
    | nil => exact List.intercalate_singleton ▸ .last h.1
    | cons b as =>
      have hrows := ih (List.cons_ne_nil b as) h.2
      simp only [List.map_cons, List.intercalate_cons_cons, List.append_assoc] at hrows ⊢
      exact .cons h.1 hrows

end Values

end Json

namespace JsonValue

variable {layout : JsonLayout} {v : JsonValue}

theorem renderItems_eq (layout : JsonLayout) (depth : Nat) (items : List JsonValue) :
    renderItems layout depth items = items.map (renderAt layout depth) := by
  induction items with
  | nil => rfl
  | cons item items ih => rw [renderItems, ih, List.map_cons]

def renderMember (layout : JsonLayout) (depth : Nat) (m : String × JsonValue) : String :=
  encodeString layout m.1 ++ layout.keySeparator ++ renderAt layout depth m.2

theorem renderMembers_eq (layout : JsonLayout) (depth : Nat) (members : List (String × JsonValue)) :
    renderMembers layout depth members = members.map (renderMember layout depth) := by
  induction members with
  | nil => rfl
  | cons member members ih => rw [renderMembers, ih, List.map_cons, renderMember]

theorem toList_bracketed {opening closing : String} {o c : Char} (ho : opening.toList = [o])
    (hc : closing.toList = [c]) (layout : JsonLayout) (depth : Nat) {elements : List String}
    (h : elements ≠ []) :
    (bracketed layout depth opening closing elements).toList =
      o :: ((layout.lineBreak (depth + 1)).toList ++
        ((',' :: (layout.lineBreak (depth + 1)).toList).intercalate (elements.map String.toList) ++
          ((layout.lineBreak depth).toList ++ [c]))) := by
  have hempty : ¬ elements.isEmpty = true := by simpa using h
  simp only [bracketed, if_neg hempty, String.toList_append, String.toList_intercalate,
    List.append_assoc, ho, hc]
  rfl

theorem spellsMember_renderMember (layout : JsonLayout) (depth : Nat) {m : String × JsonValue}
    (h : Spells (renderAt layout depth m.2).toList m.2) :
    SpellsMember (renderMember layout depth m).toList m := by
  obtain ⟨b, hb, hseparator⟩ : ∃ b, Blanks b ∧ layout.keySeparator.toList = ':' :: b := by
    cases layout with
    | compact => exact ⟨[], nofun, rfl⟩
    | indented width => exact ⟨[' '], by simp [Blanks]; rfl, by simp [JsonLayout.keySeparator]⟩
  rw [renderMember, String.toList_append, String.toList_append, hseparator, List.append_assoc,
    List.cons_append]
  exact .mk hb h

theorem Exact.spells (h : v.Exact) (layout : JsonLayout) (depth : Nat) :
    Spells (renderAt layout depth v).toList v := by
  induction h generalizing depth with
  | null => exact spells_null
  | bool b => cases b <;> first | exact spells_true | exact spells_false
  | int n => exact spells_int n
  | str s => exact spells_str layout s
  | @arr vs _ ih =>
    rw [renderAt, renderItems_eq]
    by_cases hne : vs = []
    · subst hne
      simpa [bracketed] using spells_arr_nil
    · rw [toList_bracketed (o := '[') (c := ']') rfl rfl layout depth (by simpa using hne)]
      exact spells_arr (blanks_lineBreak _ _) (blanks_lineBreak layout depth)
        (rows_bracketed hne fun v hv => ih v hv (depth + 1))
  | @obj ms _ hkeys ih =>
    rw [renderAt, renderMembers_eq]
    by_cases hne : ms = []
    · subst hne
      simpa [bracketed] using spells_obj_nil
    · rw [toList_bracketed (o := '\x7b') (c := '\x7d') rfl rfl layout depth (by simpa using hne)]
      exact spells_obj (blanks_lineBreak _ _) (blanks_lineBreak layout depth) hkeys
        (rows_bracketed hne fun m hm => spellsMember_renderMember layout _ (ih m hm (depth + 1)))

theorem Exact.parse_render (h : v.Exact) (layout : JsonLayout) : parse (v.render layout) = .ok v := by
  have hspells := h.spells layout 0
  have start := hspells.starts.head []
  rw [List.append_nil] at start
  have hmark : ¬ (render layout v).toList.head? = some '\uFEFF' := fun he =>
    (start_facts _ (start _ he)).2.2.2 rfl
  have hskip : Cursor.skipBlanks ⟨(render layout v).toList, 0⟩ = ⟨(render layout v).toList, 0⟩ :=
    skipBlanks_append (b := []) nofun fun c hc => (start_facts c (start c hc)).1
  have hread := hspells.reads (2 * (render layout v).toList.length + 2) 0 [] nofun
    (Nat.le_add_right _ 2)
  rw [List.append_nil] at hread
  simp only [parse, if_neg hmark, hskip]
  rw [render] at hread ⊢
  rw [hread]
  rfl

end JsonValue

end ContextRoles
