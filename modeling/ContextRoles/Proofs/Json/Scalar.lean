import ContextRoles.Json.Reader
import ContextRoles.Json.Writer

/-! # Strings and whole numbers in JSON

Every character is read back from its escapes, those of a character beyond the first plane together, and
a whole number from its decimal digits where no more of a number follows.
-/

namespace ContextRoles.Json

open Lexeme (digitValue digitsValue)

variable {layout : JsonLayout} {c : Char} {opened offset n : Nat} {done rest w : List Char}

section Hexadecimal

theorem digitsValue_append (base : Nat) (x : List Char) (c : Char) :
    digitsValue base (x ++ [c]) = digitsValue base x * base + digitValue c := by
  rw [digitsValue, List.foldl_append]
  rfl

theorem digitValue_hexDigit : ∀ d < 16, digitValue (Text.hexDigit d) = d := by decide

theorem digitsValue_hexDigits (width n : Nat) :
    digitsValue 16 (Text.hexDigits width n) = n % Nat.pow 16 width := by
  induction width generalizing n with
  | zero => simp [Text.hexDigits, digitsValue, Nat.mod_one, Nat.pow]
  | succ width ih =>
    have hpow : Nat.pow 16 (width + 1) = 16 * Nat.pow 16 width := Nat.mul_comm _ _
    rw [Text.hexDigits, digitsValue_append, ih, digitValue_hexDigit _ (Nat.mod_lt _ (by decide)),
      hpow, Nat.mod_mul]
    omega

theorem hexNumber?_hexDigits (h : n < 0x10000) : hexNumber? (Text.hexDigits 4 n) = some n := by
  have digit : ∀ d < 16, (('0' ≤ Text.hexDigit d && Text.hexDigit d ≤ '9') ||
      ('a' ≤ Text.hexDigit d && Text.hexDigit d ≤ 'f') ||
      ('A' ≤ Text.hexDigit d && Text.hexDigit d ≤ 'F')) = true := by decide
  have hn : n < Nat.pow 16 4 := h
  rw [hexNumber?, if_pos, digitsValue_hexDigits, Nat.mod_eq_of_lt hn]
  simp only [Text.hexDigits, List.nil_append, List.cons_append, List.all_cons, List.all_nil,
    digit _ (Nat.mod_lt _ (by decide : 0 < 16)), Bool.and_self]

theorem take_hexDigits (n : Nat) (rest : List Char) :
    (Text.hexDigits 4 n ++ rest).take 4 = Text.hexDigits 4 n := rfl

theorem drop_hexDigits (n : Nat) (rest : List Char) :
    (Text.hexDigits 4 n ++ rest).drop 4 = rest := rfl

end Hexadecimal

section Escapes

theorem charOf_toNat (c : Char) : charOf c.toNat = c := by
  rw [charOf, if_pos (show c.toNat.isValidChar from c.valid), Char.ofNat_toNat]

theorem unicodeEscape_hexDigits (hn : n < 0x10000) (h : isHighSurrogate n = false)
    (hrest : rest ≠ []) :
    unicodeEscape ⟨Text.hexDigits 4 n ++ rest, offset⟩ = .ok (charOf n, 4) := by
  have hlong : ¬ (Text.hexDigits 4 n ++ rest).length ≤ 4 := by
    have := List.length_pos_iff.mpr hrest
    simp only [List.length_append, Text.hexDigits, List.length_cons, List.length_nil]
    omega
  simp only [unicodeEscape, if_neg hlong, take_hexDigits, hexNumber?_hexDigits hn, h,
    Bool.false_eq_true, if_false]

theorem pairedSurrogate?_hexDigits {m : Nat} (hm : m < 0x10000) (h : isLowSurrogate m = true)
    (hrest : rest ≠ []) :
    pairedSurrogate? ⟨'\\' :: 'u' :: (Text.hexDigits 4 m ++ rest), offset⟩ = .ok (some m) := by
  obtain ⟨c, rest, rfl⟩ := List.exists_cons_of_ne_nil hrest
  have hnumber := hexNumber?_hexDigits hm
  simp only [Text.hexDigits, List.nil_append, List.cons_append] at hnumber ⊢
  simp only [pairedSurrogate?, hnumber, h, if_true]

theorem unicodeEscape_pair {m : Nat} (hn : n < 0x10000) (h : isHighSurrogate n = true)
    (hm : m < 0x10000) (h' : isLowSurrogate m = true) (hrest : rest ≠ []) :
    unicodeEscape ⟨Text.hexDigits 4 n ++ ('\\' :: 'u' :: (Text.hexDigits 4 m ++ rest)), offset⟩ =
      .ok (charOf (0x10000 + (n - 0xD800) * 0x400 + (m - 0xDC00)), 10) := by
  have hlong : ¬ (Text.hexDigits 4 n ++ ('\\' :: 'u' :: (Text.hexDigits 4 m ++ rest))).length ≤
      4 := by
    simp only [List.length_append, Text.hexDigits, List.length_cons, List.length_nil]
    omega
  simp only [unicodeEscape, if_neg hlong, take_hexDigits, hexNumber?_hexDigits hn, h, if_true,
    Cursor.advance, drop_hexDigits, pairedSurrogate?_hexDigits hm h' hrest]
  rfl

theorem escape_letter {e : Char} (hu : e ≠ 'u') (h : letterEscape? e = some c) :
    escape opened ⟨e :: rest, offset⟩ = .ok (c, 1) := by
  simp only [escape, h]

theorem escape_unicode (hc : c.toNat < 0x10000) (hrest : rest ≠ []) :
    escape opened ⟨'u' :: (Text.hexDigits 4 c.toNat ++ rest), offset⟩ = .ok (c, 5) := by
  have hscalar : isHighSurrogate c.toNat = false := by
    have := c.valid
    simp only [UInt32.isValidChar, Nat.isValidChar, Char.toNat] at *
    simp only [isHighSurrogate, Bool.and_eq_false_iff, decide_eq_false_iff_not]
    omega
  simp only [escape, Cursor.advance, List.drop_succ_cons, List.drop_zero,
    unicodeEscape_hexDigits hc hscalar hrest, charOf_toNat]
  rfl

theorem escape_surrogates (hc : 0x10000 ≤ c.toNat) (hrest : rest ≠ []) :
    escape opened ⟨'u' :: (Text.hexDigits 4 (0xD800 + (c.toNat - 0x10000) / 0x400) ++
      ('\\' :: 'u' :: (Text.hexDigits 4 (0xDC00 + (c.toNat - 0x10000) % 0x400) ++ rest))),
      offset⟩ = .ok (c, 11) := by
  have hvalid : c.toNat < 0x110000 := by
    have := c.valid
    simp only [UInt32.isValidChar, Nat.isValidChar, Char.toNat] at *
    omega
  have hsum : 0x10000 + (0xD800 + (c.toNat - 0x10000) / 0x400 - 0xD800) * 0x400 +
      (0xDC00 + (c.toNat - 0x10000) % 0x400 - 0xDC00) = c.toNat := by omega
  have hhigh : isHighSurrogate (0xD800 + (c.toNat - 0x10000) / 0x400) = true := by
    simp only [isHighSurrogate, Bool.and_eq_true, decide_eq_true_eq]
    omega
  have hlow : isLowSurrogate (0xDC00 + (c.toNat - 0x10000) % 0x400) = true := by
    simp only [isLowSurrogate, Bool.and_eq_true, decide_eq_true_eq]
    omega
  simp only [escape, Cursor.advance, List.drop_succ_cons, List.drop_zero]
  rw [unicodeEscape_pair (by omega) hhigh (by omega) hlow hrest, hsum, charOf_toNat]
  rfl

end Escapes

section Strings

theorem stringFrom_escape (h : escape opened ⟨w ++ rest, offset + 1⟩ = .ok (c, w.length)) :
    stringFrom opened done ('\\' :: (w ++ rest)) offset =
      stringFrom opened (c :: done) rest (offset + (w.length + 1)) := by
  rw [stringFrom]
  simp only [h, List.drop_left, Nat.add_assoc, Nat.add_comm 1]

theorem stringFrom_raw (hq : c ≠ '"') (hb : c ≠ '\\') (hc : 0x20 ≤ c.toNat) :
    stringFrom opened done (c :: rest) offset =
      stringFrom opened (c :: done) rest (offset + 1) := by
  have hcontrol : ¬ c.toNat ≤ 0x1F := by omega
  rw [stringFrom.eq_def]
  split
  next heq => cases heq
  next heq =>
    cases heq
    exact absurd rfl hq
  next heq =>
    cases heq
    exact absurd rfl hb
  next heq =>
    cases heq
    rw [if_neg hcontrol]

theorem shortEscape?_eq_some {escape : List Char} (h : JsonValue.shortEscape? c = some escape) :
    ∃ e, escape = ['\\', e] ∧ e ≠ 'u' ∧ letterEscape? e = some c := by
  unfold JsonValue.shortEscape? at h
  repeat' split at h
  all_goals cases h
  all_goals
    subst_vars
    exact ⟨_, rfl, by decide, rfl⟩

theorem shortEscape?_eq_none (h : JsonValue.shortEscape? c = none) : c ≠ '"' ∧ c ≠ '\\' := by
  constructor <;>
  · rintro rfl
    exact absurd h (by decide)

theorem stringFrom_encodeChar (layout : JsonLayout) (c : Char) (hrest : rest ≠ []) :
    stringFrom opened done (JsonValue.encodeChar layout c ++ rest) offset =
      stringFrom opened (c :: done) rest (offset + (JsonValue.encodeChar layout c).length) := by
  cases hs : JsonValue.shortEscape? c with
  | some escape =>
    obtain ⟨e, rfl, hu, he⟩ := shortEscape?_eq_some hs
    simp only [JsonValue.encodeChar, hs]
    exact stringFrom_escape (w := [e]) (escape_letter hu he)
  | none =>
    obtain ⟨hq, hb⟩ := shortEscape?_eq_none hs
    have unicode (hc : c.toNat < 0x10000) :
        stringFrom opened done (JsonValue.unicodeEscape c.toNat ++ rest) offset =
          stringFrom opened (c :: done) rest
            (offset + (JsonValue.unicodeEscape c.toNat).length) :=
      stringFrom_escape (w := 'u' :: Text.hexDigits 4 c.toNat) (escape_unicode hc hrest)
    cases layout with
    | compact =>
      simp only [JsonValue.encodeChar, hs]
      by_cases hprint : 0x20 ≤ c.toNat ∧ c.toNat ≤ 0x7E
      · simp only [if_pos hprint]
        exact stringFrom_raw hq hb hprint.1
      · simp only [if_neg hprint]
        by_cases hc : c.toNat < 0x10000
        · simp only [if_pos hc]
          exact unicode hc
        · simp only [if_neg hc, JsonValue.surrogateEscapes]
          exact stringFrom_escape (w := 'u' :: (Text.hexDigits 4 _ ++ JsonValue.unicodeEscape _))
            (escape_surrogates (Nat.le_of_not_lt hc) hrest)
    | indented width =>
      simp only [JsonValue.encodeChar, hs]
      by_cases hc : c.toNat < 0x20
      · simp only [if_pos hc]
        exact unicode (Nat.lt_trans hc (by decide))
      · simp only [if_neg hc]
        exact stringFrom_raw hq hb (Nat.le_of_not_lt hc)

theorem stringFrom_encoded (layout : JsonLayout) (text : List Char) :
    stringFrom opened done (text.flatMap (JsonValue.encodeChar layout) ++ ('"' :: rest)) offset =
      .ok (String.ofList (done.reverse ++ text),
        ⟨rest, offset + (text.flatMap (JsonValue.encodeChar layout)).length + 1⟩) := by
  induction text generalizing done offset with
  | nil => rw [List.flatMap_nil, List.nil_append, stringFrom, List.append_nil]; rfl
  | cons c text ih =>
    rw [List.flatMap_cons, List.append_assoc, stringFrom_encodeChar layout c (by simp), ih,
      List.length_append, List.reverse_cons, List.append_assoc, Nat.add_assoc offset]
    rfl

theorem string_encodeString (layout : JsonLayout) (s : String) (rest : List Char) (offset : Nat) :
    string ⟨(JsonValue.encodeString layout s).toList ++ rest, offset⟩ =
      .ok (s, ⟨rest, offset + (JsonValue.encodeString layout s).toList.length⟩) := by
  simp only [JsonValue.encodeString, String.toList_ofList, List.cons_append, List.append_assoc,
    List.nil_append, string, List.drop_succ_cons, List.drop_zero, stringFrom_encoded,
    List.reverse_nil, String.ofList_toList, List.length_cons, List.length_append, List.length_nil]
  congr 3
  omega

end Strings

section Numbers

/-- The digits of a number stop here, and neither a fraction nor an exponent follows. -/
def EndsNumber (rest : List Char) : Prop :=
  ∀ c ∈ rest.head?, isDigit c = false ∧ c ≠ '.' ∧ c ≠ 'e' ∧ c ≠ 'E'

theorem digitsValue_ten {digits : List Char} (h : ∀ c ∈ digits, c.isDigit = true) :
    digitsValue 10 digits = Nat.ofDigitChars 10 digits 0 := by
  have fold : ∀ n, digits.foldl (fun n c => n * 10 + digitValue c) n =
      Nat.ofDigitChars 10 digits n := by
    induction digits with
    | nil => exact fun _ => rfl
    | cons c digits ih =>
      intro n
      rw [List.forall_mem_cons] at h
      have hc : digitValue c = c.toNat - '0'.toNat := by
        have := h.1
        simp only [Char.isDigit, ge_iff_le, Bool.and_eq_true, decide_eq_true_eq] at this
        exact if_pos this
      rw [List.foldl_cons, ih h.2, Nat.ofDigitChars_cons, hc, Nat.mul_comm]
  exact fold 0

theorem isDigit_of_mem_toDigits (h : c ∈ Nat.toDigits 10 n) : isDigit c = true := by
  have := Nat.isDigit_of_mem_toDigits (by decide) (by decide) h
  simp only [Char.isDigit, ge_iff_le, Bool.and_eq_true, decide_eq_true_eq] at this
  simp only [isDigit, Bool.and_eq_true, decide_eq_true_eq]
  exact this

theorem digitsValue_toDigits (n : Nat) : digitsValue 10 (Nat.toDigits 10 n) = n := by
  rw [digitsValue_ten fun c hc => Nat.isDigit_of_mem_toDigits (by decide) (by decide) hc,
    Nat.ofDigitChars_ten_toDigits]

theorem exists_of_isDigit (h : isDigit c = true) : ∃ k < 10, c = Char.ofNat (48 + k) := by
  simp only [isDigit, Bool.and_eq_true, decide_eq_true_eq] at h
  have hlow : 48 ≤ c.toNat := h.1
  have hhigh : c.toNat ≤ 57 := h.2
  refine ⟨c.toNat - 48, by omega, ?_⟩
  rw [Nat.add_sub_cancel' hlow, Char.ofNat_toNat]

theorem head_toDigits (n : Nat) : ∃ d ds, Nat.toDigits 10 n = d :: ds ∧ (d = '0' → n = 0) := by
  induction n using Nat.strongRecOn with
  | _ n ih =>
    by_cases h : n < 10
    · exact ⟨_, [], Nat.toDigits_of_lt_base h, Nat.digitChar_eq_zero.mp⟩
    · obtain ⟨d, ds, hd, hzero⟩ := ih (n / 10) (by omega)
      rw [Nat.toDigits_of_base_le (by decide) (by omega), hd]
      exact ⟨d, _, rfl, fun h0 => absurd (hzero h0) (by omega)⟩

theorem wholeDigits_of_ne_zero (h : c ≠ '0') :
    wholeDigits (c :: rest) = (c :: rest).takeWhile isDigit := by
  unfold wholeDigits
  split
  next heq =>
    cases heq
    exact absurd rfl h
  next => rfl

theorem wholeDigits_toDigits (n : Nat) (hrest : EndsNumber rest) :
    wholeDigits (Nat.toDigits 10 n ++ rest) = Nat.toDigits 10 n := by
  have stop : rest.takeWhile isDigit = [] := by
    cases rest with
    | nil => rfl
    | cons c rest => exact List.takeWhile_cons_of_neg (by simp [(hrest c rfl).1])
  obtain ⟨d, ds, hd, hzero⟩ := head_toDigits n
  by_cases h0 : d = '0'
  · rw [hzero h0, Nat.toDigits_zero]
    rfl
  · have digits : (Nat.toDigits 10 n ++ rest).takeWhile isDigit = Nat.toDigits 10 n := by
      rw [List.takeWhile_append_of_pos fun c hc => isDigit_of_mem_toDigits hc, stop,
        List.append_nil]
    rw [hd, List.cons_append] at digits ⊢
    rw [wholeDigits_of_ne_zero h0, digits]

theorem fractionDigits_of_ends (hrest : EndsNumber rest) : fractionDigits rest = [] := by
  unfold fractionDigits
  split
  next => exact absurd rfl (hrest '.' rfl).2.1
  next => rfl

theorem exponentPart?_of_ends (hrest : EndsNumber rest) : exponentPart? rest = none := by
  cases rest with
  | nil => rfl
  | cons c rest =>
    obtain ⟨-, -, he, hE⟩ := hrest c rfl
    simp [exponentPart?, he, hE]

theorem number?_toDigits (n : Nat) (hrest : EndsNumber rest) :
    number? (Nat.toDigits 10 n ++ rest) = some (.int n, (Nat.toDigits 10 n).length) := by
  have hsign : (Nat.toDigits 10 n ++ rest).head? ≠ some '-' := by
    obtain ⟨d, ds, hd, -⟩ := head_toDigits n
    have hdigit : isDigit d = true := isDigit_of_mem_toDigits (n := n) (by rw [hd]; exact .head _)
    rw [hd]
    rintro ⟨⟩
    exact absurd hdigit (by decide)
  simp only [number?, hsign, if_false, List.drop_zero, wholeDigits_toDigits n hrest,
    List.isEmpty_iff, Nat.toDigits_ne_nil, Nat.zero_add, List.drop_left,
    fractionDigits_of_ends hrest, if_true, exponentPart?_of_ends hrest, digitsValue_toDigits]
  rfl

theorem number?_neg_toDigits (n : Nat) (hrest : EndsNumber rest) :
    number? ('-' :: (Nat.toDigits 10 n ++ rest)) =
      some (.int (-n), (Nat.toDigits 10 n).length + 1) := by
  have hdrop : ('-' :: (Nat.toDigits 10 n ++ rest)).drop (1 + (Nat.toDigits 10 n).length) =
      rest := by rw [Nat.add_comm, List.drop_succ_cons, List.drop_left]
  simp only [number?, List.head?_cons, if_true, List.drop_succ_cons, List.drop_zero,
    wholeDigits_toDigits n hrest, List.isEmpty_iff, Nat.toDigits_ne_nil, if_false, hdrop,
    fractionDigits_of_ends hrest, exponentPart?_of_ends hrest, digitsValue_toDigits]
  simp [Nat.add_comm]

theorem toString_toList (n : Int) : (toString n).toList =
    if 0 ≤ n then Nat.toDigits 10 n.natAbs else '-' :: Nat.toDigits 10 n.natAbs := by
  cases n with
  | ofNat n =>
    rw [if_pos (show 0 ≤ Int.ofNat n from Int.natCast_nonneg n)]
    exact Nat.toList_repr
  | negSucc n =>
    rw [if_neg (Int.not_le.mpr (Int.negSucc_lt_zero n)), Int.toString_eq_repr, Int.repr,
      String.toList_append, Nat.toList_repr]
    rfl

theorem number?_toString (n : Int) (hrest : EndsNumber rest) :
    number? ((toString n).toList ++ rest) = some (.int n, (toString n).toList.length) := by
  rw [toString_toList]
  by_cases h : 0 ≤ n
  · rw [if_pos h, number?_toDigits _ hrest, Int.natAbs_of_nonneg h]
  · rw [if_neg h, List.cons_append, number?_neg_toDigits _ hrest,
      Int.ofNat_natAbs_of_nonpos (by omega), Int.neg_neg]
    rfl

end Numbers

end ContextRoles.Json
