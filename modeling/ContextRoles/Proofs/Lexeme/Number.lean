import ContextRoles.Proofs.Lexeme.Literal
import ContextRoles.Proofs.Lexeme.Trivia
import Mathlib.Data.List.Induction
import Mathlib.Data.Nat.Digits.Defs

/-! # What a number says

A whole number is written in decimal digits, or behind a zero and a letter in hexadecimal or octal ones,
and ends where its digits do. The grammar that reads a whole number or a double is written apart from
the one of whole numbers and the one of doubles, and agrees with both.
-/

namespace ContextRoles.Lexeme

open Parsing Literal
open ContextRoles.Parsing.Parser hiding some string

/-- The letters that announce digits of a base behind a leading zero. -/
def Literal.Radix.marks : Radix → List Char
  | .decimal => []
  | .octal => ['o', 'O']
  | .hexadecimal => ['x', 'X']

namespace Number

variable {α β : Type} {p q r : Parser α} {a : α} {s t : State} {radix : Radix} {mark : Char}
  {digits w rest text : List Char} {n : Nat}

/-- The first text is a whole number in front of the second one, which does not go on with it. The third
component is the value by the places of the digits. -/
inductive Writes : List Char → List Char → Nat → Prop where
  | plain {digits rest : List Char} : Radix.decimal.Digits digits →
      (∀ c ∈ rest.head?, Radix.decimal.isDigit c = false) →
      (digits = ['0'] → ∀ c ∈ rest.head?, c ∉ ['x', 'X', 'o', 'O']) →
      Writes digits rest (Nat.ofDigits 10 (digits.reverse.map digitValue))
  | marked {radix : Radix} {mark : Char} {digits rest : List Char} : mark ∈ radix.marks →
      radix.Digits digits → (∀ c ∈ rest.head?, radix.isDigit c = false) →
      Writes ('0' :: mark :: digits) rest (Nat.ofDigits radix.base (digits.reverse.map digitValue))

section Digits

theorem digitsValue_eq (base : Nat) (digits : List Char) :
    digitsValue base digits = Nat.ofDigits base (digits.reverse.map digitValue) := by
  induction digits using List.reverseRecOn with
  | nil => rfl
  | append_singleton ds d ih =>
    have last : digitsValue base (ds ++ [d]) = digitsValue base ds * base + digitValue d := by
      simp [digitsValue]
    rw [last, ih, List.reverse_concat, List.map_cons, Nat.ofDigits_cons, Nat.mul_comm, Nat.add_comm]

theorem digitsValue_zero_cons (base : Nat) (digits : List Char) :
    digitsValue base ('0' :: digits) = digitsValue base digits := by
  change digits.foldl _ (0 * base + digitValue '0') = _
  rw [Nat.zero_mul]
  rfl

theorem exists_digits (radix : Radix) (text : List Char) : ∃ digits rest, text = digits ++ rest ∧
    (∀ d ∈ digits, radix.isDigit d = true) ∧ ∀ c ∈ rest.head?, radix.isDigit c = false :=
  ⟨text.takeWhile radix.isDigit, text.dropWhile radix.isDigit,
    List.takeWhile_append_dropWhile.symm, List.all_eq_true.mp List.all_takeWhile,
    fun _ => eq_false_of_head?_dropWhile⟩

theorem refusesAt_digits (radix : Radix) (hs : s.Placed)
    (h : ∀ c ∈ s.rest.head?, radix.isDigit c = false) :
    RefusesAt (ofDigits radix.base radix.digit) s := ((takes_digit radix).refuses s hs h).bind.bind

theorem refuses_digits (radix : Radix) (h : ∀ c ∈ text.head?, radix.isDigit c = false) :
    Refuses (ofDigits radix.base radix.digit) text := by
  rintro s hs rfl
  exact refusesAt_digits radix hs.placed h

theorem forall_mem_of_all {P : Char → Prop} [DecidablePred P] {l : List Char}
    (h : (l.all fun c => decide (P c)) = true) : ∀ c ∈ l, P c :=
  fun c hc => of_decide_eq_true (List.all_eq_true.mp h c hc)

theorem mem_marks (h : mark ∈ radix.marks) : mark ∈ ['x', 'X', 'o', 'O'] := by
  have known : ∀ radix ∈ [Radix.decimal, .octal, .hexadecimal],
      (radix.marks.all fun mark => decide (mark ∈ ['x', 'X', 'o', 'O'])) = true := by decide
  exact forall_mem_of_all (known radix (by cases radix <;> decide)) mark h

theorem apart_of_digit {c : Char} (h : Radix.decimal.isDigit c = true) :
    (∀ radix : Radix, c ∉ radix.marks) ∧ c ∉ ['.', 'e', 'E'] := by
  have apart : ∀ c ∈ numberHeads .decimal,
      (∀ radix ∈ [Radix.decimal, .octal, .hexadecimal], c ∉ radix.marks) ∧ c ∉ ['.', 'e', 'E'] :=
    forall_mem_of_all (by decide)
  obtain ⟨hmarks, hends⟩ := apart c (mem_decimalDigits h)
  exact ⟨fun radix => hmarks radix (by cases radix <;> decide), hends⟩

def markedNumeral : Radix → Parser Nat
  | .decimal => decimal
  | .octal => octal
  | .hexadecimal => hexadecimal

theorem reads_marked (hmark : mark ∈ radix.marks) (h : radix.Digits digits)
    (hstop : ∀ c ∈ rest.head?, radix.isDigit c = false) :
    Reads (markedNumeral radix) (mark :: digits) rest (digitsValue radix.base digits) := by
  have read := reads_ofDigits h hstop
  cases radix with
  | decimal => cases hmark
  | octal | hexadecimal => exact (Reads.satisfy (List.contains_iff_mem.mpr hmark)).then_ read

theorem refuses_marked (radix : Radix) (hradix : radix ≠ .decimal)
    (h : ∀ c ∈ text.head?, c ∉ radix.marks) :
    Refuses (markedNumeral radix) text := by
  cases radix with
  | decimal => exact absurd rfl hradix
  | octal | hexadecimal => exact (Refuses.satisfy fun c hc => Bool.eq_false_iff.mpr fun hm =>
      h c hc (List.contains_iff_mem.mp hm)).bind

theorem refuses_hexadecimal (hmark : mark ∈ Radix.octal.marks) :
    Refuses hexadecimal (mark :: rest) := by
  have apart : ∀ c ∈ Radix.octal.marks, c ∉ Radix.hexadecimal.marks := forall_mem_of_all (by decide)
  refine refuses_marked .hexadecimal nofun fun c hc => ?_
  obtain rfl : mark = c := Option.some_inj.mp hc
  exact apart mark hmark

end Digits

section Reading

/-- In front of `rest`, `q` reads what `p` does, as the value that `f` makes of it, and refuses what `p`
refuses. -/
structure Follows (f : Nat → α) (rest : List Char) (p : Parser Nat) (q : Parser α) : Prop where
  reads : ∀ {w : List Char} {n : Nat}, Reads p w rest n → Reads q w rest (f n)
  refuses : ∀ {text : List Char}, Refuses p text → Refuses q text

theorem Follows.refl (rest : List Char) (p : Parser Nat) : Follows id rest p p := ⟨id, id⟩

theorem Follows.map (f : Nat → α) (rest : List Char) (p : Parser Nat) :
    Follows f rest p (Parser.map f p) := ⟨fun h => h.map f, fun h => h.map f⟩

theorem Writes.reads_branches {f : Nat → α} {hex oct dec : Parser α} (others : List (Parser α))
    (h : Writes w rest n) (hhex : Follows f rest hexadecimal hex) (hoct : Follows f rest octal oct)
    (hdec : Follows f rest decimal dec)
    (hothers : ∀ p ∈ others, Refuses p rest) :
    Reads (alt ((char '0').then_ (choice (hex :: oct :: dec :: (others ++ [Parser.pure (f 0)])))) dec)
      w rest (f n) := by
  cases h with
  | marked hmark hd hstop =>
    refine .alt_left (.then_ (v := ['0']) (.char '0') ?_)
    rw [← digitsValue_eq]
    rename_i radix mark digits
    have read := reads_marked hmark hd hstop
    cases radix with
    | decimal => cases hmark
    | hexadecimal => exact .choice (l := []) nofun (hhex.reads read)
    | octal =>
      have before : Refuses hex (mark :: digits ++ rest) := hhex.refuses (refuses_hexadecimal hmark)
      exact .choice (l := [hex]) (List.forall_mem_singleton.mpr before) (hoct.reads read)
  | plain hd hstop hzero =>
    obtain ⟨d, ds, rfl⟩ := List.exists_cons_of_ne_nil hd.ne_nil
    have whole : Reads decimal (d :: ds) rest (digitsValue 10 (d :: ds)) := reads_ofDigits hd hstop
    have hdigits := List.forall_mem_cons.mp hd.all
    rw [← digitsValue_eq]
    by_cases hd0 : d = '0'
    · subst hd0
      refine .alt_left (.then_ (v := ['0']) (.char '0') ?_)
      -- The marks are refused by the next digit, or by what follows a zero that stands alone.
      have unmarked : ∀ radix : Radix, radix ≠ .decimal →
          Refuses (markedNumeral radix) (ds ++ rest) := fun radix hradix =>
        refuses_marked radix hradix fun c hc => by
          cases ds with
          | nil => exact fun hm => hzero rfl c hc (mem_marks hm)
          | cons e es =>
            obtain rfl : e = c := Option.some_inj.mp hc
            exact (apart_of_digit (hdigits.2 e (List.mem_cons_self ..))).1 radix
      have hhexNo := hhex.refuses (unmarked .hexadecimal nofun)
      have hoctNo := hoct.refuses (unmarked .octal nofun)
      rw [digitsValue_zero_cons]
      cases ds with
      | nil =>
        have hdecNo := hdec.refuses (refuses_digits .decimal hstop)
        refine .choice (l := hex :: oct :: dec :: others) (k := []) ?_ (.pure (f 0))
        simpa using ⟨hhexNo, hoctNo, hdecNo, hothers⟩
      | cons e es =>
        have digits : Radix.decimal.Digits (e :: es) := ⟨List.cons_ne_nil e es, hdigits.2⟩
        have read : Reads decimal (e :: es) rest _ := reads_ofDigits digits hstop
        exact .choice (l := [hex, oct]) (by simpa using ⟨hhexNo, hoctNo⟩) (hdec.reads read)
    · exact .alt_right (Refuses.char fun hm => hd0 (by cases hm; rfl)).bind (hdec.reads whole)

theorem Writes.reads (h : Writes w rest n) : Reads natural w rest n :=
  h.reads_branches [] (.refl _ _) (.refl _ _) (.refl _ _) nofun

theorem refuses_afterWhole (h : ∀ c ∈ text.head?, c ∉ ['.', 'e', 'E']) (whole : Nat) :
    Refuses (afterWhole whole) text := by
  have point : Refuses fraction text :=
    (Refuses.char fun hm => h _ hm (List.mem_cons_self ..)).bind
  have mark : Refuses exponent text :=
    (Refuses.satisfy fun c hc => Bool.eq_false_iff.mpr fun hm =>
      h c hc (List.mem_cons_of_mem '.' (List.contains_iff_mem.mp hm))).bind.label _
  exact point.bind.alt (mark.map _)

theorem follows_decimalOrFloat (h : ∀ c ∈ rest.head?, c ∉ ['.', 'e', 'E']) :
    Follows Number.whole rest decimal decimalOrFloat where
  reads {w n} hd := by
    have alone : Reads (Parser.option (.whole n) (afterWholeReal n)) [] rest (.whole n) :=
      .alt_right ((refuses_afterWhole h n).map _) (.pure _)
    have both := Reads.bind (f := fun n => Parser.option (.whole n) (afterWholeReal n)) (w := []) hd
      alone
    rwa [List.append_nil] at both
  refuses h := h.bind

theorem Writes.reads_naturalOrFloat (h : Writes w rest n)
    (hends : ∀ c ∈ rest.head?, c ∉ ['.', 'e', 'E']) :
    Reads naturalOrFloat w rest (.whole n) :=
  h.reads_branches [afterWholeReal 0] (.map _ _ _) (.map _ _ _)
    (follows_decimalOrFloat hends)
    (List.forall_mem_singleton.mpr ((refuses_afterWhole hends 0).map _))

theorem Writes.head (h : Writes w rest n) : ∃ d ds, w = d :: ds ∧ Radix.decimal.isDigit d = true := by
  cases h with
  | plain hd =>
    obtain ⟨d, ds, rfl⟩ := List.exists_cons_of_ne_nil hd.ne_nil
    exact ⟨d, ds, rfl, hd.all d (List.mem_cons_self ..)⟩
  | marked => exact ⟨'0', _, rfl, rfl⟩

theorem Writes.ne_nil (h : Writes w rest n) : w ≠ [] := by
  obtain ⟨d, ds, rfl, -⟩ := h.head
  exact List.cons_ne_nil d ds

end Reading

section Refusing

theorem breaks_marked (hmark : mark ∈ radix.marks)
    (hstop : ∀ c ∈ rest.head?, radix.isDigit c = false) :
    Breaks (markedNumeral radix) (mark :: rest) := by
  have none : Refuses (ofDigits radix.base radix.digit) rest := refuses_digits radix hstop
  cases radix with
  | decimal => cases hmark
  | octal | hexadecimal =>
    exact .bind_right (v := [mark]) (List.cons_ne_nil mark [])
      (.satisfy (List.contains_iff_mem.mpr hmark)) none

theorem failsAt_natural_marked (hs : s.Sound) (hr : s.rest = '0' :: mark :: rest)
    (hmark : mark ∈ radix.marks) (hstop : ∀ c ∈ rest.head?, radix.isDigit c = false) :
    FailsAt natural s := by
  have broken : Breaks afterZero (mark :: rest) := by
    have base := breaks_marked hmark hstop
    cases radix with
    | decimal => cases hmark
    | hexadecimal => exact .alt_left (.alt_left (.alt_left base))
    | octal => exact .alt_left (.alt_left (.alt_right (refuses_hexadecimal hmark) base))
  have hr' : s.checkpoint.rest = ['0'] ++ (mark :: rest) := hr
  obtain ⟨e, t, hfail, hc, hd⟩ := broken _ (hs.checkpoint.pass hr') (State.rest_pass hr')
  have read : Reads (char '0') ['0'] (mark :: rest) '0' := .char '0'
  have zero := read _ hs.checkpoint hr' trivial
  exact ⟨e, t, (BreaksAt.alt_left (.bind_right zero ⟨hfail, hc⟩)).failed, hd⟩

theorem writes_or_failsAt (hs : s.Placed) :
    (∃ w rest n, s.rest = w ++ rest ∧ Writes w rest n) ∨ FailsAt natural s := by
  obtain ⟨digits, rest, hr, hall, hstop⟩ := exists_digits .decimal s.rest
  by_cases hnil : digits = []
  · subst hnil
    have hstop' : ∀ c ∈ s.rest.head?, Radix.decimal.isDigit c = false := by rwa [hr]
    have zero : RefusesAt (char '0') s.checkpoint :=
      .label (.satisfy fun c hc => by
        rw [beq_eq_false_iff_ne]
        rintro rfl
        cases hstop' '0' hc) _
    exact .inr (RefusesAt.alt zero.bind (refusesAt_digits .decimal hs hstop')).failsAt
  · have hd : Radix.decimal.Digits digits := ⟨hnil, hall⟩
    by_cases hzero : digits = ['0'] → ∀ c ∈ rest.head?, c ∉ ['x', 'X', 'o', 'O']
    · exact .inl ⟨digits, rest, _, hr, .plain hd hstop hzero⟩
    · obtain ⟨rfl, c, hc, hmark⟩ : digits = ['0'] ∧ ∃ c, c ∈ rest.head? ∧ c ∈ ['x', 'X', 'o', 'O'] := by
        push Not at hzero
        exact hzero
      obtain ⟨rest, rfl⟩ : ∃ rest', rest = c :: rest' := by
        cases rest with
        | nil => cases hc
        | cons d ds => exact ⟨ds, by rw [Option.some_inj.mp hc]⟩
      obtain ⟨radix, hradix⟩ : ∃ radix : Radix, c ∈ radix.marks := by
        rcases List.mem_append.mp (show c ∈ ['x', 'X'] ++ ['o', 'O'] from hmark) with hm | hm
        · exact ⟨.hexadecimal, hm⟩
        · exact ⟨.octal, hm⟩
      obtain ⟨ds, rest, rfl, hds, hend⟩ := exists_digits radix rest
      by_cases hnone : ds = []
      · subst hnone
        rcases hs.sound_or with hs | hnothing
        · exact .inr (failsAt_natural_marked hs hr hradix hend)
        · rw [hnothing] at hr
          cases hr
      · exact .inl ⟨'0' :: c :: ds, rest, _, hr, .marked hradix ⟨hnone, hds⟩ hend⟩

end Refusing

section Doubles

theorem alt_left_of_consumed (hp : Accumulates p) (hs : s.consumed = true)
    (h : p s = .success a t) : alt p q s = .success a t := by
  have hm := hp.marked s.checkpoint
  rw [show s.checkpoint.marked = s from State.marked_of_consumed hs, h] at hm
  rw [alt, hs, Outcome.merge_true false]
  cases hr : p s.checkpoint with
  | success b u =>
    rw [hr] at hm
    exact hm.symm
  | failure | stalled => rw [hr] at hm; cases hm

theorem alt_right_of_consumed (hq : Accumulates q) (hs : s.consumed = true)
    (hp : RefusesAt p s.checkpoint) (h : q s = .success a t) : alt p q s = .success a t := by
  have hm := hq.marked s.checkpoint
  rw [show s.checkpoint.marked = s from State.marked_of_consumed hs, h] at hm
  rw [hp.alt_eq, hs]
  exact hm.symm

theorem merge_of_marked {o : Outcome α} (h : o = o.marked) (b : Bool) : o.merge b = o := by
  rw [h]
  cases o <;> cases b <;> rfl

theorem marked_success (ht : t.consumed = true) :
    Outcome.success a t = (Outcome.success a t).marked :=
  congrArg _ (State.marked_of_consumed ht).symm

theorem alt_left_of_checkpoint (h : p s.checkpoint = .success a t) (ht : t.consumed = true) :
    alt p q s = .success a t := by
  rw [alt, h]
  exact merge_of_marked (marked_success ht) _

theorem alt_right_of_checkpoint (hp : RefusesAt p s.checkpoint)
    (h : q s.checkpoint = .success a t) (ht : t.consumed = true) : alt p q s = .success a t := by
  rw [hp.alt_eq, h]
  exact merge_of_marked (marked_success ht) _

theorem plain_branches : Plain (choice [hexadecimal.map Number.whole, octal.map .whole,
    decimalOrFloat, afterWholeReal 0]) :=
  .choice (by simpa using ⟨advancing_hexadecimal.plain.map _, advancing_octal.plain.map _,
    advancing_decimalOrFloat.plain, (advancing_afterWhole 0).plain.map _⟩)

theorem plain_branches_decimal : Plain (choice [hexadecimal.map Number.whole, octal.map .whole,
    decimalOrFloat]) :=
  .choice (by simpa using ⟨advancing_hexadecimal.plain.map _, advancing_octal.plain.map _,
    advancing_decimalOrFloat.plain⟩)

theorem accumulates_plain (h : Plain p) : Accumulates p := h.accumulates False.elim

theorem accumulates_afterWholeReal (whole : Nat) : Accumulates (afterWholeReal whole) :=
  accumulates_plain ((advancing_afterWhole whole).plain.map _)

theorem float_eq_success {value : Float} (hs : s.Placed) (h : float s = .success value t) :
    ∃ digits rest, s.Sound ∧ s.rest = digits ++ rest ∧ Radix.decimal.Digits digits ∧
      (∀ c ∈ rest.head?, Radix.decimal.isDigit c = false) ∧
      afterWholeReal (digitsValue 10 digits) (s.pass digits) = .success (.real value) t := by
  obtain ⟨d, hd, rfl⟩ := map_eq_success.mp h
  obtain ⟨n, u, hu, hafter⟩ := bind_eq_success.mp hd
  obtain ⟨digits, rest, hr, hall, hstop⟩ := exists_digits .decimal s.rest
  by_cases hnil : digits = []
  · subst hnil
    obtain ⟨e, v, hfail, -⟩ := refusesAt_digits .decimal hs (by rwa [hr])
    exact nomatch hfail.symm.trans hu
  · have hdigits : Radix.decimal.Digits digits := ⟨hnil, hall⟩
    have hs : s.Sound := hs.sound_or.resolve_right fun hnone => by
      rw [hnone] at hr
      exact hnil (List.append_eq_nil_iff.mp hr.symm).1
    have read : Reads decimal digits rest (digitsValue 10 digits) := reads_ofDigits hdigits hstop
    have same := hu.symm.trans (read s hs hr trivial)
    rw [(Outcome.success.inj same).1, (Outcome.success.inj same).2] at hafter
    exact ⟨digits, rest, hs, hr, hdigits, hstop, map_eq_success.mpr ⟨d, hafter, rfl⟩⟩

theorem decimalOrFloat_eq {x : Number} (hs : s.Sound) (hr : s.rest = digits ++ rest)
    (hd : Radix.decimal.Digits digits) (hstop : ∀ c ∈ rest.head?, Radix.decimal.isDigit c = false)
    (h : afterWholeReal (digitsValue 10 digits) (s.pass digits) = .success x t) :
    decimalOrFloat s = .success x t := by
  have read : Reads decimal digits rest (digitsValue 10 digits) := reads_ofDigits hd hstop
  exact bind_eq_success.mpr ⟨_, _, read s hs hr trivial,
    alt_left_of_consumed (accumulates_afterWholeReal _) (s.consumed_pass hd.ne_nil) h⟩

theorem branches_eq {x : Number} (hs : s.Sound) (hset : s.consumed = true)
    (hr : s.rest = digits ++ rest) (hall : ∀ d ∈ digits, Radix.decimal.isDigit d = true)
    (hstop : ∀ c ∈ rest.head?, Radix.decimal.isDigit c = false)
    (h : afterWholeReal (digitsValue 10 digits) (s.pass digits) = .success x t) :
    choice [hexadecimal.map Number.whole, octal.map .whole, decimalOrFloat, afterWholeReal 0] s =
      .success x t := by
  have unmarked (hm : ∀ c ∈ (digits ++ rest).head?, ∀ radix : Radix, c ∉ radix.marks) :
      RefusesAt (hexadecimal.map Number.whole) s.checkpoint ∧
        RefusesAt (octal.map Number.whole) s.checkpoint := by
    have none (radix : Radix) (hradix : radix ≠ .decimal) :
        RefusesAt ((markedNumeral radix).map Number.whole) s.checkpoint :=
      ((refuses_marked radix hradix fun c hc => hm c hc radix).refusesAt hs.checkpoint hr).map _
    exact ⟨none .hexadecimal nofun, none .octal nofun⟩
  cases digits with
  | nil =>
    rw [State.pass_nil] at h
    have hends : ∃ c ∈ rest.head?, c ∈ ['.', 'e', 'E'] := by
      by_contra hnone
      push Not at hnone
      obtain ⟨e, v, hfail, -⟩ := ((refuses_afterWhole hnone _).map _).refusesAt hs hr
      exact nomatch hfail.symm.trans h
    obtain ⟨c, hc, hend⟩ := hends
    have apart : ∀ c ∈ ['.', 'e', 'E'],
        ∀ radix ∈ [Radix.decimal, .octal, .hexadecimal], c ∉ radix.marks :=
      forall_mem_of_all (by decide)
    obtain ⟨hhex, hoct⟩ := unmarked fun c' hc' radix => by
      obtain rfl : c = c' := Option.some_inj.mp (hc.symm.trans hc')
      exact apart c hend radix (by cases radix <;> decide)
    have hdec : RefusesAt decimalOrFloat s.checkpoint :=
      (refuses_digits .decimal hstop).bind.refusesAt hs.checkpoint hr
    exact alt_right_of_consumed (accumulates_afterWholeReal 0) hset
      (.alt (s := s.checkpoint) (.alt (s := s.checkpoint) hhex hoct) hdec) h
  | cons d ds =>
    obtain ⟨hhex, hoct⟩ := unmarked fun c hc radix => by
      obtain rfl : d = c := Option.some_inj.mp hc
      exact (apart_of_digit (hall d (List.mem_cons_self ..))).1 radix
    have read := decimalOrFloat_eq hs hr ⟨List.cons_ne_nil d ds, hall⟩ hstop h
    exact alt_left_of_consumed (accumulates_plain plain_branches_decimal) hset
      (alt_right_of_consumed (accumulates_plain advancing_decimalOrFloat.plain) hset
        (.alt (s := s.checkpoint) hhex hoct) read)

theorem naturalOrFloat_of_float {value : Float} (hs : s.Placed) (h : float s = .success value t) :
    naturalOrFloat s = .success (.real value) t := by
  obtain ⟨digits, rest, hs, hr, hd, hstop, hreal⟩ := float_eq_success hs h
  have ht : t.consumed = true := by
    have same := (accumulates_afterWholeReal (digitsValue 10 digits)).marked (s.pass digits)
    rw [State.marked_of_consumed (s.consumed_pass hd.ne_nil)] at same
    exact Outcome.marked_eq_success same hreal
  by_cases hzero : '0' ∈ digits.head?
  · obtain ⟨ds, rfl⟩ : ∃ ds, digits = '0' :: ds := List.head?_eq_some_iff.mp hzero
    have hr' : s.checkpoint.rest = ['0'] ++ (ds ++ rest) := hr
    have hne := List.cons_ne_nil '0' []
    have zero : char '0' s.checkpoint = .success '0' (s.pass ['0']) := by
      rw [← s.checkpoint_pass hne]
      exact Reads.char '0' _ hs.checkpoint hr' trivial
    rw [digitsValue_zero_cons, ← List.singleton_append, State.pass_append] at hreal
    refine alt_left_of_checkpoint (bind_eq_success.mpr ⟨_, _, zero, ?_⟩) ht
    exact alt_left_of_consumed (accumulates_plain plain_branches) (s.consumed_pass hne)
      (branches_eq (hs.pass hr') (s.consumed_pass hne) (State.rest_pass hr')
        (List.forall_mem_cons.mp hd.all).2 hstop hreal)
  · have none : Refuses (char '0') (digits ++ rest) := .char fun hm => hzero (by
      obtain ⟨c, ds, rfl⟩ := List.exists_cons_of_ne_nil hd.ne_nil
      exact hm)
    have none := none.refusesAt hs.checkpoint hr
    rw [← s.checkpoint_pass hd.ne_nil] at hreal
    exact alt_right_of_checkpoint none.bind (decimalOrFloat_eq hs.checkpoint hr hd hstop hreal) ht

end Doubles

end Number

namespace Language

variable {lang : Language} {α β : Type} {p : Parser α} {q : Parser β} {f : α → β} {a : α}
  {s t u : State} {v w rest text : List Char} {n : Nat}

section Lexemes

theorem lexeme_eq (h : Reads p w rest a) (hw : w ≠ []) (hs : s.Sound) (hr : s.rest = w ++ rest)
    (name : String) :
    label (lang.lexeme p) name s = (lang.whiteSpace (s.pass w)).map fun _ => a := by
  have run : lang.lexeme p s.checkpoint = (lang.whiteSpace (s.pass w)).map fun _ => a := by
    rw [lexeme, skip, Parser.bind, h _ hs.checkpoint hr trivial, s.checkpoint_pass hw]
    rfl
  have hset : (s.pass w).marked = s.pass w := State.marked_of_consumed (s.consumed_pass hw)
  have plain : Plain lang.whiteSpace := plain_whiteSpace
  have set := (Number.accumulates_plain plain).marked (s.pass w)
  rw [hset] at set
  have marked : ((lang.whiteSpace (s.pass w)).map fun _ => a) =
      ((lang.whiteSpace (s.pass w)).map fun _ => a).marked := by
    conv_lhs => rw [set]
    cases lang.whiteSpace (s.pass w) <;> rfl
  rw [label, alt, run]
  revert marked
  cases lang.whiteSpace (s.pass w) with
  | stalled => exact fun _ => rfl
  | success _ t => exact fun marked => Number.merge_of_marked marked _
  | failure e t =>
    intro marked
    have ht : t.consumed = true := by
      rw [(Outcome.failure.inj marked).2]
      rfl
    simp only [Outcome.map, ht, if_true]
    exact Number.merge_of_marked marked _

theorem lexeme_eq_success {name : String} (h : label (lang.lexeme p) name s = .success a u) :
    ∃ t v, p s.checkpoint = .success a t ∧ lang.whiteSpace t = .success () v ∧
      u = v.withConsumed (s.consumed || v.consumed) := by
  rcases alt_success h with ⟨v, hv, rfl⟩ | ⟨e, v, t, -, -, ht, -⟩
  · obtain ⟨b, t, hp, hspace⟩ := bind_eq_success.mp hv
    obtain ⟨x, hx, rfl⟩ := map_eq_success.mp hspace
    exact ⟨t, v, hp, hx, rfl⟩
  · cases ht

theorem lexeme_eq_of_success {b : β}
    (h : ∀ t, p s.checkpoint = .success a t → q s.checkpoint = .success b t) (name name' : String)
    (hr : label (lang.lexeme p) name s = .success a u) :
    label (lang.lexeme q) name' s = .success b u := by
  obtain ⟨t, v, hp, hspace, rfl⟩ := lexeme_eq_success hr
  have run : lang.lexeme q s.checkpoint = .success b v :=
    bind_eq_success.mpr ⟨b, t, h t hp, map_eq_success.mpr ⟨(), hspace, rfl⟩⟩
  rw [label, alt, run]
  rfl

theorem solid_of_digit (hline : ∀ c ∈ lang.commentLine.toList.head?, isDecimalDigit c = false)
    (hstart : ∀ c ∈ lang.commentStart.toList.head?, isDecimalDigit c = false) {d : Char}
    (hd : isDecimalDigit d = true) : lang.Solid (d :: text) := by
  have unopened {opening : String} (hne : opening ≠ "")
      (h : ∀ c ∈ opening.toList.head?, isDecimalDigit c = false) :
      ¬ opening.toList <+: d :: text := by
    intro hprefix
    obtain ⟨c, cs, hcs⟩ := List.exists_cons_of_ne_nil (show opening.toList ≠ [] by simpa using hne)
    rw [hcs] at hprefix h
    obtain ⟨rfl, -⟩ := List.cons_prefix_cons.mp hprefix
    exact Bool.false_ne_true ((h c rfl).symm.trans hd)
  have unblank : ∀ d ∈ numberHeads .decimal, Text.isBlank d = false :=
    Number.forall_mem_of_all (by decide)
  exact ⟨by rintro c ⟨⟩; exact unblank d (mem_decimalDigits hd),
    fun h => unopened h.enabled hline h.mark, fun h => unopened h.enabled hstart h.mark⟩

/-- A sign, as the character that it is written with and the factor that it stands for. -/
def signs : List (Char × Int) := [('-', -1), ('+', 1)]

theorem reads_sign {entry : Char × Int} (h : entry ∈ signs) :
    Reads Number.sign [entry.1] rest entry.2 := by
  simp only [signs, List.mem_cons, List.not_mem_nil, or_false] at h
  rcases h with rfl | rfl
  · exact .choice (l := []) nofun ((Reads.char '-').map _)
  · exact .choice (l := [_]) (List.forall_mem_singleton.mpr (.map (.char (by simp)) _))
      ((Reads.char '+').map _)

theorem reads_noSign {d : Char} (hd : isDecimalDigit d = true) :
    Reads Number.sign [] (d :: text) 1 := by
  have apart : ∀ d ∈ numberHeads .decimal, d ≠ '-' ∧ d ≠ '+' :=
    Number.forall_mem_of_all (by decide)
  obtain ⟨hminus, hplus⟩ := apart d (mem_decimalDigits hd)
  have refused {c : Char} (hc : d ≠ c) (factor : Int) :
      Refuses ((Parser.char c).result factor) (d :: text) :=
    (Refuses.char fun hm => hc (Option.some_inj.mp hm)).map _
  exact .choice (l := [_, _]) (by simpa using ⟨refused hminus (-1), refused hplus 1⟩) (.pure 1)

/-- A whole number is read as its value, with or without a sign, whatever stands between the sign and the
digits. What is read as a double is read as the same double where whole numbers may stand too, and a whole
number is read as itself there when its digits go on neither in a fraction nor in an exponent. -/
theorem numbers_agree (lang : Language)
    (hline : ∀ c ∈ lang.commentLine.toList.head?, isDecimalDigit c = false)
    (hstart : ∀ c ∈ lang.commentStart.toList.head?, isDecimalDigit c = false) (s : State)
    (hs : s.Placed) :
    (∀ w rest n, Number.Writes w rest n → s.rest = w ++ rest →
      lang.natural s = (lang.whiteSpace (s.pass w)).map (fun _ => n) ∧
      lang.integer s = (lang.whiteSpace (s.pass w)).map (fun _ => (n : Int))) ∧
    (∀ sign factor v w rest n, (sign, factor) ∈ signs → lang.Stretches v (w ++ rest) →
      Number.Writes w rest n → s.rest = sign :: (v ++ w) ++ rest →
      lang.integer s = (lang.whiteSpace (s.pass (sign :: (v ++ w)))).map fun _ => factor * n) ∧
    (∀ value t, lang.float s = .success value t →
      lang.naturalOrFloat s = .success (.real value) t) ∧
    ∀ n t, lang.natural s = .success n t → ∃ w rest, s.rest = w ++ rest ∧ Number.Writes w rest n ∧
      ((∀ c ∈ rest.head?, c ∉ ['.', 'e', 'E']) →
        lang.naturalOrFloat s = .success (.whole n) t) := by
  have sound {w rest : List Char} (hw : w ≠ []) (hr : s.rest = w ++ rest) : s.Sound :=
    hs.sound_or.resolve_right fun hnone => by
      rw [hnone] at hr
      exact hw (List.append_eq_nil_iff.mp hr.symm).1
  have solid {w rest : List Char} {n : Nat} (h : Number.Writes w rest n) : lang.Solid (w ++ rest) := by
    obtain ⟨d, ds, rfl, hd⟩ := h.head
    exact solid_of_digit hline hstart hd
  refine ⟨fun w rest n h hr => ⟨lexeme_eq h.reads h.ne_nil (sound h.ne_nil hr) hr _, ?_⟩, ?_, ?_, ?_⟩
  · obtain ⟨d, ds, hdw, hd⟩ := h.head
    have none : Reads Number.sign [] (w ++ rest) 1 := by
      rw [hdw]
      exact reads_noSign hd
    have unsigned : Reads (lang.lexeme Number.sign) [] (w ++ rest) 1 :=
      none.skip (w := []) (Trivia.reads ⟨.nil, solid h⟩)
    have read := unsigned.bind
      (f := fun factor => Number.natural.map fun (n : Nat) => factor * (n : Int)) (h.reads.map _)
    rw [Int.one_mul] at read
    exact lexeme_eq read h.ne_nil (sound h.ne_nil hr) hr _
  · intro sign factor v w rest n hsign hv h hr
    have hne := List.cons_ne_nil sign (v ++ w)
    have signed : Reads (lang.lexeme Number.sign) (sign :: v) (w ++ rest) factor :=
      Reads.skip (v := [sign]) (reads_sign hsign) (Trivia.reads ⟨hv, solid h⟩)
    have read := signed.bind
      (f := fun factor => Number.natural.map fun (n : Nat) => factor * (n : Int)) (h.reads.map _)
    exact lexeme_eq read hne (sound hne hr) hr _
  · exact fun value t h =>
      lexeme_eq_of_success (fun _ => Number.naturalOrFloat_of_float hs) _ _ h
  · intro n t h
    obtain ⟨v, -, hnatural, -⟩ := lexeme_eq_success h
    rcases Number.writes_or_failsAt (s := s.checkpoint) hs with ⟨w, rest, m, hr, hw⟩ | ⟨e, v, hfail, -⟩
    · have hs : s.Sound := sound hw.ne_nil hr
      obtain rfl : n = m :=
        (Outcome.success.inj (hnatural.symm.trans (hw.reads _ hs.checkpoint hr trivial))).1
      exact ⟨w, rest, hr, hw, fun hends => lexeme_eq_of_success (fun u hu => by
        rw [hw.reads_naturalOrFloat hends _ hs.checkpoint hr trivial,
          (Outcome.success.inj (hu.symm.trans (hw.reads _ hs.checkpoint hr trivial))).2]) _ _ h⟩
    · exact nomatch hfail.symm.trans hnatural

theorem numbers_agree_overlapping :
    ((∀ c ∈ overlapping.commentLine.toList.head?, isDecimalDigit c = false) ∧
      (∀ c ∈ overlapping.commentStart.toList.head?, isDecimalDigit c = false) ∧
      (State.start "-\t0x1F7.").Placed ∧ (State.start "012.5e1 ").Placed) ∧
    overlapping.integer (State.start "-\t0x1F7.") =
      .success (-503) ((State.start "-\t0x1F7.").pass "-\t0x1F7".toList) ∧
    ∃ value t, overlapping.float (State.start "012.5e1 ") = .success value t ∧
      overlapping.naturalOrFloat (State.start "012.5e1 ") = .success (.real value) t := by
  have hline : ∀ c ∈ overlapping.commentLine.toList.head?, isDecimalDigit c = false := by
    rintro c ⟨⟩
    decide
  have hstart : ∀ c ∈ overlapping.commentStart.toList.head?, isDecimalDigit c = false := by
    rintro c ⟨⟩
    decide
  have hs := (State.sound_start "-\t0x1F7.").placed
  have hs' := (State.sound_start "012.5e1 ").placed
  refine ⟨⟨hline, hstart, hs, hs'⟩, ?_, ?_⟩
  · have hdigits : Radix.hexadecimal.Digits "1F7".toList := ⟨by decide, Number.forall_mem_of_all (by decide)⟩
    have written : Number.Writes "0x1F7".toList ".".toList 503 :=
      .marked (by decide) hdigits (by rintro c ⟨⟩; decide)
    have blank : overlapping.Stretch "\t".toList "0x1F7.".toList :=
      .blanks (by decide) (List.all_eq_true.mp (by decide)) (by rintro c ⟨⟩; decide)
    have tab : overlapping.Stretches "\t".toList "0x1F7.".toList := .cons (w := []) blank .nil
    have read := (numbers_agree overlapping hline hstart _ hs).2.1 '-' (-1) "\t".toList _ _ _
      (by decide) tab written (by decide)
    have space : overlapping.whiteSpace ((State.start "-\t0x1F7.").pass "-\t0x1F7".toList) =
        .success () ((State.start "-\t0x1F7.").pass "-\t0x1F7".toList) := by decide +kernel
    have value : Outcome.map (fun _ => -1 * (503 : Int))
        (overlapping.whiteSpace ((State.start "-\t0x1F7.").pass "-\t0x1F7".toList)) =
        .success (-503) ((State.start "-\t0x1F7.").pass "-\t0x1F7".toList) := by
      rw [space]
      rfl
    exact read.trans value
  · have doubled : ∃ t, (overlapping.float (State.start "012.5e1 ")).map (fun _ => ()) =
        .success () t := ⟨(State.start "012.5e1 ").pass "012.5e1 ".toList, by decide +kernel⟩
    obtain ⟨t, ht⟩ := doubled
    cases hr : overlapping.float (State.start "012.5e1 ") with
    | success value u =>
      exact ⟨value, u, rfl, (numbers_agree overlapping hline hstart _ hs').2.2.1 value u hr⟩
    | failure | stalled => rw [hr] at ht; cases ht

end Lexemes

end Language

end ContextRoles.Lexeme
