import ContextRoles.Proofs.Parsing.Running
import ContextRoles.Proofs.Source.Layout

/-! # Lines are read as they are laid out

A header, a property or the beginning of a binding is read up to the next line. What begins with one
keyword, or with a name, is refused where another keyword is expected.
-/

namespace ContextRoles.Source

open Parsing Lexeme
open ContextRoles.Parsing.Parser hiding some

variable {α β : Type} {p : Parser α} {e g o rest tail text v w : List Char} {x y : String}
  {first : Char → Bool} {names : String → Prop}

section Names

theorem notMem_of_isDomain (hx : IsDomain x) : '\n' ∉ x.toList := by
  obtain ⟨c, w, hx, hc, hw⟩ := hx
  have hword : '\n' ∉ w := fun hm => absurd (hw _ hm) (by decide)
  have hcapital : '\n' ≠ c := by
    rintro rfl
    exact absurd hc (by decide)
  rw [hx]
  simp [hword, hcapital]

theorem notMem_of_isMark (hx : IsMark x) : '\n' ∉ x.toList := by
  rcases hx with ⟨w, hx, hw⟩ | hx
  · have hword : '\n' ∉ w := fun hm => absurd (hw _ hm) (by decide)
    rw [hx]
    simp [hword]
  · rw [hx]
    decide

theorem notMem_of_isName (hf : first '\n' = false) (hx : IsName first x) : '\n' ∉ x.toList := by
  obtain ⟨y, z, rfl, hy, hz⟩ := hx
  rw [String.toList_append, List.mem_append, not_or]
  exact ⟨hy.elim notMem_of_isDomain notMem_of_isMark,
    notMem_of_isLocal hf (by decide) hz⟩

theorem Spells.propertyName (h : Spells propertyName x) : IsName Text.isLowercase x :=
  h.yields yields_propertyName

theorem Spells.resourceName (h : Spells resourceName x) : IsName Text.isUppercase x :=
  h.yields yields_resourceName

theorem Spells.instanceName (h : Spells instanceName x) : IsName Text.isLetter x :=
  h.yields yields_instanceName

theorem spells_of_reads {p : Parser String} (h : Reads p (x.toList ++ []) [] x) : Spells p x := by
  have read := h _ (State.sound_start x) (by simp [State.start]) trivial
  exact Parser.accepts_iff.mpr ⟨_, read, State.rest_pass (w := x.toList ++ []) (by simp [State.start])⟩

theorem spells_propertyName (hx : IsName Text.isLowercase x) : Spells propertyName x :=
  spells_of_reads (reads_propertyName hx gap_nil nofun)

theorem spells_resourceName (hx : IsName Text.isUppercase x) : Spells resourceName x :=
  spells_of_reads (reads_resourceName hx gap_nil nofun)

theorem spells_instanceName (hx : IsName Text.isLetter x) : Spells instanceName x :=
  spells_of_reads (reads_instanceName hx gap_nil nofun)

theorem yields_contextPropertyName :
    Yields contextPropertyName fun x => IsName Text.isLowercase x ∨ IsIdentifier x :=
  (yields_propertyName.mono fun _ => .inl).alt (yields_identifier.mono fun _ => .inr)

theorem Spells.contextPropertyName (h : Spells contextPropertyName x) :
    IsName Text.isLowercase x ∨ IsIdentifier x := h.yields yields_contextPropertyName

end Names

section Headers

theorem LineBreak.stops_name (h : LineBreak e tail) : Stops isNameChar (e ++ tail) :=
  h.gap.stops_of
    (by
      rintro rfl
      rcases h.line with hline | rfl
      · cases hline
      · exact nofun)
    isNameChar_of_isBlank (by decide) (by decide)

theorem reads_header {header : TypeDeclaration} (h : HeaderLine header w tail) :
    Reads typeDeclaration w tail header := by
  obtain @⟨x, y, g, e, tail, hx, hy, hg, hstop, he⟩ := h
  have line : '\n' ∉ x.toList ++ g := by
    rw [List.mem_append, not_or]
    exact ⟨notMem_of_isName (by decide) hx.instanceName, hg.line⟩
  have instance_ : ReadsIf State.OnLine instanceName (x.toList ++ g)
      ((y.toList ++ e ++ []) ++ tail) x := by
    simpa using (reads_instanceName hx.instanceName hg.gap hstop).readsIf
  have resource : ReadsIf State.OnLine (Parser.sameLine.then_ resourceName)
      (y.toList ++ e) ([] ++ tail) y :=
    ReadsIf.then_ (v := []) readsIf_sameLine (fun s hs => by simpa using hs)
      (reads_resourceName hy.resourceName he.gap he.stops_name).readsIf
  have declared : ReadsIf State.OnLine ((Parser.sameLine.then_ resourceName).bind fun typeName =>
      Parser.pure (TypeDeclaration.mk x typeName)) (y.toList ++ e ++ []) tail ⟨x, y⟩ :=
    resource.bind (Q := fun _ => True) (fun _ _ => trivial) (ReadsIf.pure _)
  have both := ReadsIf.withPosition (instance_.bind (f := fun instanceName =>
    (Parser.sameLine.then_ resourceName).bind fun typeName =>
      Parser.pure (TypeDeclaration.mk instanceName typeName)) (fun s hs => hs.pass line) declared)
  have htext : x.toList ++ (g ++ (y.toList ++ e)) = x.toList ++ g ++ (y.toList ++ e ++ []) := by
    simp
  rw [htext]
  exact both

end Headers

section Properties

variable {a : Property} {name : Parser String}

theorem readsIf_then {q : Parser β} {b : β} (h : Reads q w rest b) :
    ReadsIf State.OnLine (Parser.sameOrIndented.then_ q) w rest b :=
  ReadsIf.then_ (v := []) readsIf_sameOrIndented (fun s hs => by simpa using hs) h.readsIf

theorem readsIf_assignment (h : PropertyLine names a w tail)
    (hn : ∀ x g rest, names x → Gap g ("=".toList ++ rest) →
      Reads name (x.toList ++ g) ("=".toList ++ rest) x)
    (hline : ∀ x, names x → '\n' ∉ x.toList) :
    ReadsIf State.OnLine (assignment name) w tail a.rendered := by
  obtain @⟨x, y, v, g, g', e, tail, hx, hg, hg', hstop, hy, he, hends⟩ := h
  have line : '\n' ∉ x.toList ++ g := by
    rw [List.mem_append, not_or]
    exact ⟨hline x hx, hg.line⟩
  have line' : '\n' ∉ "=".toList ++ g' := by
    rw [List.mem_append, not_or]
    exact ⟨by decide, hg'.line⟩
  have named : ReadsIf State.OnLine name (x.toList ++ g)
      (("=".toList ++ g') ++ (y.toList ++ e ++ []) ++ tail) x := by
    simpa using (hn x g _ hx hg.gap).readsIf
  have equals : ReadsIf State.OnLine (Parser.sameOrIndented.then_ (language.reservedOperator "="))
      ("=".toList ++ g') (y.toList ++ e ++ [] ++ tail) "=" := by
    have read := reads_reservedOperator (show "=" ≠ "" by decide) hg'.gap hstop
    exact readsIf_then (by simpa using read)
  have valued : ReadsIf State.OnLine (Parser.sameOrIndented.then_ propertyValue)
      (y.toList ++ e) ([] ++ tail) v.render := readsIf_then (reads_value he hends hy)
  have rest₂ : ReadsIf State.OnLine
      ((Parser.sameOrIndented.then_ propertyValue).bind fun value => Parser.pure (x, value))
      (y.toList ++ e ++ []) tail (x, v.render) :=
    valued.bind (Q := fun _ => True) (fun _ _ => trivial) (ReadsIf.pure (x, v.render))
  have rest₁ := equals.bind (f := fun _ => (Parser.sameOrIndented.then_ propertyValue).bind
    fun value => Parser.pure (x, value)) (fun s hs => hs.pass line') rest₂
  have all := named.bind (f := fun x => (Parser.sameOrIndented.then_
    (language.reservedOperator "=")).bind fun _ => (Parser.sameOrIndented.then_ propertyValue).bind
      fun value => Parser.pure (x, value)) (fun s hs => hs.pass line) rest₁
  have htext : x.toList ++ (g ++ ("=".toList ++ (g' ++ (y.toList ++ e)))) =
      x.toList ++ g ++ ("=".toList ++ g' ++ (y.toList ++ e ++ [])) := by simp
  rw [htext]
  exact all

theorem stops_equals {accepts : Char → Bool} (h : accepts '=' = false) :
    Stops accepts ("=".toList ++ rest) := by
  rintro c ⟨⟩
  exact h

theorem reads_rolePropertyAssignment (hn : ∀ x, names x → Spells propertyName x)
    (h : PropertyLine names a w tail) : Reads rolePropertyAssignment w tail a.rendered :=
  (readsIf_assignment h
    (fun x _ _ hx hg => reads_propertyName (hn x hx).propertyName hg
      (hg.stops_name (stops_equals (by decide))))
    fun x hx => notMem_of_isName (by decide) (hn x hx).propertyName).withPosition

theorem notMem_of_isIdentifier (hx : IsIdentifier x) : '\n' ∉ x.toList :=
  notMem_of_isLocal (by decide) (by decide) hx.1

theorem reads_keywordAssignment {word : String} (hn : word ≠ "") (hw : '\n' ∉ word.toList)
    (h : KeywordLine word a w tail) :
    Reads (withPosition ((language.reserved word).then_ (assignment contextPropertyName))) w tail
      a.rendered := by
  cases h with
  | @mk g v _ hg hstop hv =>
    have line : '\n' ∉ word.toList ++ g := by
      rw [List.mem_append, not_or]
      exact ⟨hw, hg.line⟩
    have property : ReadsIf State.OnLine (assignment contextPropertyName) v tail a.rendered :=
      readsIf_assignment hv
        (fun _ _ _ hx hg => reads_contextPropertyName hx.contextPropertyName hg)
        (fun _ hx => hx.contextPropertyName.elim (notMem_of_isName (by decide))
          notMem_of_isIdentifier)
    have both := ReadsIf.withPosition (ReadsIf.then_ (reads_reserved hn hg.gap hstop).readsIf
      (fun s hs => hs.pass line) property)
    rwa [List.append_assoc] at both

end Properties

section Refusals

theorem refuses_propertyName_nil : Refuses propertyName [] :=
  refuses_propertyName (fails_joined_cons (Refuses.string (by simp)).fails)
    (fails_namespaceMark (by simp) (by simp))

theorem refuses_instanceName_nil : Refuses instanceName [] :=
  ((refuses_qualified (fails_joined_cons (Refuses.string (by simp)).fails)).alt
    (Refuses.attempt (fails_joined_cons (fails_namespaceMark (by simp) (by simp)))).bind).label _

theorem refuses_rolePropertyAssignment_nil : Refuses rolePropertyAssignment [] :=
  refuses_propertyName_nil.bind.withPosition

theorem refuses_bindingWith_nil (context : Parser Collection) : Refuses (bindingWith context) [] :=
  refuses_propertyName_nil.bind.withPosition

variable {word : String} {q : Parser α}

theorem refuses_keyword_then (h : ¬ word.toList <+: text) :
    Refuses (withPosition ((language.reserved word).then_ q)) text :=
  (refuses_reserved h).bind.withPosition

theorem refuses_keyword_name (hn : word ≠ "") (hw : IsWord word) (hx : IsName first x)
    (hl : ¬ LedBy word x) :
    Refuses (withPosition ((language.reserved word).then_ q)) (x.toList ++ text) :=
  (refuses_reserved_name hn hw hx hl).bind.withPosition

/-- Names that no keyword of a context begins. -/
def Unambiguous (x : String) : Prop := ¬ LedBy "public" x ∧ ¬ LedBy "private" x

theorem refuses_publicAssignment (hx : Spells propertyName x) (h : Unambiguous x) :
    Refuses publicAssignment (x.toList ++ text) :=
  refuses_keyword_name (by decide) (by simp [IsWord]; decide) hx.propertyName h.1

theorem refuses_privateAssignment (hx : Spells propertyName x) (h : Unambiguous x) :
    Refuses privateAssignment (x.toList ++ text) :=
  refuses_keyword_name (by decide) (by simp [IsWord]; decide) hx.propertyName h.2

theorem bindingWith_eq (context : Parser Collection) : bindingWith context =
    withPosition (propertyName.bind fun x =>
      (Parser.option none (roleOccurrence.map some)).bind fun n =>
      ((Parser.sameOrIndented.then_ (language.reservedOperator "=>")).then_
        (bindingTarget context)).bind fun target =>
      (Parser.indentedBlock rolePropertyAssignment).bind fun properties =>
        Parser.pure ⟨x, n, target, properties⟩) := rfl

theorem ne_nil_of_isName (hx : IsName first x) : x.toList ≠ [] :=
  (exists_mark hx).elim List.ne_nil_of_mem List.ne_nil_of_mem

/-- A property name in front of an equals sign. -/
def Assigned (x : String) (text : List Char) : Prop :=
  IsName Text.isLowercase x ∧ ∃ g r, text = x.toList ++ (g ++ '=' :: r) ∧ Gap g ('=' :: r) ∧
    Stops isOperatorChar r

/-- A property is no binding: behind its name neither an occurrence nor an arrow is found. -/
theorem Assigned.breaks {text : List Char} (context : Parser Collection) (h : Assigned x text) :
    Breaks (bindingWith context) text := by
  obtain ⟨hname, g, r, rfl, hg, hstops⟩ := h
  have named : Reads propertyName (x.toList ++ g) ('=' :: r) x :=
    reads_propertyName hname hg (hg.stops_name (stops_equals (by decide)))
  have arrow : Refuses (language.reservedOperator "=>") ('=' :: r) := by
    refine refuses_reservedOperator fun hp => ?_
    obtain ⟨r', hr'⟩ := hp
    obtain rfl : '>' :: r' = r := by simpa using hr'
    exact absurd (hstops '>' rfl) (by decide)
  have parens : Refuses (roleOccurrence.map some) ('=' :: r) :=
    (Refuses.sameLine_then (((Refuses.string (by simp)).bind.bind).bind)).map _
  have occurrence : Reads (Parser.option none (roleOccurrence.map some)) [] ('=' :: r) none :=
    .alt_right parens (ReadsIf.pure none)
  rw [← List.append_assoc, bindingWith_eq]
  refine (Breaks.bind_right ?_ named ?_).withPosition
  · exact List.append_ne_nil_of_left_ne_nil (ne_nil_of_isName hname) g
  · exact Refuses.bind_nil occurrence (arrow.sameOrIndented_then.bind.bind)

theorem breaks_bindingWith {a : Property} (context : Parser Collection)
    (h : PropertyLine (fun x => Spells propertyName x ∧ names x) a w tail) :
    Breaks (bindingWith context) (w ++ tail) := by
  obtain @⟨x, y, v, g, g', e, tail, hx, hg, hg', hstop, hy, he, hends⟩ := h
  refine Assigned.breaks (x := x) context ⟨hx.1.propertyName, g, g' ++ (y.toList ++ (e ++ tail)),
    ?_, hg.gap, hstop⟩
  simp

end Refusals

section Rows

variable {line : Position → α → List Char → List Char → Prop} {k : Nat} {as : List α}
  {q : Parser β} {f : α → β} {s : State}

theorem Rows.cases {position : Position} (h : Rows line k position as w tail) :
    (w = [] ∧ as = []) ∨ position.column = k ∧ ∃ a as' v r, as = a :: as' ∧
      line position a v (r ++ tail) ∧ w = v ++ r := by
  cases h with
  | nil => exact .inl ⟨rfl, rfl⟩
  | cons hk hline _ => exact .inr ⟨hk, _, _, _, _, rfl, hline, rfl⟩

/-- Lines that are read one by one are the rounds of their block. -/
theorem Rows.runs (hline : ∀ position a v tail, line position a v tail →
      v ≠ [] ∧ Reads q v tail (f a))
    {position : Position} (h : Rows line k position as w tail) (hs : s.Sound)
    (hpos : s.position = position) (hr : s.rest = w ++ tail) (hc : s.reference.column = k)
    (hend : (position.advanceAll w).column ≠ k ∨ Refuses q tail) :
    Runs (rounds q) s w tail 0 (as.map f) := by
  induction h generalizing s with
  | nil =>
    have htail : _ = s.rest := hr.symm
    subst htail
    rw [← hpos, ← hc, Position.advanceAll_nil] at hend
    exact .rounds_nil hs hend
  | @cons position a as v w tail hk hrow _ ih =>
    obtain ⟨hne, hreads⟩ := hline _ _ _ _ hrow
    have hr' : s.rest = v ++ (w ++ tail) := by rw [hr, List.append_assoc]
    rw [Position.advanceAll_append] at hend
    have both : Runs (rounds q) s (v ++ w) tail (0 + 0) (f a :: as.map f) :=
      .rounds_cons hs hne (by rw [hpos, hk, hc]) (hreads.runs hs.checkpoint hr' trivial)
        fun t ht => ih ht.sound (by rw [ht.position, hpos]) ht.rest (ht.column.trans hc) hend
    exact both

theorem Rows.block (hline : ∀ position a v tail, line position a v tail →
      v ≠ [] ∧ Reads q v tail (f a))
    (h : Rows line k s.position as w tail) (hs : s.Sound) (hr : s.rest = w ++ tail)
    (hnil : Refuses q []) (hk : s.reference.column < k)
    (hend : Ended q s.reference.column k (s.position.advanceAll w) tail) :
    Runs (Parser.indentedBlock q) s w tail 0 (as.map f) := by
  refine .indentedBlock hs hr hnil hk (fun hcol => ?_) ?_ hend
  · exact h.runs hline (s := s.withReference s.position) hs rfl hr hcol (hend.stops hnil hk)
  · rcases h.cases with ⟨rfl, rfl⟩ | ⟨hcol, -⟩
    · exact .inl ⟨rfl, rfl, rfl⟩
    · exact .inr hcol

end Rows

section Bodies

variable {s : State} {k : Nat} {l : List Property}

theorem ne_nil_of_propertyLine {a : Property} (h : PropertyLine names a w tail) : w ≠ [] := by
  cases h
  simp

theorem runs_roleProperties (hn : ∀ x, names x → Spells propertyName x)
    (h : Rows (fun _ => PropertyLine names) k s.position l w tail)
    (hs : s.Sound) (hr : s.rest = w ++ tail) (hk : s.reference.column < k)
    (hend : tail = [] ∨ (s.position.advanceAll w).column ≤ s.reference.column) :
    Runs (Parser.indentedBlock rolePropertyAssignment) s w tail 0 (l.map Property.rendered) :=
  h.block (fun _ _ _ _ hline => ⟨ne_nil_of_propertyLine hline, reads_rolePropertyAssignment hn hline⟩)
    hs hr refuses_rolePropertyAssignment_nil hk (hend.elim .inl fun hle => .inr (.inl hle))

theorem runs_keywordProperties {word : String} (hn : word ≠ "") (hw : '\n' ∉ word.toList)
    (h : Rows (fun _ => KeywordLine word) k s.position l w tail)
    (hs : s.Sound) (hr : s.rest = w ++ tail) (hk : s.reference.column < k)
    (hend : Ended (withPosition ((language.reserved word).then_ (assignment contextPropertyName)))
      s.reference.column k (s.position.advanceAll w) tail) :
    Runs (Parser.indentedBlock (withPosition ((language.reserved word).then_
      (assignment contextPropertyName)))) s w tail 0 (l.map Property.rendered) := by
  refine h.block (fun _ _ v _ hline => ⟨?_, reads_keywordAssignment hn hw hline⟩) hs hr
    (refuses_keyword_then (by simpa using hn)) hk hend
  cases hline
  simp [hn]

end Bodies

section Arrows

theorem reads_roleOccurrence {n : Option Nat} (h : OccurrenceText n o ("=>".toList ++ rest)) :
    ReadsIf State.OnLine (Parser.option none (roleOccurrence.map some)) o ("=>".toList ++ rest) n := by
  cases h with
  | none =>
    have parens : Refuses (roleOccurrence.map some) ([] ++ ("=>".toList ++ rest)) :=
      (Refuses.sameLine_then (((Refuses.string (by simp)).bind.bind).bind)).map _
    exact (Reads.alt_right parens (ReadsIf.pure none)).readsIf
  | @some y n g g₁ g₂ _ hg hy _ hg₁ hg₂ =>
    have number : Reads language.natural (y.toList ++ g₁)
        (")".toList ++ g₂ ++ ("=>".toList ++ rest)) n := by
      have read := reads_numeral hy hg₁.gap (hg₁.gap.stops ?_ ?_ (by decide) (by decide))
      · rwa [← List.append_assoc] at read
      · rintro c ⟨⟩
        decide
      · exact fun _ hc => eq_false_of_isBlank hc (by decide)
    have opening : Reads (language.symbol "(") ("(".toList ++ g)
        (y.toList ++ g₁ ++ (")".toList ++ g₂ ++ ("=>".toList ++ rest))) "(" := by
      have read := reads_symbol (show "(" ≠ "" by decide) hg.gap
      simpa using read
    have closing : Reads (language.symbol ")") (")".toList ++ g₂) ("=>".toList ++ rest) ")" :=
      reads_symbol (by decide) hg₂.gap
    have inside : ReadsIf State.OnLine roleOccurrence
        ([] ++ ("(".toList ++ g ++ (y.toList ++ g₁) ++ (")".toList ++ g₂))) ("=>".toList ++ rest) n :=
      ReadsIf.then_ readsIf_sameLine (fun s hs => by simpa using hs)
        ((opening.then_ number).skip closing).readsIf
    have htext : "(".toList ++ (g ++ (y.toList ++ (g₁ ++ (")".toList ++ g₂)))) =
        [] ++ ("(".toList ++ g ++ (y.toList ++ g₁) ++ (")".toList ++ g₂)) := by simp
    rw [htext]
    exact (inside.map some).alt_left fun _ => id

theorem notMem_of_occurrenceText {n : Option Nat} (h : OccurrenceText n o rest) : '\n' ∉ o := by
  cases h with
  | none => exact List.not_mem_nil
  | some hg _ hy hg₁ hg₂ => simp [hg.line, hy, hg₁.line, hg₂.line]

theorem notMem_of_arrowText {n : Option Nat}
    (h : ArrowText (fun x => Spells propertyName x ∧ names x) x n w tail) : '\n' ∉ w := by
  cases h with
  | mk hx hg ho _ =>
    have hname := notMem_of_isName (by decide) hx.1.propertyName
    simp [hname, hg.line, notMem_of_occurrenceText ho]

theorem arrow_steps {n : Option Nat} {s : State}
    (h : ArrowText (fun x => Spells propertyName x ∧ names x) x n w (g ++ rest))
    (hg : Gap g rest) (hs : s.Sound) (hl : s.OnLine) (hr : s.rest = w ++ (g ++ rest)) :
    ∃ t u, propertyName s = .success x t ∧
      Parser.option none (roleOccurrence.map some) t = .success n u ∧
      Parser.sameOrIndented.then_ (language.reservedOperator "=>") u =
        .success "=>" (s.pass (w ++ g)) := by
  cases h with
  | @mk g₀ o _ hx hg₀ ho hstop =>
    have hr₀ : s.rest = (x.toList ++ g₀) ++ (o ++ ("=>".toList ++ (g ++ rest))) := by
      rw [hr]
      simp
    have hr₁ : s.rest = x.toList ++ g₀ ++ o ++ ("=>".toList ++ g ++ rest) := by
      rw [hr]
      simp
    have stops : Stops isNameChar (g₀ ++ (o ++ ("=>".toList ++ (g ++ rest)))) := by
      refine hg₀.gap.stops_name ?_
      cases ho with
      | none =>
        rintro c ⟨⟩
        decide
      | some =>
        rintro c ⟨⟩
        decide
    have named := reads_propertyName hx.1.propertyName hg₀.gap stops s hs hr₀ trivial
    have line : (s.pass (x.toList ++ g₀)).OnLine := by
      refine hl.pass ?_
      rw [List.mem_append, not_or]
      exact ⟨notMem_of_isName (by decide) hx.1.propertyName, hg₀.line⟩
    have occurrence := reads_roleOccurrence ho _ (hs.pass hr₀) (State.rest_pass hr₀) line
    have line' : (s.pass (x.toList ++ g₀ ++ o)).OnLine := by
      rw [State.pass_append]
      exact line.pass (notMem_of_occurrenceText ho)
    have arrow := readsIf_then (reads_reservedOperator (show "=>" ≠ "" by decide) hg hstop)
      (s.pass (x.toList ++ g₀ ++ o)) (hs.pass hr₁) (State.rest_pass hr₁) line'
    rw [← State.pass_append] at occurrence arrow
    refine ⟨_, _, named, occurrence, ?_⟩
    have htext : x.toList ++ g₀ ++ o ++ ("=>".toList ++ g) =
        x.toList ++ (g₀ ++ (o ++ "=>".toList)) ++ g := by simp
    rwa [htext] at arrow

end Arrows

end ContextRoles.Source
