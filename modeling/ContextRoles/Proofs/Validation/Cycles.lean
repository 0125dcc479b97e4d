import ContextRoles.Proofs.Model.Filling
import Mathlib.Data.List.Cycle
import Mathlib.Logic.Relation

/-! # Each binding cycle is reported once

A role is bound to at most one role, so all bindings together are a partial function on the ids. The
walk from a role leaves out what earlier walks have been at. What it adds is a path, which may end by
coming back to itself. Everything that is reachable from the roles that a walk has started from is then
finished, and each cycle in it is reported.
-/

namespace ContextRoles

open Source (Keyed)
open Relation (ReflTransGen)

section Functional

variable {α : Type*} {R : α → α → Prop} {cyc cyc' : Cycle α} {x y : α}

theorem exists_eq_cons (h : x ∈ cyc) : ∃ l : List α, cyc = ↑(x :: l) := by
  obtain ⟨way, rfl⟩ := Quot.exists_rep cyc
  obtain ⟨s, t, rfl⟩ := List.append_of_mem (Cycle.mem_coe_iff.mp h)
  exact ⟨t ++ s, Cycle.coe_eq_coe.mpr List.isRotated_append⟩

theorem exists_next (hcyc : cyc.Chain R) (h : x ∈ cyc) : ∃ y ∈ cyc, R x y := by
  obtain ⟨l, rfl⟩ := exists_eq_cons h
  rw [Cycle.chain_coe_cons] at hcyc
  cases l with
  | nil => exact ⟨x, h, hcyc.rel⟩
  | cons y l => exact ⟨y, by simp, hcyc.rel⟩

theorem mem_of_reflTransGen (hR : Relator.RightUnique R) (hcyc : cyc.Chain R) (hx : x ∈ cyc)
    (h : ReflTransGen R x y) : y ∈ cyc := by
  induction h with
  | refl => exact hx
  | tail _ hstep ih =>
    obtain ⟨z, hz, hnext⟩ := exists_next hcyc ih
    exact hR hnext hstep ▸ hz

theorem mem_of_isChain (hR : Relator.RightUnique R) (hcyc : cyc.Chain R) {s t : List α}
    (h : (s ++ x :: t).IsChain R) (hx : x ∈ cyc) : ∀ y ∈ x :: t, y ∈ cyc :=
  h.right_of_append.induction (· ∈ cyc) _
    (fun _ _ hstep hmem => mem_of_reflTransGen hR hcyc hmem (.single hstep)) fun _ => hx

theorem eq_of_isChain (hR : Relator.RightUnique R) {a : α} {l l' : List α}
    (h : (a :: (l ++ [x])).IsChain R) (h' : (a :: (l' ++ [x])).IsChain R) (hx : x ∉ l)
    (hx' : x ∉ l') : l = l' := by
  induction l generalizing a l' with
  | nil =>
    cases l' with
    | nil => rfl
    | cons b l' => exact absurd (hR h.rel h'.rel) (List.ne_of_not_mem_cons hx')
  | cons b l ih =>
    cases l' with
    | nil => exact absurd (hR h'.rel h.rel) (List.ne_of_not_mem_cons hx)
    | cons b' l' =>
      obtain rfl : b = b' := hR h.rel h'.rel
      rw [ih h.tail h'.tail (List.not_mem_of_not_mem_cons hx) (List.not_mem_of_not_mem_cons hx')]

theorem cycle_eq (hR : Relator.RightUnique R) (hcyc : cyc.Chain R) (hcyc' : cyc'.Chain R)
    (hnodup : cyc.Nodup) (hnodup' : cyc'.Nodup) (hx : x ∈ cyc) (hx' : x ∈ cyc') : cyc = cyc' := by
  obtain ⟨l, rfl⟩ := exists_eq_cons hx
  obtain ⟨l', rfl⟩ := exists_eq_cons hx'
  rw [Cycle.nodup_coe_iff, List.nodup_cons] at hnodup hnodup'
  rw [Cycle.chain_coe_cons] at hcyc hcyc'
  rw [eq_of_isChain hR hcyc hcyc' hnodup.1 hnodup'.1]

end Functional

namespace Collection

variable {c : Collection} {finished chain : List String} {start : Role} {current : Option Role}

/-- A role of the collection is bound to another one, by their ids. -/
def Leads (c : Collection) (a b : String) : Prop :=
  ∃ r ∈ c.roles, ∃ t, c.next? r = some t ∧ r.id = a ∧ t.id = b

theorem mem_roles_of_next? {r t : Role} (h : c.next? r = some t) : t ∈ c.roles := by
  rw [next?_eq_map_filler?] at h
  obtain ⟨⟨key, filler⟩, hf, rfl⟩ := Option.map_eq_some_iff.mp h
  exact mem_roles.mpr ⟨key, get?_of_filler? hf⟩

theorem leads_iff (h : Keyed c.entities) {r : Role} (hr : r ∈ c.roles) {b : String} :
    c.Leads r.id b ↔ (c.next? r).map Role.id = some b := by
  rw [Option.map_eq_some_iff]
  constructor
  · rintro ⟨r', hr', t, hnext, hid, hb⟩
    rw [eq_of_id_eq h hr hr' hid] at hnext
    exact ⟨t, hnext, hb⟩
  · rintro ⟨t, hnext, hb⟩
    exact ⟨r, hr, t, hnext, rfl, hb⟩

theorem rightUnique_leads (h : Keyed c.entities) : Relator.RightUnique c.Leads := by
  intro a b b' hab hab'
  obtain ⟨r, hr, -, -, hid, -⟩ := id hab
  subst hid
  rw [leads_iff h hr] at hab hab'
  exact Option.some.inj (hab.symm.trans hab')

section Walks

/-- A walk stops at the end of the bindings, at a finished role or where it was before. -/
inductive Exit (finished chain : List String) : Option Role → Option (List String) → Prop
  | ended : Exit finished chain none none
  | known {current : Role} : current.id ∈ finished → Exit finished chain (some current) none
  | closed {current : Role} : current.id ∉ finished → current.id ∈ chain →
      Exit finished chain (some current)
        (some (chain.dropWhile (· != current.id) ++ [current.id]))

/-- A walk along the bindings, of any length: it goes on from a role with the chain up to it, and has a
chain and perhaps a cycle in the end. -/
inductive Walks (c : Collection) (finished : List String) :
    List String → Option Role → List String × Option (List String) → Prop
  | stop {chain : List String} {current : Option Role} {cycle : Option (List String)} :
      Exit finished chain current cycle → Walks c finished chain current (chain, cycle)
  | round {chain : List String} {current : Role} {result : List String × Option (List String)} :
      current.id ∉ finished → current.id ∉ chain →
      Walks c finished (chain ++ [current.id]) (c.next? current) result →
      Walks c finished chain (some current) result

theorem nodup_concat {id : String} (hnodup : chain.Nodup) (h : id ∉ chain) :
    (chain ++ [id]).Nodup := List.concat_eq_append ▸ hnodup.concat h

/-- A chain of different ids is no longer than the list of the roles, so following gets to the end of
the walk. -/
theorem walks_follow {fuel : Nat} {current : Role} (hcurrent : current ∈ c.roles)
    (hnodup : chain.Nodup) (hids : chain ⊆ c.roles.map Role.id)
    (hfuel : c.roles.length < chain.length + fuel) :
    c.Walks finished chain (some current) (c.follow finished fuel chain current) := by
  induction fuel generalizing chain current with
  | zero =>
    have hlength := (hnodup.subperm hids).length_le
    rw [List.length_map] at hlength
    omega
  | succ fuel ih =>
    by_cases hfinished : current.id ∈ finished
    · rw [follow, if_pos (List.contains_iff_mem.mpr hfinished)]
      exact .stop (.known hfinished)
    rw [follow, if_neg (mt List.contains_iff_mem.mp hfinished)]
    by_cases hchain : current.id ∈ chain
    · rw [if_pos (List.contains_iff_mem.mpr hchain)]
      exact .stop (.closed hfinished hchain)
    rw [if_neg (mt List.contains_iff_mem.mp hchain)]
    refine .round hfinished hchain ?_
    have hids' : chain ++ [current.id] ⊆ c.roles.map Role.id :=
      List.append_subset.mpr ⟨hids, by simpa using ⟨current, hcurrent, rfl⟩⟩
    cases hnext : c.next? current with
    | none => exact .stop .ended
    | some next =>
      refine ih (mem_roles_of_next? hnext) ?_ hids' ?_
      · exact nodup_concat hnodup hchain
      · rw [List.length_append, List.length_singleton]
        omega

/-- The walk has come from a role along a chain that no walk has been at. -/
structure Along (c : Collection) (finished : List String) (start : Role) (chain : List String)
    (current : Option Role) : Prop where
  starts : (chain ++ (current.map Role.id).toList).head? = some start.id
  isChain : (chain ++ (current.map Role.id).toList).IsChain c.Leads
  ends : current = none → ∀ z ∈ chain.getLast?, ∀ b, ¬ c.Leads z b
  nodup : chain.Nodup
  fresh : ∀ a ∈ chain, a ∉ finished
  mem : ∀ r ∈ current, r ∈ c.roles

theorem along_start (h : start ∈ c.roles) : Along c finished start [] (some start) where
  starts := rfl
  isChain := .singleton _
  ends := nofun
  nodup := .nil
  fresh := nofun
  mem := by rintro r ⟨⟩; exact h

theorem Along.round (hkeyed : Keyed c.entities) {current : Role}
    (h : Along c finished start chain (some current)) (hfinished : current.id ∉ finished)
    (hchain : current.id ∉ chain) :
    Along c finished start (chain ++ [current.id]) (c.next? current) where
  starts := by
    rw [List.head?_append_of_ne_nil _ (by simp)]
    exact h.starts
  isChain := by
    refine List.isChain_append.mpr ⟨h.isChain, ?_, ?_⟩
    · cases c.next? current <;> simp
    · intro z hz b hb
      obtain rfl : current.id = z := by simpa using hz
      rw [leads_iff hkeyed (h.mem _ rfl)]
      cases hnext : c.next? current with
      | none => simp [hnext] at hb
      | some t => simpa [hnext] using hb
  ends := by
    intro hnone z hz b
    obtain rfl : current.id = z := by simpa using hz
    rw [leads_iff hkeyed (h.mem _ rfl), hnone]
    exact nofun
  nodup := nodup_concat h.nodup hchain
  fresh := by simpa using fun a ha => ha.elim (h.fresh a) fun e => e ▸ hfinished
  mem := fun _ ht => mem_roles_of_next? ht

theorem Walks.exit (hkeyed : Keyed c.entities) {result : List String × Option (List String)}
    (h : c.Walks finished chain current result) (ha : Along c finished start chain current) :
    ∃ last, Along c finished start result.1 last ∧ Exit finished result.1 last result.2 := by
  induction h with
  | stop hexit => exact ⟨_, ha, hexit⟩
  | round hfinished hchain _ ih => exact ih (ha.round hkeyed hfinished hchain)

theorem Along.start_mem {cycle : Option (List String)} (h : Along c finished start chain current)
    (hexit : Exit finished chain current cycle) : start.id ∈ finished ∨ start.id ∈ chain := by
  have hstarts := h.starts
  cases chain with
  | cons a chain =>
    obtain rfl : a = start.id := Option.some.inj hstarts
    exact .inr List.mem_cons_self
  | nil =>
    cases hexit with
    | ended => cases hstarts
    | known hfinished => exact .inl (Option.some.inj hstarts ▸ hfinished)
    | closed _ hchain => cases hchain

/-- What a role of the chain leads to is finished or in the chain, once the walk stops. -/
theorem Along.closed (hkeyed : Keyed c.entities) {cycle : Option (List String)} {a b : String}
    (h : Along c finished start chain current) (hexit : Exit finished chain current cycle)
    (ha : a ∈ chain) (hab : c.Leads a b) : b ∈ finished ∨ b ∈ chain := by
  have hR := rightUnique_leads hkeyed
  obtain ⟨s, t, rfl⟩ := List.append_of_mem ha
  have hchain := h.isChain
  rw [List.append_assoc] at hchain
  cases t with
  | cons b' t =>
    obtain rfl : b = b' := hR hab hchain.right_of_append.rel
    exact .inr (by simp)
  | nil =>
    -- the last role of the chain leads to where the walk stopped
    cases hexit with
    | ended => exact absurd hab (h.ends rfl a (by simp) b)
    | known hfinished => exact .inl (hR hab hchain.right_of_append.rel ▸ hfinished)
    | closed _ hmem => exact .inr (hR hab hchain.right_of_append.rel ▸ hmem)

theorem Along.exists_mem (hkeyed : Keyed c.entities) {cyc : Cycle String} {a : String}
    (h : Along c finished start chain current) (hcyc : cyc.Chain c.Leads) (ha : a ∈ cyc)
    (hchain : a ∈ chain) : ∃ r ∈ current, r.id ∈ cyc := by
  obtain ⟨s, t, rfl⟩ := List.append_of_mem hchain
  have hpath := h.isChain
  rw [List.append_assoc] at hpath
  have hmem := mem_of_isChain (rightUnique_leads hkeyed) hcyc hpath ha
  cases current with
  | some r => exact ⟨r, rfl, hmem _ (by simp)⟩
  | none =>
    obtain ⟨z, hz⟩ : ∃ z, (a :: t).getLast? = some z :=
      ⟨_, List.getLast?_eq_some_getLast (List.cons_ne_nil a t)⟩
    obtain ⟨b, -, hb⟩ := exists_next hcyc (hmem z (by simpa using List.mem_of_getLast? hz))
    refine absurd hb (h.ends rfl z ?_ b)
    rw [List.getLast?_append_of_ne_nil _ (List.cons_ne_nil a t)]
    exact hz

theorem exists_way {id : String} (h : id ∈ chain) :
    ∃ path rest, chain = path ++ id :: rest ∧ chain.dropWhile (· != id) = id :: rest := by
  obtain ⟨path, rest, rfl, hpath⟩ := List.eq_append_cons_of_mem h
  refine ⟨path, rest, rfl, ?_⟩
  have hne : ∀ a ∈ path, (a != id) = true := fun a ha => bne_iff_ne.mpr fun e => hpath (e ▸ ha)
  rw [List.dropWhile_append_of_pos hne, List.dropWhile_cons_of_neg (by simp)]

end Walks

section Report

/-- A cycle of bindings, wherever one begins to go round. -/
structure Round (c : Collection) (cyc : Cycle String) : Prop where
  ne_nil : cyc ≠ Cycle.nil
  nodup : cyc.Nodup
  chain : cyc.Chain c.Leads

theorem Round.exists_mem {cyc : Cycle String} (h : c.Round cyc) : ∃ a, a ∈ cyc := by
  obtain ⟨way, rfl⟩ := Quot.exists_rep cyc
  exact List.exists_mem_of_ne_nil way fun e => h.ne_nil ((Cycle.coe_eq_nil way).mpr e)

/-- Once round, and back to where the way begins. -/
def turn (way : List String) : List String := way ++ way.take 1

/-- The first role that leads into the way round comes to it where the way begins. -/
def Entered (c : Collection) (way : List String) : Prop :=
  ∃ before start after path, c.roles = before ++ start :: after ∧
    (∀ r ∈ before, ∀ a ∈ way, ¬ ReflTransGen c.Leads r.id a) ∧
    (path ++ way.take 1).head? = some start.id ∧ (path ++ way.take 1).IsChain c.Leads ∧
    ∀ a ∈ path, a ∉ way

theorem round_of_turn {id : String} {rest : List String} (hnodup : (id :: rest).Nodup)
    (hchain : (turn (id :: rest)).IsChain c.Leads) : c.Round ↑(id :: rest) where
  ne_nil := by simp
  nodup := Cycle.nodup_coe_iff.mpr hnodup
  chain := hchain

/-- What the walks from some of the roles leave: all that is reachable from them is finished, and the
cycles in it are reported. -/
structure Visited (c : Collection) (before : List Role) (finished : List String)
    (ways : List (List String)) : Prop where
  started : ∀ r ∈ before, r.id ∈ finished
  closed : ∀ a ∈ finished, ∀ b, c.Leads a b → b ∈ finished
  within : ∀ way ∈ ways, way ⊆ finished
  round : ∀ way ∈ ways, c.Round ↑way
  entered : ∀ way ∈ ways, c.Entered way
  once : (ways.map ((↑) : List String → Cycle String)).Nodup
  complete : ∀ cyc, c.Round cyc → ∀ a ∈ cyc, a ∈ finished → cyc ∈ ways.map (↑)

theorem visited_nil : Visited c [] [] [] where
  started := nofun
  closed := nofun
  within := nofun
  round := nofun
  entered := nofun
  once := .nil
  complete := nofun

variable {before after : List Role} {ways more : List (List String)}

theorem Visited.mem_of_reflTransGen (h : Visited c before finished ways) {a b : String}
    (ha : a ∈ finished) (hab : ReflTransGen c.Leads a b) : b ∈ finished := by
  induction hab with
  | refl => exact ha
  | tail _ hstep ih => exact h.closed _ ih _ hstep

theorem Visited.extend (h : Visited c before finished ways) (hfresh : ∀ a ∈ chain, a ∉ finished)
    (hstart : start.id ∈ finished ∨ start.id ∈ chain)
    (hclosed : ∀ a ∈ chain, ∀ b, c.Leads a b → b ∈ finished ∨ b ∈ chain)
    (hwithin : ∀ way ∈ more, way ⊆ chain) (hround : ∀ way ∈ more, c.Round ↑way)
    (hentered : ∀ way ∈ more, c.Entered way)
    (honce : (more.map ((↑) : List String → Cycle String)).Nodup)
    (hcomplete : ∀ cyc, c.Round cyc → ∀ a ∈ cyc, a ∈ chain →
      cyc ∈ ways.map (↑) ∨ cyc ∈ more.map ((↑) : List String → Cycle String)) :
    Visited c (before ++ [start]) (finished ++ chain) (ways ++ more) where
  started := by
    simp only [List.mem_append, List.mem_singleton]
    rintro r (hr | rfl)
    · exact .inl (h.started r hr)
    · exact hstart
  closed := by
    simp only [List.mem_append]
    rintro a (ha | ha) b hab
    · exact .inl (h.closed a ha b hab)
    · exact hclosed a ha b hab
  within := by
    simp only [List.mem_append]
    rintro way (hway | hway)
    · exact List.subset_append_of_subset_left _ (h.within way hway)
    · exact List.subset_append_of_subset_right _ (hwithin way hway)
  round := by
    simp only [List.mem_append]
    exact fun way hway => hway.elim (h.round way) (hround way)
  entered := by
    simp only [List.mem_append]
    exact fun way hway => hway.elim (h.entered way) (hentered way)
  once := by
    rw [List.map_append, List.nodup_append']
    refine ⟨h.once, honce, ?_⟩
    -- a cycle has a member, which is either finished or new
    rintro _ hold hnew
    obtain ⟨old, hway, rfl⟩ := List.mem_map.mp hold
    obtain ⟨new, hway', heq⟩ := List.mem_map.mp hnew
    obtain ⟨a, ha⟩ := (h.round old hway).exists_mem
    have hmem : a ∈ new := Cycle.mem_coe_iff.mp (heq ▸ ha)
    exact hfresh a (hwithin new hway' hmem) (h.within old hway (Cycle.mem_coe_iff.mp ha))
  complete := by
    simp only [List.map_append, List.mem_append]
    rintro cyc hcyc a ha (hmem | hmem)
    · exact .inl (h.complete cyc hcyc a ha hmem)
    · exact hcomplete cyc hcyc a ha hmem

theorem Along.entered {current : Role} {path rest : List String}
    (hroles : c.roles = before ++ start :: after) (hv : Visited c before finished ways)
    (h : Along c finished start (path ++ current.id :: rest) (some current)) :
    c.Entered (current.id :: rest) := by
  have hnodup := List.nodup_append'.mp h.nodup
  refine ⟨before, start, after, path, hroles, ?_, ?_, ?_, fun a ha hway => hnodup.2.2 ha hway⟩
  · intro r hr a ha hreach
    exact h.fresh a (List.mem_append_right _ ha)
      (hv.mem_of_reflTransGen (hv.started r hr) hreach)
  · have hstarts := h.starts
    cases path <;> exact hstarts
  · have hchain := h.isChain
    rw [List.append_assoc, List.cons_append, List.append_cons] at hchain
    exact hchain.left_of_append

theorem Visited.step (hkeyed : Keyed c.entities) (hroles : c.roles = before ++ start :: after)
    (hv : Visited c before finished ways) {cycle : Option (List String)}
    (h : Along c finished start chain current) (hexit : Exit finished chain current cycle) :
    ∃ more, cycle.toList = more.map turn ∧
      Visited c (before ++ [start]) (finished ++ chain) (ways ++ more) := by
  have hclosed : ∀ a ∈ chain, ∀ b, c.Leads a b → b ∈ finished ∨ b ∈ chain :=
    fun _ ha _ hab => h.closed hkeyed hexit ha hab
  have hstart := h.start_mem hexit
  have hmem := fun cyc (hcyc : c.Round cyc) a ha hchain =>
    h.exists_mem hkeyed (a := a) hcyc.chain ha hchain
  cases hexit with
  | ended =>
    refine ⟨[], rfl, hv.extend h.fresh hstart hclosed nofun nofun nofun .nil ?_⟩
    intro cyc hcyc a ha hchain
    obtain ⟨r, hr, -⟩ := hmem cyc hcyc a ha hchain
    cases hr
  | known hfinished =>
    refine ⟨[], rfl, hv.extend h.fresh hstart hclosed nofun nofun nofun .nil ?_⟩
    intro cyc hcyc a ha hchain
    obtain ⟨r, ⟨⟩, hr⟩ := hmem cyc hcyc a ha hchain
    exact .inl (hv.complete cyc hcyc _ hr hfinished)
  | @closed current _ hback =>
    obtain ⟨path, rest, rfl, hdrop⟩ := exists_way hback
    have hnodup : (current.id :: rest).Nodup := (List.nodup_append'.mp h.nodup).2.1
    have hturn : (turn (current.id :: rest)).IsChain c.Leads := by
      have hchain := h.isChain
      rw [List.append_assoc] at hchain
      exact hchain.right_of_append
    have hround := round_of_turn hnodup hturn
    refine ⟨[current.id :: rest], by rw [hdrop]; rfl, hv.extend h.fresh hstart hclosed ?_ ?_ ?_ ?_ ?_⟩
    · simp
    · simpa using hround
    · simpa using h.entered hroles hv
    · simp
    · intro cyc hcyc a ha hchain
      obtain ⟨r, ⟨⟩, hr⟩ := hmem cyc hcyc a ha hchain
      have heq := cycle_eq (rightUnique_leads hkeyed) hcyc.chain hround.chain hcyc.nodup hround.nodup
        hr (by simp)
      exact .inr (by simp [heq])

theorem bindingCycles_step (c : Collection) (finished : List String) (errors : List Inconsistency)
    (start : Role) : bindingCycles.step c (finished, errors) start =
      (finished ++ (c.follow finished (c.roles.length + 1) [] start).1,
        errors ++ (c.follow finished (c.roles.length + 1) [] start).2.toList.map .bindingCycle) := by
  simp [bindingCycles.step, Option.toList_map]

theorem visited_bindingCycles (hkeyed : Keyed c.entities) : ∃ finished ways,
    c.bindingCycles = ways.map (fun way => .bindingCycle (turn way)) ∧
      Visited c c.roles finished ways := by
  have steps : ∀ (after before : List Role) (finished : List String) (ways : List (List String)),
      c.roles = before ++ after → Visited c before finished ways →
      ∃ finished' ways', (after.foldl (bindingCycles.step c)
          (finished, ways.map fun way => .bindingCycle (turn way))).2 =
        ways'.map (fun way => .bindingCycle (turn way)) ∧ Visited c c.roles finished' ways' := by
    intro after
    induction after with
    | nil =>
      intro before finished ways hroles hv
      rw [List.append_nil] at hroles
      exact ⟨finished, ways, rfl, hroles ▸ hv⟩
    | cons start after ih =>
      intro before finished ways hroles hv
      have hstart : start ∈ c.roles := by simp [hroles]
      have hwalk : c.Walks finished [] (some start) (c.follow finished (c.roles.length + 1) [] start) :=
        walks_follow hstart .nil (List.nil_subset _) (by simp)
      obtain ⟨last, halong, hexit⟩ := hwalk.exit hkeyed (along_start hstart)
      obtain ⟨more, hmore, hv'⟩ := hv.step hkeyed hroles halong hexit
      have hreport : (c.follow finished (c.roles.length + 1) [] start).2.toList.map .bindingCycle =
          more.map fun way => Inconsistency.bindingCycle (turn way) := by
        rw [hmore, List.map_map]
        rfl
      rw [List.foldl_cons, bindingCycles_step, hreport, ← List.map_append]
      exact ih _ _ _ (by simpa using hroles) hv'
  exact steps c.roles [] [] [] rfl visited_nil

/-- Each walk comes to its end. There is one report for each cycle of the bindings and no other one. It
spells the way round, from where the first role that leads into the cycle enters it. -/
theorem bindingCycles_exact (hkeyed : Keyed c.entities) :
    (∀ finished, ∀ start ∈ c.roles,
      c.Walks finished [] (some start) (c.follow finished (c.roles.length + 1) [] start)) ∧
    ∃ ways : List (List String),
      c.bindingCycles = ways.map (fun way => .bindingCycle (turn way)) ∧
      c.bindingCycles.map Inconsistency.message =
        ways.map (fun way => "Binding cycle: " ++ String.intercalate " -> " (turn way)) ∧
      (∀ way ∈ ways,
        way ≠ [] ∧ way.Nodup ∧ (turn way).IsChain c.Leads ∧ c.Entered way) ∧
      (ways.map ((↑) : List String → Cycle String)).Nodup ∧
      ∀ cyc : Cycle String, cyc ∈ ways.map (↑) ↔ c.Round cyc := by
  refine ⟨fun finished start hstart => walks_follow hstart .nil (List.nil_subset _) (by simp), ?_⟩
  obtain ⟨finished, ways, hways, hv⟩ := visited_bindingCycles hkeyed
  refine ⟨ways, hways, ?_, fun way hway => ?_, hv.once, fun cyc => ⟨?_, fun hcyc => ?_⟩⟩
  · rw [hways, List.map_map]
    rfl
  · obtain ⟨hne, hnodup, hchain⟩ := hv.round way hway
    cases way with
    | nil => exact absurd Cycle.coe_nil hne
    | cons id rest => exact ⟨nofun, Cycle.nodup_coe_iff.mp hnodup, hchain, hv.entered _ hway⟩
  · intro hmem
    obtain ⟨way, hway, rfl⟩ := List.mem_map.mp hmem
    exact hv.round way hway
  · -- each member of a cycle is bound, so it is the id of a role that a walk has started from
    obtain ⟨a, ha⟩ := hcyc.exists_mem
    obtain ⟨b, -, r, hr, -, -, rfl, -⟩ := exists_next hcyc.chain ha
    exact hv.complete cyc hcyc _ ha (hv.started r hr)

/-- Two chains enter one cycle, the first by way of a context, and one role is bound to itself. -/
def entwined : Collection where
  name := "T"
  entities := .ofList [shared.bound "t" ":r" (some "A"), shared.bound "e" ":r" (some "a"),
    ("A", .context ⟨"A", ":X", ⟨"i", some "a", .empty⟩, "a", []⟩),
    shared.bound "a" ":r" (some "b"), shared.bound "b" ":r" (some "e"),
    shared.bound "u" ":r" (some "b"), shared.bound "f" ":r" none, shared.bound "s" ":r" (some "s")]

theorem bindingCycles_exact_entwined :
    Keyed entwined.entities ∧
    entwined.bindingCycles.map Inconsistency.message =
      ["Binding cycle: a -> b -> e -> a", "Binding cycle: s -> s"] ∧
    ∃ ways : List (List String),
      entwined.bindingCycles = ways.map (fun way => .bindingCycle (turn way)) ∧
      (∀ way ∈ ways, way.Nodup ∧ (turn way).IsChain entwined.Leads ∧ entwined.Entered way) ∧
      ∀ cyc : Cycle String, cyc ∈ ways.map (↑) ↔ entwined.Round cyc := by
  have hkeyed : Keyed entwined.entities := Source.keyed_iff.mpr (by decide +kernel)
  obtain ⟨-, ways, hways, -, hentered, -, hexact⟩ := bindingCycles_exact hkeyed
  exact ⟨hkeyed, by decide +kernel, ways, hways, fun way hway => (hentered way hway).2, hexact⟩

end Report

end Collection

end ContextRoles
