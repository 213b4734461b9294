import Mathlib.Data.List.Nodup
import MibLinker.Proofs.Plan.Basic

/-!
# How plans fail

A registry that runs plans can fail to load a module in three ways: a module has no plan, a symbol
is not exported, or a path of imports closes a cycle. The error passes through all the loads that it
ends, so what it says is to be read along the load stack. `LoadFails` is that reading: it goes down
the stack, from the module that was asked for to the one at which the defect lies.
-/

namespace MibLinker

variable {σ : Type} {P : Plans σ} {s t u : Session σ} {name : String} {n : Nat}

/-- How a load of a module fails with an error while the modules on a stack are being loaded, when
`imports?` tells the imports of each module, these modules are published in the end, and these
imports are found. What has been published for it on the way is reached from the modules of the last
list. -/
inductive LoadFails (imports? : String → Option (List Import)) (published : String → Prop)
    (found : Import → Prop) : List String → String → LinkError → List String → Prop
  | cycle {stack name} : name ∈ stack →
      LoadFails imports? published found stack name
        (.circularDependency (stack.dropWhile (· != name) ++ [name])) []
  | undefined {stack name} : name ∉ stack → imports? name = none →
      LoadFails imports? published found stack name (.moduleNotFound name) []
  | missing {stack name before i rest} : name ∉ stack → imports? name = some (before ++ i :: rest) →
      (∀ j ∈ before, found j) → published i.module → ¬ found i →
      LoadFails imports? published found stack name (.unresolvedSymbol i.module i.symbol)
        (before.map Import.module ++ [i.module])
  | inside {stack name before i rest e roots} : name ∉ stack →
      imports? name = some (before ++ i :: rest) → (∀ j ∈ before, found j) → ¬ published i.module →
      LoadFails imports? published found (stack ++ [name]) i.module e roots →
      LoadFails imports? published found stack name e (before.map Import.module ++ roots)

/-- Where a list is split at the first element that lacks a property is determined. -/
private theorem eq_of_split {α : Type} {p : α → Prop} {before before' rest rest' : List α}
    {i i' : α} (h : before ++ i :: rest = before' ++ i' :: rest') (all : ∀ j ∈ before, p j)
    (lacks : ¬ p i) (all' : ∀ j ∈ before', p j) (lacks' : ¬ p i') :
    before = before' ∧ i = i' := by
  induction before generalizing before' with
  | nil =>
      cases before' with
      | nil => exact ⟨rfl, (List.cons.inj h).1⟩
      | cons j others =>
          obtain ⟨rfl, _⟩ := List.cons.inj h
          exact (lacks (all' i (.head _))).elim
  | cons j others ih =>
      cases before' with
      | nil =>
          obtain ⟨rfl, _⟩ := List.cons.inj h
          exact (lacks' (all j (.head _))).elim
      | cons j' others' =>
          obtain ⟨rfl, tails⟩ := List.cons.inj h
          obtain ⟨rfl, same⟩ := ih tails (fun j hj => all j (.tail _ hj))
            fun j hj => all' j (.tail _ hj)
          exact ⟨rfl, same⟩

/-- The error of a load is determined, and so is what it leaves. -/
theorem LoadFails.unique {imports? : String → Option (List Import)} {published : String → Prop}
    {found : Import → Prop} {stack roots roots' : List String} {e e' : LinkError}
    (of_found : ∀ i, found i → published i.module)
    (h : LoadFails imports? published found stack name e roots)
    (h' : LoadFails imports? published found stack name e' roots') : e = e' ∧ roots = roots' := by
  induction h generalizing e' roots' with
  | cycle stacked =>
      cases h' with
      | cycle => exact ⟨rfl, rfl⟩
      | undefined offStack | missing offStack | inside offStack => exact (offStack stacked).elim
  | undefined offStack undefined =>
      cases h' with
      | cycle stacked => exact (offStack stacked).elim
      | undefined => exact ⟨rfl, rfl⟩
      | missing _ imports | inside _ imports => cases undefined.symm.trans imports
  | missing offStack imports before published unfound =>
      cases h' with
      | cycle stacked => exact (offStack stacked).elim
      | undefined _ undefined => cases undefined.symm.trans imports
      | missing _ imports' before' _ unfound' =>
          have same := Option.some.inj (imports.symm.trans imports')
          obtain ⟨rfl, rfl⟩ := eq_of_split same before unfound before' unfound'
          exact ⟨rfl, rfl⟩
      | inside _ imports' before' unpublished =>
          have same := Option.some.inj (imports.symm.trans imports')
          have unfound' := fun found => unpublished (of_found _ found)
          obtain ⟨rfl, rfl⟩ := eq_of_split same before unfound before' unfound'
          exact (unpublished published).elim
  | inside offStack imports before unpublished _ ih =>
      have unfound := fun found => unpublished (of_found _ found)
      cases h' with
      | cycle stacked => exact (offStack stacked).elim
      | undefined _ undefined => cases undefined.symm.trans imports
      | missing _ imports' before' published unfound' =>
          have same := Option.some.inj (imports.symm.trans imports')
          obtain ⟨rfl, rfl⟩ := eq_of_split same before unfound before' unfound'
          exact (unpublished published).elim
      | inside _ imports' before' unpublished' inner =>
          have same := Option.some.inj (imports.symm.trans imports')
          have unfound' := fun found => unpublished' (of_found _ found)
          obtain ⟨rfl, rfl⟩ := eq_of_split same before unfound before' unfound'
          obtain ⟨rfl, rfl⟩ := ih inner
          exact ⟨rfl, rfl⟩

namespace Plans

def imports? (P : Plans σ) (name : String) : Option (List Import) := (P[name]?).map Plan.imports

/-! ## Requests in which nothing has failed -/

structure Calm (P : Plans σ) (s : Session σ) : Prop where
  layered : s.Layered P.discipline
  loader : s.loader = some P.loader
  inside : 0 < s.registry.depth
  unfailed : ∀ other, s.registry.freshFailure? other = none

namespace Calm

theorem opened (calm : P.Calm s) (name : String) : P.Calm ((s.opened name).change .enter) where
  layered := calm.layered.of_same ⟨rfl, rfl, rfl, rfl⟩
  loader := calm.loader
  inside := Nat.succ_pos _
  unfailed other :=
    (Session.freshFailure?_enter (s := s.opened name) calm.inside other).trans (calm.unfailed other)

theorem after {requested : List String} (calm : P.Calm s)
    (grown : s.Grown P.discipline requested t) (steady : s.Steady t)
    (unfailed : ∀ other, t.registry.freshFailure? other = none) : P.Calm t where
  layered := grown.layered
  loader := grown.loader.trans calm.loader
  inside := steady.depth ▸ calm.inside
  unfailed := unfailed

end Calm

section Requests

open Linking

variable (calmed : ∀ {name} {s t : Session σ} {m}, P.Calm s → fetch n name s = (.ok m, t) →
  P.Calm t)

include calmed

theorem resolveOne_calm {i : Import} {symbol : Symbol} (calm : P.Calm s)
    (h : resolveOne (fetch n) i s = (.ok symbol, t)) : P.Calm t := by
  obtain ⟨m, u, fetched, _, rfl⟩ := found_of_resolveOne h
  have after : P.Calm u := calmed calm fetched
  exact ⟨after.layered.of_same ⟨rfl, rfl, rfl, rfl⟩, after.loader, after.inside, after.unfailed⟩

theorem resolveEach_calm {imports : List Import} {symbols : List Symbol} (calm : P.Calm s)
    (h : resolveEach (fetch n) imports s = (.ok symbols, t)) : P.Calm t := by
  induction imports generalizing s symbols with
  | nil =>
      obtain ⟨_, rfl⟩ := Prod.mk.inj h
      exact calm
  | cons i rest ih =>
      obtain ⟨symbol, later, u, first, others⟩ := found_of_resolveEach h
      exact ih (resolveOne_calm calmed calm first) others

end Requests

/-- A request that succeeds leaves no failure behind. -/
theorem fetch_calm {m : Shared Module} (calm : P.Calm s)
    (h : Linking.fetch n name s = (.ok m, t)) : P.Calm t := by
  induction n generalizing name s t m with
  | zero =>
      rcases Linking.published_or_vacant_of_fetchBy h with ⟨_, rfl⟩ | ⟨_, deep⟩
      · exact calm
      · cases (Prod.mk.inj deep).1
  | succ n ih =>
      have grown : s.Grown P.discipline [name] _ := Linking.fetch_grows (n + 1) name calm.layered
      have steady := Session.lawful_steady.fetch (n + 1) name s
      rw [h] at grown steady
      rcases Linking.published_or_vacant_of_fetchBy h with ⟨_, rfl⟩ | ⟨_, attempted⟩
      · exact calm
      · obtain ⟨p, symbols, u, hp, rfl, found⟩ := Linking.finished_of_planned calm.loader attempted
        have before := resolveEach_calm ih (calm.opened name) found
        apply calm.after grown steady
        intro other
        rw [p.freshFailure?_finished]
        split
        · rfl
        · exact before.unfailed other

structure Failed (P : Plans σ) (s : Session σ) (name : String) (e : LinkError)
    (roots : List String) (t : Session σ) : Prop where
  fails : LoadFails P.imports? (fun other => t.registry.isLoaded other = true) t.Finds
    s.registry.loading name e roots
  published : ∀ other, t.registry.isLoaded other = true ↔
    s.registry.isLoaded other = true ∨ ∃ root ∈ roots, P.Reaches root other

structure Ready (P : Plans σ) (n : Nat) (s : Session σ) : Prop where
  calm : P.Calm s
  defined : ∀ other ∈ s.registry.loading, other ∈ P
  nodup : s.registry.loading.Nodup
  room : P.size < n + s.registry.loading.length

namespace Ready

theorem after (ready : P.Ready n s) (calm : P.Calm t) (steady : s.Steady t) : P.Ready n t where
  calm := calm
  defined := steady.loading ▸ ready.defined
  nodup := steady.loading ▸ ready.nodup
  room := steady.loading ▸ ready.room

theorem opened (ready : P.Ready (n + 1) s) (defined : name ∈ P)
    (offStack : name ∉ s.registry.loading) : P.Ready n ((s.opened name).change .enter) := by
  have stack : ((s.opened name).change .enter).registry.loading =
      s.registry.loading ++ [name] := rfl
  constructor
  case calm => exact ready.calm.opened name
  case defined =>
    intro other hl
    rw [stack, List.mem_append, List.mem_singleton] at hl
    rcases hl with hl | rfl
    · exact ready.defined other hl
    · exact defined
  case nodup =>
    rw [stack, ← List.concat_eq_append]
    exact List.Nodup.concat offStack ready.nodup
  case room =>
    have room := ready.room
    rw [stack, List.length_append, List.length_singleton]
    omega

/-- The stack holds different names of the table, so it leaves some of the allowance. -/
theorem not_deep (ready : P.Ready 0 s) : False := by
  have room := ready.room
  have short := NameMap.length_le_size ready.nodup ready.defined
  omega

end Ready

namespace Failed

variable {e : LinkError} {roots : List String}

/-- A failure is the same when the session goes on without publishing anything. -/
theorem of_same (h : P.Failed s name e roots t) (same : t.SameStock u) :
    P.Failed s name e roots u where
  fails := by
    have published : (fun other => u.registry.isLoaded other = true) =
        fun other => t.registry.isLoaded other = true := by
      simp only [same.isLoaded_eq]
    have found : u.Finds = t.Finds := funext fun i => propext same.finds_iff
    rw [published, found]
    exact h.fails
  published other := by
    rw [same.isLoaded_eq]
    exact h.published other

end Failed

section Requests

open Linking

/-- A request for a name that the load stack holds closes a cycle, and any other one fails with its
attempt. -/
theorem Calm.cycle_or_vacant (calm : P.Calm s) {onward : Fetch σ} {e : LinkError}
    (h : fetchBy onward name s = (.error e, t)) :
    name ∈ s.registry.loading ∧ e = .circularDependency (s.registry.cycle name) ∧ t = s ∨
      s.Vacant name ∧ onward name s = (.error e, t) := by
  have unfailed := calm.unfailed name
  cases hm : s.registry.module? name with
  | some m => simp [fetchBy, hm] at h
  | none =>
      by_cases hl : name ∈ s.registry.loading
      · simp only [fetchBy, hm, unfailed, if_pos hl] at h
        obtain ⟨answer, rfl⟩ := Prod.mk.inj h
        exact .inl ⟨hl, (Except.error.inj answer).symm, rfl⟩
      · have vacant : s.Vacant name := ⟨hm, unfailed, hl⟩
        rw [fetchBy_of_vacant _ vacant] at h
        exact .inr ⟨vacant, h⟩

structure Supplied (P : Plans σ) (imports : List Import) (s t : Session σ) : Prop where
  grown : s.Grown P.discipline (imports.map Import.module) t
  steady : s.Steady t
  calm : P.Calm t
  finds : ∀ i ∈ imports, t.Finds i

theorem supplied_of_resolveEach {imports : List Import} {symbols : List Symbol} (calm : P.Calm s)
    (h : resolveEach (fetch n) imports s = (.ok symbols, t)) : P.Supplied imports s t where
  grown := by
    have grown := resolveEach_grows n imports calm.layered
    rwa [h] at grown
  steady := by
    have steady := Session.lawful_steady.resolveEach (Session.lawful_steady.fetch n) imports s
    rwa [h] at steady
  calm := resolveEach_calm fetch_calm calm h
  finds := (resolveEach_accrues (fetch_accrues n) imports calm.layered.follows).2 h

theorem Supplied.isLoaded_iff {imports : List Import} (h : P.Supplied imports s t)
    (other : String) :
    t.registry.isLoaded other = true ↔ s.registry.isLoaded other = true ∨
      ∃ root ∈ imports.map Import.module, P.Reaches root other := by
  apply h.grown.isLoaded_iff P.exact_discipline
  intro root hroot
  obtain ⟨i, hi, rfl⟩ := List.mem_map.mp hroot
  exact (h.finds i hi).isLoaded

inductive Missed (P : Plans σ) (s : Session σ) (i : Import) (t : Session σ) :
    LinkError → List String → Prop
  | unfetched {e roots} : P.Failed s i.module e roots t → t.registry.isLoaded i.module = false →
      Missed P s i t e roots
  | withheld : t.registry.isLoaded i.module = true → ¬ t.Finds i →
      Missed P s i t (.unresolvedSymbol i.module i.symbol) [i.module]

section Step

variable (failed : ∀ {name} {s t : Session σ} {e}, P.Ready n s → fetch n name s = (.error e, t) →
  ∃ roots, P.Failed s name e roots t)

include failed

theorem resolveOne_missed {i : Import} {e : LinkError} (ready : P.Ready n s)
    (h : resolveOne (fetch n) i s = (.error e, t)) :
    s.Grown P.discipline [i.module] t ∧ ∃ roots, P.Missed s i t e roots ∧
      ∀ other, t.registry.isLoaded other = true ↔
        s.registry.isLoaded other = true ∨ ∃ root ∈ roots, P.Reaches root other := by
  have grown : s.Grown P.discipline [i.module] _ := fetch_grows n i.module ready.calm.layered
  rcases missed_of_resolveOne h with unfetched | ⟨m, fetched, missing, rfl⟩
  · rw [unfetched] at grown
    obtain ⟨roots, failed⟩ := failed ready unfetched
    have unpublished := Registry.isLoaded_eq_false_iff.mpr (unpublished_of_fetch unfetched)
    exact ⟨grown, roots, .unfetched failed unpublished, failed.published⟩
  · rw [fetched] at grown
    have published := module?_of_fetch fetched
    have loaded := Registry.isLoaded_iff.mpr ⟨m, published⟩
    refine ⟨grown, [i.module], .withheld loaded ?_, fun other => ?_⟩
    · intro ⟨m', hm', symbol, hs⟩
      obtain rfl := Option.some.inj (published.symm.trans hm')
      cases missing.symm.trans hs
    · apply grown.isLoaded_iff P.exact_discipline
      intro root hroot
      rw [List.mem_singleton.mp hroot]
      exact loaded

/-- The imports of a plan fail at the first that is not found. What it leaves published comes on top
of what the imports before it reach. -/
theorem resolveEach_failed {p : Plan σ} {e : LinkError} (hp : P[name]? = some p)
    (ready : P.Ready (n + 1) s) (vacant : s.Vacant name)
    (h : resolveEach (fetch n) p.imports ((s.opened name).change .enter) = (.error e, t)) :
    t.registry.module? name = none ∧ ∃ roots, P.Failed s name e roots t := by
  have stack : ((s.opened name).change .enter).registry.loading =
      s.registry.loading ++ [name] := rfl
  have inner : P.Ready n ((s.opened name).change .enter) :=
    ready.opened (NameMap.mem_iff.mpr ⟨p, hp⟩) vacant.offStack
  obtain ⟨before, i, rest, symbols, u, split, found, unfound⟩ := exists_missed_of_resolveEach h
  have imports : P.imports? name = some (before ++ i :: rest) := by
    rw [Plans.imports?, hp, Option.map_some, split]
  have supplied : P.Supplied before _ u := supplied_of_resolveEach inner.calm found
  have earlier : ∀ other, u.registry.isLoaded other = true ↔ s.registry.isLoaded other = true ∨
      ∃ root ∈ before.map Import.module, P.Reaches root other := supplied.isLoaded_iff
  obtain ⟨grown, more, missed, later⟩ :=
    resolveOne_missed failed (inner.after supplied.calm supplied.steady) unfound
  have all := supplied.grown.trans supplied.steady grown
  have found : ∀ j ∈ before, t.Finds j := fun j hj => grown.finds (supplied.finds j hj)
  refine ⟨all.unpublished (s.mem_loading_opened name) vacant.unpublished,
    before.map Import.module ++ more, ?_, fun other => ?_⟩
  · cases missed with
    | unfetched failed unpublished =>
        apply LoadFails.inside vacant.offStack imports found
        · simp [unpublished]
        · rw [← stack, ← supplied.steady.loading]
          exact failed.fails
    | withheld published withheld =>
        exact .missing vacant.offStack imports found published withheld
  · simp only [later, earlier, List.mem_append, or_and_right, exists_or, or_assoc]

end Step

/-- A request that fails goes down a path of imports to a defect. -/
theorem fetch_failed {e : LinkError} (ready : P.Ready n s) (h : fetch n name s = (.error e, t)) :
    ∃ roots, P.Failed s name e roots t := by
  induction n generalizing name s t e with
  | zero => exact ready.not_deep.elim
  | succ n ih =>
      rcases ready.calm.cycle_or_vacant h with ⟨stacked, rfl, rfl⟩ | ⟨vacant, attempted⟩
      · exact ⟨[], .cycle stacked, by simp⟩
      · rcases unfinished_of_planned ready.calm.loader attempted with
          ⟨hp, rfl, rfl⟩ | ⟨p, u, hp, missed, rfl⟩
        · have failed : P.Failed s name (.moduleNotFound name) [] s :=
            ⟨.undefined vacant.offStack (by rw [Plans.imports?, hp, Option.map_none]), by simp⟩
          have begun : s.SameStock (s.opened name) := ⟨rfl, rfl, rfl, rfl⟩
          have withdrawn := Session.sameStock_withdrawn (s := s.opened name)
            (.moduleNotFound name) vacant.unpublished
          exact ⟨[], failed.of_same (begun.trans withdrawn)⟩
        · obtain ⟨unpublished, roots, failed⟩ := resolveEach_failed ih hp ready vacant missed
          have ended : u.SameStock (u.change .leave) := ⟨rfl, rfl, rfl, rfl⟩
          have withdrawn := Session.sameStock_withdrawn (s := u.change .leave) e unpublished
          exact ⟨roots, failed.of_same (ended.trans withdrawn)⟩

end Requests

end Plans

end MibLinker
