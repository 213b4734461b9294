import MibLinker.Proofs.Building.Basic

/-!
# One module after the other

When definitions only build, the publications accrue one by one. Each is of a module that a request
reaches, that is neither published nor under construction, and whose imports have all been found. A
request adds nothing else, whatever has been published before and however it is answered.
-/

namespace MibLinker

variable {σ : Type} {D : Discipline}

namespace Session

/-- How publications accrue from one session to another when modules are requested, while others are
busy being loaded or built. -/
inductive Accrues (D : Discipline) (busy requested : List String) : Session σ → Session σ → Prop
  | same {s t : Session σ} : s.SameStock t → Accrues D busy requested s t
  | publish {s : Session σ} {m : Module} : m.name ∉ busy →
      (∃ root ∈ requested, D.Reaches root m.name) → D.Makes m.name m →
      s.registry.module? m.name = none → (∀ i ∈ m.imports, s.Finds i) →
      Accrues D busy requested s (s.publish m).2
  | trans {s t u : Session σ} : Accrues D busy requested s t → Accrues D busy requested t u →
      Accrues D busy requested s u

namespace Accrues

variable {busy requested : List String} {s t : Session σ}

theorem refl (s : Session σ) : s.Accrues D busy requested s := .same ⟨rfl, rfl, rfl, rfl⟩

/-- With fewer modules busy, and more of them requested or reached from further off. -/
theorem mono {fewer more : List String} (h : s.Accrues D busy requested t) (within : fewer ⊆ busy)
    (covered : ∀ root ∈ requested, ∃ first ∈ more, D.Reaches first root) :
    s.Accrues D fewer more t := by
  induction h with
  | same stock => exact .same stock
  | publish idle reached makes new found =>
      obtain ⟨root, hroot, reaches⟩ := reached
      obtain ⟨first, hfirst, leads⟩ := covered root hroot
      exact .publish (fun busy => idle (within busy)) ⟨first, hfirst, leads.trans reaches⟩ makes new
        found
  | trans _ _ first second => exact first.trans second

theorem append_left (h : s.Accrues D busy requested t) (more : List String) :
    s.Accrues D busy (requested ++ more) t :=
  h.mono (fun _ hb => hb) fun root hroot => ⟨root, List.mem_append_left _ hroot, .refl⟩

theorem append_right (h : s.Accrues D busy requested t) (more : List String) :
    s.Accrues D busy (more ++ requested) t :=
  h.mono (fun _ hb => hb) fun root hroot => ⟨root, List.mem_append_right _ hroot, .refl⟩

theorem frame (h : (s.change .enter).Accrues D busy requested t) :
    s.Accrues D busy requested (t.change .leave) := by
  have entered : s.Accrues D busy requested (s.change .enter) := .same ⟨rfl, rfl, rfl, rfl⟩
  exact (entered.trans h).trans (.same ⟨rfl, rfl, rfl, rfl⟩)

/-! ## What does not change -/

theorem loader (h : s.Accrues D busy requested t) : t.loader = s.loader := by
  induction h with
  | same stock => exact stock.loader
  | publish => rfl
  | trans _ _ first second => exact second.trans first

theorem kept (h : s.Accrues D busy requested t) {name : String} {m : Shared Module}
    (hm : s.registry.module? name = some m) : t.registry.module? name = some m := by
  induction h with
  | same stock => exact (stock.module? name).trans hm
  | @publish s m' _ _ _ new _ =>
      have other : m'.name ≠ name := by
        rintro rfl
        rw [new] at hm
        cases hm
      exact (module?_publish s m' name).trans ((if_neg other).trans hm)
  | trans _ _ first second => exact second (first hm)

theorem isLoaded (h : s.Accrues D busy requested t) {name : String}
    (published : s.registry.isLoaded name = true) : t.registry.isLoaded name = true := by
  obtain ⟨m, hm⟩ := Registry.isLoaded_iff.mp published
  exact Registry.isLoaded_iff.mpr ⟨m, h.kept hm⟩

theorem unpublished_before (h : s.Accrues D busy requested t) {name : String}
    (after : t.registry.isLoaded name = false) : s.registry.isLoaded name = false :=
  Bool.eq_false_iff.mpr fun published => Bool.eq_false_iff.mp after (h.isLoaded published)

theorem finds (h : s.Accrues D busy requested t) {i : Import} : s.Finds i → t.Finds i :=
  fun ⟨m, hm, found⟩ => ⟨m, h.kept hm, found⟩

/-! ## What is new -/

theorem reached (h : s.Accrues D busy requested t) {name : String}
    (published : t.registry.isLoaded name = true) : s.registry.isLoaded name = true ∨
      name ∉ busy ∧ ∃ root ∈ requested, D.Reaches root name := by
  induction h with
  | same stock => exact .inl (stock.isLoaded_eq name ▸ published)
  | @publish s m idle reached _ _ _ =>
      rcases (isLoaded_publish s m name).mp published with before | rfl
      · exact .inl before
      · exact .inr ⟨idle, reached⟩
  | trans _ _ first second =>
      rcases second published with middle | new
      · exact first middle
      · exact .inr new

/-- What is busy is published by nobody else, and depends on what it did. -/
theorem spared (h : s.Accrues D busy requested t) {name : String} (hb : name ∈ busy) :
    t.registry.module? name = s.registry.module? name ∧
      t.registry.graph.successors name = s.registry.graph.successors name := by
  induction h with
  | same stock => exact ⟨stock.module? name, by rw [stock.graph]⟩
  | @publish s m idle _ _ _ _ =>
      have other : m.name ≠ name := fun heq => idle (heq ▸ hb)
      refine ⟨(module?_publish s m name).trans (if_neg other), ?_⟩
      exact (Graph.successors_setDependencies _ m.name m.sources name).trans (if_neg other)
  | trans _ _ first second => exact ⟨second.1.trans first.1, second.2.trans first.2⟩

theorem charted (h : s.Accrues D busy requested t) (charted : s.Charted) : t.Charted := by
  induction h with
  | same stock => exact charted.of_same stock
  | publish _ _ _ _ found => exact charted.publish found
  | trans _ _ first second => exact second (first charted)

theorem layered (h : s.Accrues D busy requested t) (layered : s.Layered D) : t.Layered D := by
  induction h with
  | same stock => exact layered.of_same stock
  | publish _ _ makes new found => exact layered.publish makes new found
  | trans _ _ first second => exact second (first layered)

end Accrues

end Session

/-! ## One request after the other -/

namespace Linking

open Session

theorem finds_of_resolveOne {n : Nat} {i : Import} {s t : Session σ} {symbol : Symbol}
    (h : resolveOne (fetch n) i s = (.ok symbol, t)) : t.Finds i := by
  obtain ⟨m, u, fetched, found, rfl⟩ := found_of_resolveOne h
  have published : u.registry.module? i.module = some m := module?_of_fetch fetched
  exact ⟨m, published, symbol, found⟩

def Accruing (σ : Type) (D : Discipline) (n : Nat) : Prop :=
  ∀ {name : String} {s : Session σ}, (∀ {loader}, s.loader = some loader → loader.Follows D) →
    s.Accrues D s.registry.loading [name] (fetch n name s).2

section Requests

variable {n : Nat} (accruing : Accruing σ D n)

include accruing

theorem resolveOne_accrues (i : Import) {s : Session σ}
    (follows : ∀ {loader}, s.loader = some loader → loader.Follows D) :
    s.Accrues D s.registry.loading [i.module] (resolveOne (fetch n) i s).2 := by
  have fetched : s.Accrues D s.registry.loading [i.module] _ := accruing follows
  unfold resolveOne
  rcases hr : fetch n i.module s with ⟨e | m, t⟩ <;> rw [hr] at fetched
  · exact fetched
  · cases hs : m.value.lookup? i.symbol with
    | none => simpa only [hs] using fetched
    | some symbol =>
        simp only [hs]
        exact fetched.trans (.same ⟨rfl, rfl, rfl, rfl⟩)

/-- Imports that are found stay found. -/
theorem resolveEach_accrues (imports : List Import) {s : Session σ}
    (follows : ∀ {loader}, s.loader = some loader → loader.Follows D) :
    s.Accrues D s.registry.loading (imports.map Import.module)
        (resolveEach (fetch n) imports s).2 ∧
      ∀ {symbols t}, resolveEach (fetch n) imports s = (.ok symbols, t) →
        ∀ i ∈ imports, t.Finds i := by
  induction imports generalizing s with
  | nil => exact ⟨.refl s, fun _ i hi => (List.not_mem_nil hi).elim⟩
  | cons i rest ih =>
      have first := resolveOne_accrues accruing i follows
      have steady := lawful_steady.resolveOne (lawful_steady.fetch n) i s
      rcases hr : resolveOne (fetch n) i s with ⟨e | symbol, t⟩ <;> rw [hr] at first steady
      · simp only [resolveEach, hr]
        exact ⟨first.append_left _, fun answered => by cases answered⟩
      · have loader : t.loader = s.loader := first.loader
        obtain ⟨later, found⟩ := ih (s := t) fun hl => follows (loader ▸ hl)
        have loading : t.registry.loading = s.registry.loading := steady.loading
        rw [loading] at later
        have both := (first.append_left _).trans (later.append_right [i.module])
        rcases he : resolveEach (fetch n) rest t with ⟨e | symbols, u⟩ <;>
          simp only [resolveEach, hr, he] at both ⊢
        · exact ⟨both, fun answered => by cases answered⟩
        · refine ⟨both, fun answered i' hi' => ?_⟩
          obtain ⟨-, rfl⟩ := Prod.mk.inj answered
          rcases List.mem_cons.mp hi' with rfl | hi'
          · rw [he] at later
            exact later.finds (finds_of_resolveOne hr)
          · exact found he i' hi'

theorem resolve_accrues (imports : List Import) {s : Session σ}
    (follows : ∀ {loader}, s.loader = some loader → loader.Follows D) :
    s.Accrues D s.registry.loading (imports.map Import.module) (resolve (fetch n) imports s).2 :=
  (resolveEach_accrues accruing imports (s := s.change .enter) follows).1.frame

theorem load_accrues (name : String) {s : Session σ}
    (follows : ∀ {loader}, s.loader = some loader → loader.Follows D) :
    s.Accrues D s.registry.loading [name] (load (fetch n) name s).2 :=
  Accrues.frame (accruing (s := s.change .enter) follows)

/-- Nothing accrues under the name of the module under construction. -/
theorem resolveFrom_accrues (requester : String) (imports : List Import) {s : Session σ}
    (follows : ∀ {loader}, s.loader = some loader → loader.Follows D) :
    s.Accrues D (s.constructing requester).registry.loading (imports.map Import.module)
        (resolveFrom (fetch n) requester imports s).2 ∧
      ∀ {symbols t}, resolveFrom (fetch n) requester imports s = (.ok symbols, t) →
        ∀ i ∈ imports, t.Finds i := by
  have same : s.SameStock ((s.constructing requester).change .enter) :=
    (sameStock_constructing s requester).trans ⟨rfl, rfl, rfl, rfl⟩
  have loader := same.loader
  obtain ⟨inside, found⟩ := resolveEach_accrues accruing imports
    (s := (s.constructing requester).change .enter) fun hl => follows (loader ▸ hl)
  obtain ⟨ended, after, hr⟩ := exists_resolveFrom_eq (fetch n) requester imports s
  rw [hr]
  refine ⟨(Accrues.same same).trans (inside.trans (.same after)), fun answered i hi => ?_⟩
  obtain ⟨answer, rfl⟩ := Prod.mk.inj answered
  exact after.finds_iff.mpr (found (Prod.ext answer rfl) i hi)

/-- A build publishes its own module after its imports, or nothing of its own. -/
theorem build_accrues {b : Builder} {body : Body σ} (allows : D.Allows b body) {s : Session σ}
    (follows : ∀ {loader}, s.loader = some loader → loader.Follows D)
    (new : s.registry.module? b.name = none) {busy : List String} (idle : b.name ∉ busy)
    (within : busy ⊆ (s.constructing b.name).registry.loading) :
    s.Accrues D busy [b.name] (build (fetch n) b body s).2 ∧
      ∀ {e t}, build (fetch n) b body s = (.error e, t) → t.registry.module? b.name = none := by
  obtain ⟨resolved, found⟩ := resolveFrom_accrues accruing b.name b.imports follows
  have still := (resolved.spared (mem_loading_constructing s b.name)).1.trans new
  have needed : s.Accrues D busy [b.name] (resolveFrom (fetch n) b.name b.imports s).2 := by
    refine resolved.mono within fun root hroot => ?_
    obtain ⟨i, hi, rfl⟩ := List.mem_map.mp hroot
    exact ⟨b.name, .head _, .single (allows.needs i hi)⟩
  rcases build_cases (fetch n) b body s with
    ⟨e, t, hr, hb⟩ | ⟨symbols, t, hr, ⟨e, desk, -, hb⟩ | ⟨exports, desk, made, hb⟩⟩ <;>
    rw [hr] at needed still <;> rw [hb]
  · refine ⟨needed, fun answered => ?_⟩
    obtain ⟨-, rfl⟩ := Prod.mk.inj answered
    exact still
  · refine ⟨needed.trans (.same ⟨rfl, rfl, rfl, rfl⟩), fun answered => ?_⟩
    obtain ⟨-, rfl⟩ := Prod.mk.inj answered
    exact still
  · refine ⟨?_, fun answered => nomatch (Prod.mk.inj answered).1⟩
    have worked : t.SameStock (t.withDesk desk) := ⟨rfl, rfl, rfl, rfl⟩
    refine (needed.trans (.same worked)).trans (.publish idle ⟨b.name, .head _, .refl⟩ ?_ ?_ ?_)
    · exact allows.makes (congrArg Prod.fst made)
    · exact still
    · exact fun i hi => worked.finds_iff.mpr (found hr i hi)

theorem attempt_accrues {name : String} {s : Session σ}
    (follows : ∀ {loader}, s.loader = some loader → loader.Follows D) (vacant : s.Vacant name) :
    s.Accrues D s.registry.loading [name] (attempt (fetch n) name s).2 := by
  cases hl : s.loader with
  | none =>
      simp only [attempt, callAnyLoader, hl]
      exact .same ⟨rfl, rfl, rfl, rfl⟩
  | some loader =>
      obtain ⟨begun, registry, loader', outcome⟩ :=
        run_of_builds (follows hl name) (fetch n) (s.opened name)
      have same : s.SameStock begun := by
        refine ⟨loader', ?_, ?_, ?_⟩ <;> rw [registry] <;> rfl
      have new : begun.registry.module? name = none := (same.module? name).trans vacant.unpublished
      have stacked : s.registry.loading ⊆ begun.registry.loading := by
        rw [registry]
        exact List.subset_append_left _ _
      rcases outcome with ⟨e, hr⟩ | ⟨imports, body, allows, hr⟩
      · rw [attempt_of_error hl hr]
        exact .same (same.trans (sameStock_withdrawn e new))
      · obtain ⟨built, unpublished⟩ := build_accrues accruing allows
          (fun hl => follows (same.loader ▸ hl)) new vacant.offStack
          (List.Subset.trans stacked (loading_subset_constructing begun name))
        rcases hb : build (fetch n) ⟨name, imports⟩ body begun with ⟨e | m, t⟩ <;>
          rw [hb] at hr built
        · rw [attempt_of_error hl hr]
          have withdrawn := sameStock_withdrawn e (unpublished hb)
          exact (Accrues.same same).trans (built.trans (.same withdrawn))
        · rw [attempt_of_ok hl hr (module?_of_build hb)]
          exact (Accrues.same same).trans (built.trans (.same ⟨rfl, rfl, rfl, rfl⟩))

end Requests

/-- What is fetched with an allowance accrues. -/
theorem fetch_accrues (allowance : Nat) : Accruing σ D allowance := by
  induction allowance with
  | zero =>
      intro name s _
      by_cases vacant : s.Vacant name
      · rw [fetch, fetchBy_of_vacant _ vacant]
        exact .refl s
      · rw [fetch, fetchBy_of_not_vacant _ vacant]
        exact .refl s
  | succ allowance ih =>
      intro name s follows
      by_cases vacant : s.Vacant name
      · rw [fetch, fetchBy_of_vacant _ vacant]
        exact attempt_accrues ih follows vacant
      · rw [fetch, fetchBy_of_not_vacant _ vacant]
        exact .refl s

end Linking

end MibLinker
