import MibLinker.Proofs.Blueprint.Basic
import MibLinker.Proofs.Building.Growth

/-!
# Plans

A plan is a definition that has fixed imports and a body that never fails, though it need not make
the same exports every time. A table of plans is a loader. Whatever its bodies make, its imports
tell which modules a request leads to.
-/

namespace MibLinker

variable {σ : Type}

structure Plan (σ : Type) where
  imports : List Import
  body : ResolvedImports → StateM (Desk σ) ExportTable

namespace Plan

variable (p : Plan σ) (name : String) (symbols : List Symbol) (found : Session σ)

def script : Script σ := .ofBuilder ⟨name, p.imports⟩ fun imported => .ofTask (p.body imported)

def made : ExportTable × Desk σ :=
  p.body (Builder.resolved ⟨name, p.imports⟩ symbols) found.desk

def built : Session σ :=
  let made := p.made name symbols found
  (((found.change .leave).withDesk made.2).publish ⟨name, p.imports, made.1⟩).2

def finished : Session σ := (p.built name symbols found).closed.log (.loaded name)

theorem module?_built :
    (p.built name symbols found).registry.module? name =
      some ⟨found.registry.publications, ⟨name, p.imports, (p.made name symbols found).1⟩⟩ :=
  (Session.module?_publish _ _ name).trans (if_pos rfl)

theorem freshFailure?_finished (other : String) :
    (p.finished name symbols found).registry.freshFailure? other =
      if name = other then none else found.registry.freshFailure? other :=
  found.registry.leave.freshFailure?_publish ⟨name, p.imports, (p.made name symbols found).1⟩ other

end Plan

abbrev Plans (σ : Type) := NameMap (Plan σ)

namespace Plans

variable {P : Plans σ}

def catalog (P : Plans σ) : Catalog σ := ⟨P.map fun name p => p.script name⟩

def loader (P : Plans σ) : Loader σ := P.catalog.loader

theorem definition_of_some {name : String} {p : Plan σ} (h : P[name]? = some p) :
    P.loader.definition name = p.script name := by
  simp only [loader, Catalog.loader, catalog, Std.ExtTreeMap.getElem?_map, h, Option.map_some,
    Option.getD_some]

theorem definition_of_none {name : String} (h : P[name]? = none) :
    P.loader.definition name = .fail (.moduleNotFound name) := by
  simp only [loader, Catalog.loader, catalog, Std.ExtTreeMap.getElem?_map, h, Option.map_none,
    Option.getD_none]

/-! ## The graph of the imports -/

def Needs (P : Plans σ) (name needed : String) : Prop :=
  ∃ p, P[name]? = some p ∧ ∃ i ∈ p.imports, i.module = needed

abbrev Reaches (P : Plans σ) : String → String → Prop := Relation.ReflTransGen P.Needs

theorem needs_of_import {name : String} {p : Plan σ} (hp : P[name]? = some p) {i : Import}
    (hi : i ∈ p.imports) : P.Needs name i.module := ⟨p, hp, i, hi, rfl⟩

def discipline (P : Plans σ) : Discipline where
  Needs := P.Needs
  Makes name m := ∃ p, P[name]? = some p ∧ m.imports = p.imports

theorem exact_discipline (P : Plans σ) : P.discipline.Exact := by
  intro name m needed ⟨p, hp, imports⟩ ⟨p', hp', i, hi, hn⟩
  obtain rfl := Option.some.inj (hp.symm.trans hp')
  rw [Module.sources, imports]
  exact List.mem_map.mpr ⟨i, hi, hn⟩

theorem follows_loader (P : Plans σ) : P.loader.Follows P.discipline := by
  intro name
  cases hp : P[name]? with
  | none =>
      rw [definition_of_none hp]
      exact .refuse _
  | some p =>
      rw [definition_of_some hp]
      apply Script.Builds.build
      constructor
      case needs => exact fun i hi => needs_of_import hp hi
      case makes => exact fun _ => ⟨p, hp, rfl⟩

end Plans

/-! ## One attempt -/

namespace Linking

open Plans

variable {P : Plans σ} {fetch : Fetch σ} {s t : Session σ} {name : String}

/-- The plan of a name on the load stack is carried out without pushing the name again. -/
theorem run_plan (fetch : Fetch σ) (p : Plan σ) (stacked : name ∈ s.registry.loading) :
    run fetch (p.script name) s =
      match resolveEach fetch p.imports (s.change .enter) with
      | (.error e, t) => (.error e, t.change .leave)
      | (.ok symbols, t) => (.ok (), p.built name symbols t) := by
  simp only [Plan.script, Script.ofBuilder, run_build, build, resolveFrom, if_pos stacked, resolve,
    inFrame]
  rcases resolveEach fetch p.imports (s.change .enter) with ⟨e | symbols, t⟩ <;> rfl

theorem attempt_of_unplanned (fetch : Fetch σ) (loader : s.loader = some P.loader)
    (hp : P[name]? = none) :
    attempt fetch name s = (.error (.moduleNotFound name),
      ((s.opened name).closed.discard name).recordFailure name (.moduleNotFound name)) := by
  refine attempt_of_error loader ?_
  rw [definition_of_none hp]
  rfl

/-- An attempt fails with the first import that is not found, and else publishes what the body
makes. -/
theorem attempt_of_plan (fetch : Fetch σ) {p : Plan σ} (loader : s.loader = some P.loader)
    (hp : P[name]? = some p) :
    attempt fetch name s =
      match resolveEach fetch p.imports ((s.opened name).change .enter) with
      | (.error e, t) => (.error e, ((t.change .leave).closed.discard name).recordFailure name e)
      | (.ok symbols, t) =>
          (.ok ⟨t.registry.publications, ⟨name, p.imports, (p.made name symbols t).1⟩⟩,
            p.finished name symbols t) := by
  have hr := run_plan fetch p (s.mem_loading_opened name)
  rw [← definition_of_some hp] at hr
  rcases he : resolveEach fetch p.imports ((s.opened name).change .enter) with
    ⟨e | symbols, t⟩ <;> simp only [he] at hr
  · exact attempt_of_error loader hr
  · exact attempt_of_ok loader hr (p.module?_built name symbols t)

theorem finished_of_planned {m : Shared Module} (loader : s.loader = some P.loader)
    (h : attempt fetch name s = (.ok m, t)) :
    ∃ p symbols u, P[name]? = some p ∧ t = p.finished name symbols u ∧
      resolveEach fetch p.imports ((s.opened name).change .enter) = (.ok symbols, u) := by
  cases hp : P[name]? with
  | none =>
      rw [attempt_of_unplanned fetch loader hp] at h
      cases (Prod.mk.inj h).1
  | some p =>
      rw [attempt_of_plan fetch loader hp] at h
      rcases he : resolveEach fetch p.imports ((s.opened name).change .enter) with
        ⟨e | symbols, u⟩ <;> simp only [he] at h
      · cases (Prod.mk.inj h).1
      · exact ⟨p, symbols, u, rfl, (Prod.mk.inj h).2.symm, he⟩

/-- An attempt fails for a name without a plan, or else as the imports of its plan do. -/
theorem unfinished_of_planned {e : LinkError} (loader : s.loader = some P.loader)
    (h : attempt fetch name s = (.error e, t)) :
    (P[name]? = none ∧ e = .moduleNotFound name ∧
      t = ((s.opened name).closed.discard name).recordFailure name e) ∨
    ∃ p u, P[name]? = some p ∧
      resolveEach fetch p.imports ((s.opened name).change .enter) = (.error e, u) ∧
      t = ((u.change .leave).closed.discard name).recordFailure name e := by
  cases hp : P[name]? with
  | none =>
      rw [attempt_of_unplanned fetch loader hp] at h
      obtain ⟨answer, rfl⟩ := Prod.mk.inj h
      obtain rfl := Except.error.inj answer
      exact .inl ⟨rfl, rfl, rfl⟩
  | some p =>
      rw [attempt_of_plan fetch loader hp] at h
      rcases he : resolveEach fetch p.imports ((s.opened name).change .enter) with
        ⟨e' | symbols, u⟩ <;> simp only [he] at h
      · obtain ⟨answer, rfl⟩ := Prod.mk.inj h
        obtain rfl := Except.error.inj answer
        exact .inr ⟨p, u, rfl, he, rfl⟩
      · cases (Prod.mk.inj h).1

end Linking

end MibLinker
