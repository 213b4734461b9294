import MibLinker.Proofs.Graph.Exploration
import MibLinker.Proofs.Steadiness
import MibLinker.Proofs.Tables

/-!
# The names of a load order

A load order is made from the dependency graph, and the graph knows more names than those of the
published modules: a publication gives an entry to each module that it imports from, whether that is
published or not, and a module that is withdrawn leaves its name with those that import from it. A
load order has the published modules and these stray names, each once.
-/

namespace MibLinker

variable {σ : Type}

namespace Registry

/-- Whether the graph knows a name that is not published: by an entry without dependencies, or as a
module that a published one imports from. -/
def Stray (r : Registry) (name : String) : Prop :=
  r.isLoaded name = false ∧
    (r.graph.dependencies name = some [] ∨
      ∃ importer m i, r.module? importer = some m ∧ i ∈ m.value.imports ∧ i.module = name)

namespace Coherent

variable {r : Registry} (h : r.Coherent) {name : String}

include h

theorem successors_of_published {m : Shared Module} (hm : r.module? name = some m) :
    FirstOccurrences (m.value.imports.map Import.module) (r.graph.successors name) := by
  obtain ⟨dependencies, hd, first⟩ := h.dependencies_of_published hm
  rw [Graph.successors, hd]
  exact first

theorem successors_of_unpublished (unpublished : r.isLoaded name = false) :
    r.graph.successors name = [] := by
  cases hd : r.graph.dependencies name with
  | none => rw [Graph.successors, hd, Option.getD_none]
  | some dependencies =>
      rw [Graph.successors, hd, h.dependencies_of_unpublished unpublished hd, Option.getD_some]

theorem simple : r.graph.Simple := by
  intro name
  cases hm : r.module? name with
  | none =>
      rw [h.successors_of_unpublished (isLoaded_eq_false_iff.mpr hm)]
      exact List.nodup_nil
  | some m => exact (h.successors_of_published hm).nodup

/-- Edges lead from published modules to those that they import from. -/
theorem dependsOn_iff {importer : String} : r.graph.DependsOn importer name ↔
    ∃ m i, r.module? importer = some m ∧ i ∈ m.value.imports ∧ i.module = name := by
  cases hm : r.module? importer with
  | none =>
      have none := h.successors_of_unpublished (isLoaded_eq_false_iff.mpr hm)
      simp [Graph.DependsOn, none]
  | some m =>
      have listed := (h.successors_of_published hm).mem_iff name
      simp [Graph.DependsOn, listed]

/-- The graph knows the published modules and the stray names. -/
theorem mem_names_iff :
    name ∈ r.graph.names ↔ r.isLoaded name = true ∨ r.Stray name := by
  cases hl : r.isLoaded name with
  | true =>
      obtain ⟨m, hm⟩ := isLoaded_iff.mp hl
      obtain ⟨dependencies, hd, -⟩ := h.dependencies_of_published hm
      simp [Graph.mem_names_of_dependencies hd]
  | false =>
      simp only [Bool.false_eq_true, false_or, Stray, hl, true_and]
      constructor
      · intro known
        obtain ⟨module, dependencies, hd, rfl | listed⟩ := Graph.mem_names.mp known
        · exact .inl (h.dependencies_of_unpublished hl hd ▸ hd)
        · have dep := Graph.dependsOn_iff.mpr ⟨dependencies, hd, listed⟩
          exact .inr ⟨module, h.dependsOn_iff.mp dep⟩
      · rintro (hd | ⟨importer, imported⟩)
        · exact Graph.mem_names_of_dependencies hd
        · exact (h.dependsOn_iff.mpr imported).mem_names.2

end Coherent

end Registry

/-- Whatever has been done to a registry, a load order has each published module once, and besides
them the stray names, once each, and no others. So it has the published modules only, as long as the
graph knows none but these. -/
theorem loadOrder_covers {s : Session σ} (seen : Observable s) {order : List String}
    (ho : s.registry.loadOrder = .ok order) :
    order.Nodup ∧
      (∀ name, name ∈ order ↔ s.registry.isLoaded name = true ∨ s.registry.Stray name) ∧
      (order.Perm s.registry.moduleNames ↔ ∀ name, ¬ s.registry.Stray name) := by
  have coherent := coherent_of_observable seen
  have orders := Graph.orders_of_dependencyOrder coherent.simple ho
  have covered : ∀ name, name ∈ order ↔
      s.registry.isLoaded name = true ∨ s.registry.Stray name := by
    intro name
    rw [orders.mem_iff, coherent.mem_names_iff]
  have published : ∀ name, name ∈ s.registry.moduleNames ↔ s.registry.isLoaded name = true := by
    intro name
    rw [Registry.moduleNames, Std.ExtTreeMap.mem_keys, Registry.isLoaded,
      Std.ExtTreeMap.contains_iff_mem]
  have distinct : s.registry.moduleNames.Nodup := Std.ExtTreeMap.nodup_keys
  refine ⟨orders.nodup, covered, ?_⟩
  rw [List.perm_ext_iff_of_nodup orders.nodup distinct]
  constructor
  · intro same name stray
    have loaded := (published name).mp ((same name).mp ((covered name).mpr (.inr stray)))
    rw [stray.1] at loaded
    cases loaded
  · intro none name
    exact (covered name).trans (or_iff_left (none name)) |>.trans (published name).symm

def Session.importing : Session Unit :=
  (start {} none ()).afterAll [.publish ⟨"A", [⟨"Z", "x"⟩], ∅⟩]

theorem Session.loadOrder_importing : importing.registry.loadOrder = .ok ["Z", "A"] := by
  rfl

theorem loadOrder_names_unpublished :
    ¬ ∀ (s : Session Unit) (order : List String), Observable s →
      s.registry.loadOrder = .ok order → order.Perm s.registry.moduleNames := by
  intro only
  have seen : Observable Session.importing := observable_afterAll {} none () _
  have perm := only _ _ seen Session.loadOrder_importing
  have names : Session.importing.registry.moduleNames = ["A"] := by decide
  rw [names] at perm
  exact absurd perm.length_eq (by decide)

theorem loadOrder_covers_importing :
    Session.importing.registry.loadOrder = .ok ["Z", "A"] ∧
      Session.importing.registry.isLoaded "A" = true ∧ Session.importing.registry.Stray "Z" := by
  have seen : Observable Session.importing := observable_afterAll {} none () _
  have covered := (loadOrder_covers seen Session.loadOrder_importing).2.1
  have unpublished : Session.importing.registry.isLoaded "Z" = false := by decide
  refine ⟨Session.loadOrder_importing, by decide, ?_⟩
  exact ((covered "Z").mp (by decide)).resolve_left (by simp [unpublished])

end MibLinker
