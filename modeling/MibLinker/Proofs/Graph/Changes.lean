import MibLinker.Proofs.Graph.Exploration
import MibLinker.Proofs.Tables

/-!
# Graphs in the making

A graph is made by adding modules and dependencies, by replacing dependency lists and by removing
modules, in any order. No list ever has a name twice, so each module waits for as many others as its
list is long. Names that only lists of others hold, because their own entries are gone, are sorted
like the rest. Replacing a list closes a cycle just where a path leads back from the new list.
-/

namespace MibLinker.Graph

inductive Change where
  | addModule (module : String)
  | addDependency (module dependency : String)
  | setDependencies (module : String) (dependencies : List String)
  | removeModule (module : String)

def apply (g : Graph) : Change → Graph
  | .addModule module => g.addModule module
  | .addDependency module dependency => g.addDependency module dependency
  | .setDependencies module dependencies => g.setDependencies module dependencies
  | .removeModule module => g.removeModule module

def ofChanges (changes : List Change) : Graph := changes.foldl apply empty

/-! ## Lists without repetitions -/

variable {g : Graph} {module name : String}

theorem nodup_withName {names : List String} (h : names.Nodup) (name : String) :
    (withName names name).Nodup := by
  unfold withName
  split
  · exact h
  · next absent => exact List.concat_eq_append ▸ h.concat absent

theorem simple_empty : empty.Simple := by
  intro name
  rw [successors, dependencies_empty]
  exact List.nodup_nil

/-- Every change leaves the lists without repetitions. -/
theorem Simple.apply (h : g.Simple) (change : Change) : (g.apply change).Simple := by
  intro name
  cases change with
  | addModule module =>
      have same : (g.addModule module).successors name = g.successors name :=
        successors_addModule g module name
      exact same ▸ h name
  | addDependency module dependency =>
      rw [Graph.apply, successors_addDependency]
      split
      · exact nodup_withName (h module) dependency
      · exact h name
  | setDependencies module dependencies =>
      rw [Graph.apply, successors_setDependencies]
      split
      · exact (firstOccurrences_eraseDups dependencies).nodup
      · exact h name
  | removeModule module =>
      rw [Graph.apply, successors_removeModule]
      split
      · exact List.nodup_nil
      · exact h name

theorem simple_ofChanges (changes : List Change) : (ofChanges changes).Simple := by
  have kept : ∀ g : Graph, g.Simple → (changes.foldl Graph.apply g).Simple := by
    induction changes with
    | nil => exact fun _ h => h
    | cons change rest ih => exact fun g h => ih (g.apply change) (h.apply change)
  exact kept empty simple_empty

/-! ## When one list is replaced -/

section Paths

open Relation

variable {α : Type} {r r' : α → α → Prop} {pivot x y : α}

/-- The way to a vertex does not depend on where it leads on from there. -/
theorem reflTransGen_of_agree (agree : ∀ {x y}, x ≠ pivot → r x y → r' x y)
    (h : ReflTransGen r x pivot) : ReflTransGen r' x pivot := by
  induction h using ReflTransGen.head_induction_on with
  | refl => exact .refl
  | @head x y step _ ih =>
      by_cases hx : x = pivot
      · exact hx ▸ .refl
      · exact ih.head (agree hx step)

/-- A path goes by a vertex, or does not depend on where that one leads. -/
theorem transGen_or_of_agree (agree : ∀ {x y}, x ≠ pivot → (r' x y ↔ r x y))
    (h : TransGen r' x y) : TransGen r x y ∨ ReflTransGen r' x pivot ∧ TransGen r' pivot y := by
  induction h with
  | @single y step =>
      by_cases hx : x = pivot
      · exact .inr ⟨hx ▸ .refl, .single (hx ▸ step)⟩
      · exact .inl (.single ((agree hx).mp step))
  | @tail y z way step ih =>
      rcases ih with before | ⟨arrives, onward⟩
      · by_cases hy : y = pivot
        · exact .inr ⟨hy ▸ way.to_reflTransGen, .single (hy ▸ step)⟩
        · exact .inl (before.tail ((agree hy).mp step))
      · exact .inr ⟨arrives, onward.tail step⟩

end Paths

theorem dependsOn_setDependencies {names : List String} {x y : String} :
    (g.setDependencies module names).DependsOn x y ↔
      if module = x then y ∈ names else g.DependsOn x y := by
  rw [DependsOn, successors_setDependencies]
  split
  · exact List.mem_eraseDups
  · rfl

/-- A new dependency list closes a cycle just if one of its names led back to the module before. -/
theorem acyclic_setDependencies_iff {names : List String} (acyclic : g.Acyclic) :
    (g.setDependencies module names).Acyclic ↔
      ∀ dependency ∈ names, ¬ Relation.ReflTransGen g.DependsOn dependency module := by
  have agree : ∀ {x y}, x ≠ module →
      ((g.setDependencies module names).DependsOn x y ↔ g.DependsOn x y) := fun hx => by
    rw [dependsOn_setDependencies, if_neg (Ne.symm hx)]
  have leads : ∀ {y}, (g.setDependencies module names).DependsOn module y ↔ y ∈ names := by
    intro y
    rw [dependsOn_setDependencies, if_pos rfl]
  constructor
  · intro still dependency hd back
    have way := reflTransGen_of_agree (fun hx => (agree hx).mpr) back
    exact still module (.head' (leads.mpr hd) way)
  · intro apart name cycle
    rcases transGen_or_of_agree agree cycle with old | ⟨arrives, onward⟩
    · exact acyclic name old
    · obtain ⟨dependency, first, rest⟩ := Relation.TransGen.head'_iff.mp (onward.trans_left arrives)
      have back := reflTransGen_of_agree (fun hx => (agree hx).mp) rest
      exact apart dependency (leads.mp first) back

/-- The list of a module closes no cycle when nothing depends on the module, and it is not in the
list itself. -/
theorem acyclic_setDependencies {names : List String} (acyclic : g.Acyclic)
    (alone : ∀ importer, ¬ g.DependsOn importer module) (other : module ∉ names) :
    (g.setDependencies module names).Acyclic := by
  refine (acyclic_setDependencies_iff acyclic).mpr fun dependency hd back => ?_
  rcases Relation.ReflTransGen.cases_tail back with same | ⟨importer, _, last⟩
  · exact other (same ▸ hd)
  · exact alone importer last

/-! ## Cycles and orders -/

theorem mem_names_iff :
    name ∈ g.names ↔ name ∈ g.modules ∨ ∃ module, g.DependsOn module name := by
  rw [mem_names, mem_modules]
  constructor
  · rintro ⟨module, deps, hd, rfl | listed⟩
    · exact .inl ⟨deps, hd⟩
    · exact .inr ⟨module, dependsOn_iff.mpr ⟨deps, hd, listed⟩⟩
  · rintro (⟨deps, hd⟩ | ⟨module, dep⟩)
    · exact ⟨name, deps, hd, .inl rfl⟩
    · obtain ⟨deps, hd, listed⟩ := dependsOn_iff.mp dep
      exact ⟨module, deps, hd, .inr listed⟩

/-- The search finds a cycle just if there is one, and what it finds is one: a path along the
dependency lists that ends where it starts, and comes by nothing else twice. -/
theorem detectCycle_exact (g : Graph) :
    (g.detectCycle = none ↔ ¬ ∃ name, Relation.TransGen g.DependsOn name name) ∧
      ∀ path, g.detectCycle = some path → Circuit g.DependsOn path := by
  refine ⟨?_, fun path found => circuit_of_detectCycle found⟩
  rw [detectCycle_eq_none_iff, Acyclic, not_exists]

/-- However a graph has been made, its modules are refused an order just if some of them depend on
each other in a circle. Otherwise the order has each name once that has an entry or that a list
holds, and no others, and each of them after all that it depends on. -/
theorem dependencyOrder_exact (changes : List Change) :
    let g := ofChanges changes
    ((∃ path, g.dependencyOrder = .error (.circularDependency path)) ↔
        ∃ name, Relation.TransGen g.DependsOn name name) ∧
      ((¬ ∃ name, Relation.TransGen g.DependsOn name name) →
        ∃ order, g.dependencyOrder = .ok order ∧ order.Nodup ∧
          (∀ name, name ∈ order ↔ name ∈ g.modules ∨ ∃ module, g.DependsOn module name) ∧
          ∀ module dependency, g.DependsOn module dependency →
            order.idxOf dependency < order.idxOf module) := by
  intro g
  constructor
  · rw [← not_iff_not, not_exists, not_exists]
    have ordered : (∀ path, g.dependencyOrder ≠ .error (.circularDependency path)) ↔
        g.detectCycle = none := by
      rw [dependencyOrder]
      cases g.detectCycle <;> simp
    exact ordered.trans detectCycle_eq_none_iff
  · intro acyclic
    obtain ⟨order, ho, orders⟩ :=
      exists_dependencyOrder (simple_ofChanges changes) (not_exists.mp acyclic)
    refine ⟨order, ho, orders.nodup, fun name => ?_, fun module dependency => orders.idxOf_lt⟩
    rw [orders.mem_iff, mem_names_iff]

/-- The entry of a module is removed that others still depend on. -/
example : (ofChanges [.addDependency "A" "B", .setDependencies "B" ["D", "C", "D"],
    .removeModule "C", .addModule "E"]).dependencyOrder = .ok ["C", "D", "E", "B", "A"] := by
  decide

end MibLinker.Graph
