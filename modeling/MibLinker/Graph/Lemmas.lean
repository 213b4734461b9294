import MibLinker.Graph

/-!
# What each operation does to the dependency lists

One equation for each operation that changes a graph, read through `dependencies`.
-/

namespace MibLinker.Graph

/-- Graphs with the same entries are equal. -/
theorem ext_dependencies {g g' : Graph}
    (same : ∀ name, g.dependencies name = g'.dependencies name) : g = g' :=
  congrArg Graph.mk (Std.ExtTreeMap.ext_getElem? same)

@[simp] theorem dependencies_empty (name : String) : empty.dependencies name = none := by
  simp [dependencies, empty]

theorem dependencies_addModule (g : Graph) (module name : String) :
    (g.addModule module).dependencies name =
      if module = name then some (g.successors name) else g.dependencies name := by
  simp only [dependencies, successors, addModule, Std.ExtTreeMap.getElem?_insertIfNew,
    Std.compare_eq_iff_eq]
  by_cases h : module = name
  · subst h
    by_cases hm : module ∈ g.edges
    · simp [hm]
    · simp [hm]
  · simp [h]

theorem successors_addModule (g : Graph) (module name : String) :
    (g.addModule module).successors name = g.successors name := by
  rw [successors, dependencies_addModule]
  split
  · rfl
  · rfl

theorem dependencies_addDependency (g : Graph) (module dependency name : String) :
    (g.addDependency module dependency).dependencies name =
      if module = name then some (withName (g.successors module) dependency)
      else (g.addModule dependency).dependencies name := by
  simp only [addDependency, dependencies, Std.ExtTreeMap.getElem?_insert, Std.compare_eq_iff_eq,
    successors_addModule]

theorem successors_addDependency (g : Graph) (module dependency name : String) :
    (g.addDependency module dependency).successors name =
      if module = name then withName (g.successors module) dependency else g.successors name := by
  rw [successors, dependencies_addDependency]
  split
  · rfl
  · exact successors_addModule g dependency name

theorem dependencies_foldl_addModule (g : Graph) (names : List String) (name : String) :
    (names.foldl addModule g).dependencies name =
      if name ∈ names then some (g.successors name) else g.dependencies name := by
  induction names generalizing g with
  | nil => simp
  | cons first rest ih =>
      rw [List.foldl_cons, ih, successors_addModule, dependencies_addModule]
      by_cases h : name ∈ rest
      · simp [h]
      · simp [h, eq_comm]

theorem dependencies_setDependencies (g : Graph) (module : String) (names : List String)
    (name : String) :
    (g.setDependencies module names).dependencies name =
      if module = name then some names.eraseDups
      else if name ∈ names then some (g.successors name) else g.dependencies name := by
  rw [← dependencies_foldl_addModule]
  simp only [setDependencies, dependencies, Std.ExtTreeMap.getElem?_insert, Std.compare_eq_iff_eq]

theorem successors_setDependencies (g : Graph) (module : String) (names : List String)
    (name : String) :
    (g.setDependencies module names).successors name =
      if module = name then names.eraseDups else g.successors name := by
  rw [successors, dependencies_setDependencies]
  split
  · rfl
  · split <;> rfl

theorem dependencies_removeModule (g : Graph) (module name : String) :
    (g.removeModule module).dependencies name =
      if module = name then none else g.dependencies name := by
  simp only [removeModule, dependencies, Std.ExtTreeMap.getElem?_erase, Std.compare_eq_iff_eq]

theorem successors_removeModule (g : Graph) (module name : String) :
    (g.removeModule module).successors name = if module = name then [] else g.successors name := by
  rw [successors, dependencies_removeModule]
  split <;> rfl

end MibLinker.Graph
