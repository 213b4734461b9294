import Mathlib.Data.List.Sort
import MibLinker.Proofs.Graph.Changes

/-!
# Edges in another order

The dependency lists of a graph keep the order in which they were made. A sort does not see it: it
counts the names of each list, and goes through the dependents of a name in increasing order. So two
graphs that differ in that order alone are sorted in lock-step. They have one order, or a cycle each.
-/

namespace MibLinker.Graph

/-- Whether two graphs have the same modules, and each module the same dependencies in some order. -/
structure Alike (g h : Graph) : Prop where
  modules : g.modules = h.modules
  perm : ∀ name, (g.successors name).Perm (h.successors name)

/-- Whether two sorts come to the same order, or both to a cycle. -/
def SameOrder : Except LinkError (List String) → Except LinkError (List String) → Prop
  | .ok order, .ok order' => order = order'
  | .error (.circularDependency _), .error (.circularDependency _) => True
  | _, _ => False

/-! ## What a sort sees -/

/-- A list in increasing order is told by its members. -/
theorem eq_of_increasing {names names' : List String}
    (increasing : names.Pairwise fun a b => compare a b = .lt)
    (increasing' : names'.Pairwise fun a b => compare a b = .lt)
    (same : ∀ name, name ∈ names ↔ name ∈ names') : names = names' := by
  have : Std.Irrefl fun a b : String => compare a b = .lt := ⟨fun a => by simp⟩
  have : Std.Antisymm fun a b : String => compare a b = .lt := by
    refine ⟨fun a b before after => ?_⟩
    have swapped : compare a b = (compare b a).swap := Std.OrientedCmp.eq_swap
    rw [swapped, after] at before
    cases before
  exact increasing.eq_of_mem_iff increasing' same

theorem increasing_names (g : Graph) : g.names.Pairwise fun a b => compare a b = .lt :=
  Std.ExtTreeSet.ordered_toList

theorem increasing_modules (g : Graph) : g.modules.Pairwise fun a b => compare a b = .lt :=
  Std.ExtTreeMap.ordered_keys

theorem increasing_dependents (g : Graph) (name : String) :
    (g.dependents name).Pairwise fun a b => compare a b = .lt := by
  rw [dependents, List.pairwise_map]
  exact Std.ExtTreeMap.ordered_keys_toList.filter _

namespace Alike

variable {g h : Graph} (alike : g.Alike h) {name : String}

include alike

theorem dependsOn_iff {dependency : String} :
    g.DependsOn name dependency ↔ h.DependsOn name dependency := (alike.perm name).mem_iff

theorem names_eq : g.names = h.names := by
  apply eq_of_increasing g.increasing_names h.increasing_names
  intro name
  rw [mem_names_iff, mem_names_iff, alike.modules]
  simp only [alike.dependsOn_iff]

theorem dependents_eq (name : String) : g.dependents name = h.dependents name := by
  apply eq_of_increasing (g.increasing_dependents name) (h.increasing_dependents name)
  intro module
  rw [mem_dependents, mem_dependents, alike.dependsOn_iff]

theorem waitingAtStart_eq : g.waitingAtStart = h.waitingAtStart := by
  apply Std.ExtTreeMap.ext_getElem?
  intro name
  by_cases known : name ∈ g.names
  · have known' : name ∈ h.names := alike.names_eq ▸ known
    rw [getElem?_waitingAtStart known, getElem?_waitingAtStart known',
      (alike.perm name).length_eq]
  · have unknown : name ∉ h.names := alike.names_eq ▸ known
    rw [Std.ExtTreeMap.getElem?_eq_none fun hn => known (mem_waitingAtStart.mp hn),
      Std.ExtTreeMap.getElem?_eq_none fun hn => unknown (mem_waitingAtStart.mp hn)]

/-! ## In lock-step -/

theorem sortingAtStart_eq : g.sortingAtStart = h.sortingAtStart := by
  rw [sortingAtStart, sortingAtStart, alike.waitingAtStart_eq]

theorem place_eq (s : Sorting) (rest : List String) : s.place g name rest = s.place h name rest := by
  rw [Sorting.place, Sorting.place, alike.dependents_eq]

theorem run_eq (turns : Nat) (s : Sorting) : Sorting.run g turns s = Sorting.run h turns s := by
  induction turns generalizing s with
  | zero => rfl
  | succ turns ih =>
      cases hq : s.queue with
      | nil => simp only [Sorting.run, hq]
      | cons name rest => simp only [Sorting.run, hq, alike.place_eq, ih]

theorem acyclic_iff : g.Acyclic ↔ h.Acyclic := by
  have same : g.DependsOn = h.DependsOn := by
    funext module dependency
    exact propext alike.dependsOn_iff
  rw [Acyclic, Acyclic, same]

/-- Graphs that are alike have one order, or a cycle each. -/
theorem sameOrder : SameOrder g.dependencyOrder h.dependencyOrder := by
  cases hg : g.detectCycle with
  | none =>
      have hh : h.detectCycle = none :=
        detectCycle_eq_none_iff.mpr (alike.acyclic_iff.mp (detectCycle_eq_none_iff.mp hg))
      simp only [dependencyOrder, hg, hh, SameOrder, alike.names_eq, alike.sortingAtStart_eq,
        alike.run_eq]
  | some cycle =>
      cases hh : h.detectCycle with
      | none =>
          have none := detectCycle_eq_none (alike.acyclic_iff.mpr (detectCycle_eq_none_iff.mp hh))
          rw [hg] at none
          cases none
      | some cycle' => simp only [dependencyOrder, hg, hh, SameOrder]

end Alike

/-! ## Additions in another order -/

namespace Change

def adds : Change → Bool
  | addModule _ => true
  | addDependency _ _ => true
  | setDependencies _ _ => false
  | removeModule _ => false

def added : Change → List String
  | addModule module => [module]
  | addDependency module dependency => [module, dependency]
  | setDependencies module dependencies => module :: dependencies
  | removeModule _ => []

end Change

section Additions

variable {g : Graph} {changes : List Change} {module dependency name : String}

theorem mem_withName {names : List String} {other : String} :
    name ∈ withName names other ↔ name ∈ names ∨ name = other := by
  unfold withName
  split
  · next listed =>
      refine ⟨.inl, fun either => either.elim id ?_⟩
      rintro rfl
      exact listed
  · rw [List.mem_append, List.mem_singleton]

theorem mem_modules_apply {change : Change} (adds : change.adds = true) :
    name ∈ (g.apply change).modules ↔ name ∈ g.modules ∨ name ∈ change.added := by
  cases change with
  | addModule module =>
      rw [mem_modules, mem_modules, apply, dependencies_addModule]
      by_cases heq : module = name
      · simp [heq, Change.added]
      · simp [heq, Change.added, eq_comm (a := name)]
  | addDependency module dependency =>
      rw [mem_modules, mem_modules, apply, dependencies_addDependency, dependencies_addModule]
      by_cases heq : module = name
      · simp [heq, Change.added]
      · by_cases heq' : dependency = name
        · simp [heq, heq', Change.added]
        · simp [heq, heq', Change.added, eq_comm (a := name)]
  | setDependencies module dependencies => cases adds
  | removeModule module => cases adds

theorem dependsOn_apply {change : Change} (adds : change.adds = true) :
    (g.apply change).DependsOn module dependency ↔
      g.DependsOn module dependency ∨ change = .addDependency module dependency := by
  cases change with
  | addModule other => simp [DependsOn, apply, successors_addModule]
  | addDependency other needed =>
      rw [DependsOn, DependsOn, apply, successors_addDependency]
      by_cases heq : other = module
      · simp [heq, mem_withName, eq_comm (a := dependency)]
      · simp [heq]
  | setDependencies other dependencies => cases adds
  | removeModule other => cases adds

/-- What holds of a graph once one of some changes has brought it about. -/
theorem foldl_apply_iff {P : Graph → Prop} {brings : Change → Prop}
    (step : ∀ g, ∀ change ∈ changes, P (g.apply change) ↔ P g ∨ brings change) (g : Graph) :
    P (changes.foldl apply g) ↔ P g ∨ ∃ change ∈ changes, brings change := by
  induction changes generalizing g with
  | nil => simp
  | cons change rest ih =>
      rw [List.foldl_cons, ih (fun g other ho => step g other (.tail _ ho)), step g change (.head _)]
      simp [or_assoc]

theorem mem_modules_ofChanges (adds : ∀ change ∈ changes, change.adds = true) :
    name ∈ (ofChanges changes).modules ↔ ∃ change ∈ changes, name ∈ change.added := by
  have brought := foldl_apply_iff (P := fun g => name ∈ g.modules)
    (fun g change hc => mem_modules_apply (adds change hc)) empty
  have nothing : name ∉ empty.modules := by simp [mem_modules]
  rw [ofChanges, brought, or_iff_right nothing]

theorem dependsOn_ofChanges (adds : ∀ change ∈ changes, change.adds = true) :
    (ofChanges changes).DependsOn module dependency ↔
      .addDependency module dependency ∈ changes := by
  have brought := foldl_apply_iff (P := fun g => g.DependsOn module dependency)
    (fun g change hc => dependsOn_apply (adds change hc)) empty
  have nothing : ¬ empty.DependsOn module dependency := by simp [DependsOn, successors]
  rw [ofChanges, brought, or_iff_right nothing, exists_eq_right]

/-- Additions make the same edges in any order. -/
theorem alike_of_perm {additions additions' : List Change}
    (adds : ∀ change ∈ additions, change.adds = true) (perm : additions.Perm additions') :
    (ofChanges additions).Alike (ofChanges additions') := by
  have adds' : ∀ change ∈ additions', change.adds = true :=
    fun change hc => adds change (perm.mem_iff.mpr hc)
  constructor
  case modules =>
    apply eq_of_increasing (increasing_modules _) (increasing_modules _)
    intro name
    rw [mem_modules_ofChanges adds, mem_modules_ofChanges adds']
    simp only [perm.mem_iff]
  case perm =>
    intro name
    apply (List.perm_ext_iff_of_nodup (simple_ofChanges additions name)
      (simple_ofChanges additions' name)).mpr
    intro dependency
    have edge : (ofChanges additions).DependsOn name dependency ↔
        .addDependency name dependency ∈ additions := dependsOn_ofChanges adds
    exact edge.trans (perm.mem_iff.trans (dependsOn_ofChanges adds').symm)

end Additions

/-- A dependency order is told by the edges. Modules and dependencies that are added in another order
make a graph with the same order, or one that has a cycle too; and so it is for any two graphs with
the same modules whose lists differ in their order alone. -/
theorem dependencyOrder_of_edges :
    (∀ additions additions' : List Change, (∀ change ∈ additions, change.adds = true) →
      additions.Perm additions' →
      SameOrder (ofChanges additions).dependencyOrder (ofChanges additions').dependencyOrder) ∧
    ∀ g h : Graph, g.Alike h → SameOrder g.dependencyOrder h.dependencyOrder := by
  constructor
  · intro additions additions' adds perm
    exact (alike_of_perm adds perm).sameOrder
  · intro g h alike
    exact alike.sameOrder

def tangled (others : List String) : Graph :=
  ofChanges [.addDependency "B" "A", .addDependency "C" "A", .setDependencies "A" others]

theorem alike_tangled : (tangled ["B", "C"]).Alike (tangled ["C", "B"]) where
  modules := by decide
  perm name := by
    have lists : ∀ g : Graph, ((g.setDependencies "A" ["B", "C"]).successors name).Perm
        ((g.setDependencies "A" ["C", "B"]).successors name) := by
      intro g
      rw [successors_setDependencies, successors_setDependencies]
      split
      · decide
      · exact .refl _
    exact lists _

/-- The lists are made in another order, and the order is the same. With cycles, the one that is
reported may be another one. -/
theorem dependencyOrder_of_reversed_edges :
    let additions : List Change :=
      [.addDependency "A" "C", .addModule "D", .addDependency "A" "B", .addDependency "B" "C"]
    (ofChanges additions).dependencies "A" = some ["C", "B"] ∧
      (ofChanges additions.reverse).dependencies "A" = some ["B", "C"] ∧
      (ofChanges additions).dependencyOrder = .ok ["C", "D", "B", "A"] ∧
      SameOrder (ofChanges additions).dependencyOrder (ofChanges additions.reverse).dependencyOrder ∧
      (tangled ["B", "C"]).detectCycle = some ["A", "B", "A"] ∧
      (tangled ["C", "B"]).detectCycle = some ["A", "C", "A"] ∧
      SameOrder (tangled ["B", "C"]).dependencyOrder (tangled ["C", "B"]).dependencyOrder := by
  intro additions
  have reversed := dependencyOrder_of_edges.1 additions additions.reverse (by decide)
    additions.reverse_perm.symm
  have tangled := dependencyOrder_of_edges.2 _ _ alike_tangled
  exact ⟨by decide, by decide, by decide, reversed, by decide, by decide, tangled⟩

end MibLinker.Graph
