import Mathlib.Data.List.DropRight
import MibLinker.Proofs.Graph.Reordering

/-!
# The history of a graph

A graph keeps nothing of its making but the lists and which modules have entries. Both are told by
the changes that made it: a module has an entry when it has been named and not removed since, and
its list is what has been recorded for it since its list was last replaced or removed. So a name
that only lists of others hold has been removed after the last change that named it.
-/

namespace MibLinker.Graph

namespace Change

/-- The list that a change leaves a module with, whatever it had before. -/
def list? (module : String) : Change → Option (List String)
  | addModule _ => none
  | addDependency _ _ => none
  | setDependencies other dependencies => if other = module then some dependencies else none
  | removeModule other => if other = module then some [] else none

def addition? (module : String) : Change → Option String
  | addModule _ => none
  | addDependency other dependency => if other = module then some dependency else none
  | setDependencies _ _ => none
  | removeModule _ => none

def needed : Change → List String
  | addModule _ => []
  | addDependency _ dependency => [dependency]
  | setDependencies _ dependencies => dependencies
  | removeModule _ => []

end Change

/-- What changes have recorded as the dependencies of a module, in order and as often as they did:
the list that was put in place last, and what has been added since. -/
def recorded (module : String) (changes : List Change) : List String :=
  (changes.reverse.findSome? (Change.list? module)).getD [] ++
    (changes.rtakeWhile fun change => (change.list? module).isNone).filterMap
      (Change.addition? module)

/-- Whether a module was removed after the last change that named it. -/
def RemovedSince (module : String) (changes : List Change) : Prop :=
  ∃ before after, changes = before ++ .removeModule module :: after ∧
    ∀ change ∈ after, module ∉ change.added

variable {g : Graph} {changes : List Change} {module name : String}

/-! ## The lists -/

theorem recorded_concat (changes : List Change) (change : Change) :
    recorded module (changes ++ [change]) =
      (change.list? module).getD (recorded module changes ++ (change.addition? module).toList) := by
  unfold recorded
  rw [List.reverse_concat, List.findSome?_cons]
  cases hl : change.list? module with
  | none =>
      rw [List.rtakeWhile_concat_pos _ _ _ (by simp [hl])]
      cases ha : change.addition? module <;> simp [ha]
  | some list =>
      rw [List.rtakeWhile_concat_neg _ _ _ (by simp [hl])]
      simp

theorem eraseDups_concat (names : List String) (name : String) :
    (names ++ [name]).eraseDups = withName names.eraseDups name := by
  rw [List.eraseDups_append, withName]
  by_cases listed : name ∈ names
  · simp [listed, List.removeAll]
  · simp [listed, List.removeAll, List.eraseDups_cons]

theorem successors_apply (change : Change) {names : List String}
    (before : g.successors module = names.eraseDups) :
    (g.apply change).successors module =
      ((change.list? module).getD (names ++ (change.addition? module).toList)).eraseDups := by
  cases change with
  | addModule other => simp [apply, successors_addModule, before, Change.list?, Change.addition?]
  | addDependency other dependency =>
      rw [apply, successors_addDependency]
      by_cases same : other = module
      · subst same
        simp [before, eraseDups_concat, Change.list?, Change.addition?]
      · simp [same, before, Change.list?, Change.addition?]
  | setDependencies other dependencies =>
      rw [apply, successors_setDependencies]
      by_cases same : other = module <;> simp [same, before, Change.list?, Change.addition?]
  | removeModule other =>
      rw [apply, successors_removeModule]
      by_cases same : other = module <;> simp [same, before, Change.list?, Change.addition?]

theorem ofChanges_concat (changes : List Change) (change : Change) :
    ofChanges (changes ++ [change]) = (ofChanges changes).apply change := by
  rw [ofChanges, List.foldl_concat, ofChanges]

/-- A list holds what has been recorded, each name once. -/
theorem successors_ofChanges (changes : List Change) (module : String) :
    (ofChanges changes).successors module = (recorded module changes).eraseDups := by
  induction changes using List.reverseRecOn with
  | nil => simp [ofChanges, successors, recorded]
  | append_singleton changes change ih =>
      rw [ofChanges_concat, recorded_concat, successors_apply change ih]

/-! ## The entries -/

theorem dependencies_apply_eq_none_iff (change : Change) :
    (g.apply change).dependencies module = none ↔
      change = .removeModule module ∨ g.dependencies module = none ∧ module ∉ change.added := by
  cases change with
  | addModule other =>
      rw [apply, dependencies_addModule]
      by_cases same : other = module
      · simp [same, Change.added]
      · simp [same, Change.added, eq_comm (a := module)]
  | addDependency other dependency =>
      rw [apply, dependencies_addDependency, dependencies_addModule]
      by_cases same : other = module
      · simp [same, Change.added]
      · by_cases same' : dependency = module
        · simp [same, same', Change.added]
        · simp [same, same', Change.added, eq_comm (a := module)]
  | setDependencies other dependencies =>
      rw [apply, dependencies_setDependencies]
      by_cases same : other = module
      · simp [same, Change.added]
      · by_cases listed : module ∈ dependencies
        · simp [same, listed, Change.added]
        · simp [same, listed, Change.added, eq_comm (a := module)]
  | removeModule other =>
      rw [apply, dependencies_removeModule]
      by_cases same : other = module
      · simp [same]
      · simp [same, Change.added]

theorem removedSince_concat (changes : List Change) (change : Change) :
    RemovedSince module (changes ++ [change]) ↔
      change = .removeModule module ∨ RemovedSince module changes ∧ module ∉ change.added := by
  constructor
  · rintro ⟨before, after, split, unnamed⟩
    rcases List.eq_nil_or_concat after with rfl | ⟨later, last, rfl⟩
    · exact .inl (List.append_inj_right' split rfl |> List.singleton_inj.mp)
    · rw [List.concat_eq_append, ← List.cons_append, ← List.append_assoc] at split
      obtain ⟨rfl, same⟩ := List.append_inj' split rfl
      obtain rfl := List.singleton_inj.mp same
      rw [List.concat_eq_append] at unnamed
      exact .inr ⟨⟨before, later, rfl, fun c hc => unnamed c (List.mem_append_left _ hc)⟩,
        unnamed change (List.mem_append_right _ (.head _))⟩
  · rintro (rfl | ⟨⟨before, after, rfl, unnamed⟩, unnamed'⟩)
    · exact ⟨changes, [], rfl, fun _ hc => (List.not_mem_nil hc).elim⟩
    · refine ⟨before, after ++ [change], by simp, fun c hc => ?_⟩
      rcases List.mem_append.mp hc with earlier | last
      · exact unnamed c earlier
      · exact List.mem_singleton.mp last ▸ unnamed'

/-- A module is without an entry just if it was never named, or has been removed since. -/
theorem dependencies_ofChanges_eq_none_iff (changes : List Change) (module : String) :
    (ofChanges changes).dependencies module = none ↔
      (∀ change ∈ changes, module ∉ change.added) ∨ RemovedSince module changes := by
  induction changes using List.reverseRecOn with
  | nil => simp [ofChanges]
  | append_singleton changes change ih =>
      rw [ofChanges_concat, dependencies_apply_eq_none_iff, ih, removedSince_concat,
        or_and_right, or_left_comm]
      simp only [List.mem_append, List.mem_singleton, or_imp, forall_and, forall_eq]

/-! ## What the lists hold -/

theorem Change.mem_needed_of_list? {change : Change} {list : List String}
    (placed : change.list? module = some list) (listed : name ∈ list) : name ∈ change.needed := by
  cases change with
  | addModule other => cases placed
  | addDependency other dependency => cases placed
  | setDependencies other dependencies =>
      rw [list?, Option.ite_none_right_eq_some] at placed
      exact Option.some.inj placed.2 ▸ listed
  | removeModule other =>
      rw [list?, Option.ite_none_right_eq_some] at placed
      exact (List.not_mem_nil (Option.some.inj placed.2 ▸ listed)).elim

theorem Change.mem_needed_of_addition? {change : Change}
    (added : change.addition? module = some name) : name ∈ change.needed := by
  cases change with
  | addModule other => cases added
  | addDependency other dependency =>
      rw [addition?, Option.ite_none_right_eq_some] at added
      exact List.mem_singleton.mpr (Option.some.inj added.2).symm
  | setDependencies other dependencies => cases added
  | removeModule other => cases added

theorem Change.mem_added_of_needed {change : Change} (needed : name ∈ change.needed) :
    name ∈ change.added := by
  cases change with
  | addModule other => cases needed
  | addDependency other dependency => exact .tail _ needed
  | setDependencies other dependencies => exact .tail _ needed
  | removeModule other => cases needed

theorem exists_needed_of_mem_recorded (listed : name ∈ recorded module changes) :
    ∃ change ∈ changes, name ∈ change.needed := by
  rcases List.mem_append.mp listed with placed | added
  · cases hl : changes.reverse.findSome? (Change.list? module) with
    | none => simp [hl] at placed
    | some list =>
        obtain ⟨change, hc, last⟩ := List.exists_of_findSome?_eq_some hl
        rw [hl, Option.getD_some] at placed
        exact ⟨change, List.mem_reverse.mp hc, Change.mem_needed_of_list? last placed⟩
  · obtain ⟨change, hc, addition⟩ := List.mem_filterMap.mp added
    exact ⟨change, (List.rtakeWhile_suffix _ _).mem hc, Change.mem_needed_of_addition? addition⟩

/-- A name that lists hold, and that has no entry, was removed after it had last been named. -/
theorem removed_after_needed (listed : name ∈ recorded module changes)
    (absent : (ofChanges changes).dependencies name = none) :
    ∃ before after, changes = before ++ .removeModule name :: after ∧
      (∃ change ∈ before, name ∈ change.needed) ∧ ∀ change ∈ after, name ∉ change.added := by
  obtain ⟨change, hc, needed⟩ := exists_needed_of_mem_recorded listed
  have named : name ∈ change.added := Change.mem_added_of_needed needed
  rcases (dependencies_ofChanges_eq_none_iff changes name).mp absent with never | removed
  · exact (never change hc named).elim
  · obtain ⟨before, after, rfl, unnamed⟩ := removed
    refine ⟨before, after, rfl, ⟨change, ?_, needed⟩, unnamed⟩
    rcases List.mem_append.mp hc with earlier | removal | ⟨_, later⟩
    · exact earlier
    · cases needed
    · exact (unnamed change later named).elim

/-- What a graph holds is told by the changes that made it. No list has a name twice. A module is
without a list just if no change has named it, or it was removed after the last one that did; else
its list has the names that have been recorded since it was last replaced or removed, in the order
of their first occurrences. The dependents of a name are in increasing order the modules whose lists
have it. A name that lists have, and that is no module, was removed after it had last been recorded
as a dependency. -/
theorem ofChanges_exact (changes : List Change) :
    let g := ofChanges changes
    (∀ module deps, g.dependencies module = some deps → deps.Nodup) ∧
      (∀ module, g.dependencies module = none ↔
        (∀ change ∈ changes, module ∉ change.added) ∨ RemovedSince module changes) ∧
      (∀ module deps, g.dependencies module = some deps →
        FirstOccurrences (recorded module changes) deps) ∧
      (∀ name, (g.dependents name).Pairwise (fun a b => compare a b = .lt) ∧
        ∀ module, module ∈ g.dependents name ↔
          ∃ deps, g.dependencies module = some deps ∧ name ∈ deps) ∧
      ∀ module deps name, g.dependencies module = some deps → name ∈ deps → name ∉ g.modules →
        ∃ before after, changes = before ++ .removeModule name :: after ∧
          (∃ change ∈ before, name ∈ change.needed) ∧ ∀ change ∈ after, name ∉ change.added := by
  intro g
  have list : ∀ {module deps}, g.dependencies module = some deps →
      deps = (recorded module changes).eraseDups := by
    intro module deps hd
    rw [← successors_ofChanges, successors, hd, Option.getD_some]
  have firsts : ∀ module deps, g.dependencies module = some deps →
      FirstOccurrences (recorded module changes) deps :=
    fun module deps hd => list hd ▸ firstOccurrences_eraseDups (recorded module changes)
  refine ⟨fun module deps hd => (firsts module deps hd).nodup,
    dependencies_ofChanges_eq_none_iff changes, firsts, fun name => ⟨g.increasing_dependents name,
    fun module => ?_⟩, fun module deps name hd listed absent => ?_⟩
  · rw [mem_dependents, dependsOn_iff]
  · have absent' : g.dependencies name = none := by
      rw [mem_modules, not_exists] at absent
      exact Option.eq_none_iff_forall_ne_some.mpr absent
    exact removed_after_needed ((firsts module deps hd).mem_iff name |>.mp listed) absent'

/-- A history in which a list is replaced and added to, a module is removed and named again, and
another one is removed that a list goes on to name. -/
def revised : List Change :=
  [.addDependency "A" "D", .setDependencies "A" ["C", "B", "C"], .addDependency "A" "A",
    .addDependency "A" "B", .setDependencies "D" ["A"], .removeModule "D", .addModule "D",
    .removeModule "B"]

/-- Of the first list nothing is left, nor of the one that was removed. -/
theorem ofChanges_exact_of_revised :
    let g := ofChanges revised
    recorded "A" revised = ["C", "B", "C", "A", "B"] ∧
      g.dependencies "A" = some ["C", "B", "A"] ∧
      FirstOccurrences (recorded "A" revised) ["C", "B", "A"] ∧
      g.dependencies "D" = some [] ∧ g.dependents "A" = ["A"] ∧ g.modules = ["A", "C", "D"] ∧
      ∃ before after, revised = before ++ .removeModule "B" :: after ∧
        (∃ change ∈ before, "B" ∈ change.needed) ∧ ∀ change ∈ after, "B" ∉ change.added := by
  intro g
  obtain ⟨-, -, firsts, -, removed⟩ := ofChanges_exact revised
  have list : g.dependencies "A" = some ["C", "B", "A"] := by decide
  exact ⟨by decide, list, firsts "A" _ list, by decide, by decide, by decide,
    removed "A" _ "B" list (by decide) (by decide)⟩

end MibLinker.Graph
