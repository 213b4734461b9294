import Mathlib.Data.List.Nodup
import MibLinker.Graph.Order
import MibLinker.Proofs.Graph.Search

/-!
# Names and counts of a graph

Which names a graph has, which modules depend on one, and how many dependencies each of them waits
for at the start of a sort.
-/

namespace MibLinker.Graph

variable {g : Graph} {name : String}

/-- However the entries of a table are selected, they have different keys. -/
theorem nodup_keys_filter {β : Type} (table : Std.ExtTreeMap String β)
    (selected : String × β → Bool) : ((table.toList.filter selected).map Prod.fst).Nodup := by
  rw [List.Nodup, List.pairwise_map]
  apply List.Pairwise.filter
  refine Std.ExtTreeMap.distinct_keys_toList.imp ?_
  intro entry other distinct heq
  exact distinct (Std.compare_eq_iff_eq.mpr heq)

theorem nodup_entries (g : Graph) : g.edges.toList.Nodup := by
  refine Std.ExtTreeMap.distinct_keys_toList.imp ?_
  rintro entry other distinct rfl
  exact distinct Std.compare_self

theorem mem_entries {deps : List String} :
    (name, deps) ∈ g.edges.toList ↔ g.dependencies name = some deps :=
  Std.ExtTreeMap.mem_toList_iff_getElem?_eq_some

theorem mem_modules : name ∈ g.modules ↔ ∃ deps, g.dependencies name = some deps := by
  rw [modules, Std.ExtTreeMap.mem_keys, Std.ExtTreeMap.mem_iff_isSome_getElem?,
    Option.isSome_iff_exists]
  rfl

theorem dependsOn_iff {dependency : String} :
    g.DependsOn name dependency ↔ ∃ deps, g.dependencies name = some deps ∧ dependency ∈ deps := by
  cases h : g.dependencies name <;> simp [DependsOn, successors, h]

/-- The members of a collection that each step of a fold adds to. -/
theorem mem_foldl {α β : Type} [Membership String β] {step : β → α → β} {added : α → Prop}
    (adds : ∀ s a, name ∈ step s a ↔ name ∈ s ∨ added a) (list : List α) (s : β) :
    name ∈ list.foldl step s ↔ name ∈ s ∨ ∃ a ∈ list, added a := by
  induction list generalizing s with
  | nil => simp
  | cons a rest ih =>
      rw [List.foldl_cons, ih, adds]
      simp [or_assoc]

/-! ## Names -/

theorem mem_names :
    name ∈ g.names ↔ ∃ module deps, g.dependencies module = some deps ∧
      (name = module ∨ name ∈ deps) := by
  have adds : ∀ (s : NameSet) (entry : String × List String),
      name ∈ (s.insert entry.1).insertMany entry.2 ↔
        name ∈ s ∨ name = entry.1 ∨ name ∈ entry.2 := by
    intro s entry
    simp [Std.ExtTreeSet.mem_insertMany_list, or_assoc, or_left_comm, eq_comm (a := name)]
  rw [names, Std.ExtTreeSet.mem_toList, mem_foldl adds]
  simp only [Std.ExtTreeSet.not_mem_empty, false_or, Prod.exists, mem_entries]

theorem mem_names_of_dependencies {deps : List String} (h : g.dependencies name = some deps) :
    name ∈ g.names := mem_names.mpr ⟨name, deps, h, .inl rfl⟩

theorem mem_names_of_mem_modules (h : name ∈ g.modules) : name ∈ g.names := by
  obtain ⟨deps, hd⟩ := mem_modules.mp h
  exact mem_names_of_dependencies hd

theorem DependsOn.mem_names {dependency : String} (h : g.DependsOn name dependency) :
    name ∈ g.names ∧ dependency ∈ g.names := by
  obtain ⟨deps, hd, hm⟩ := dependsOn_iff.mp h
  exact ⟨mem_names_of_dependencies hd, Graph.mem_names.mpr ⟨name, deps, hd, .inr hm⟩⟩

theorem nodup_names (g : Graph) : g.names.Nodup := by
  refine Std.ExtTreeSet.distinct_toList.imp ?_
  rintro name other distinct rfl
  exact distinct Std.compare_self

/-! ## Dependents -/

theorem mem_dependents {dependency : String} :
    name ∈ g.dependents dependency ↔ g.DependsOn name dependency := by
  simp [dependents, dependsOn_iff, dependencies]

theorem nodup_dependents (g : Graph) (dependency : String) : (g.dependents dependency).Nodup :=
  nodup_keys_filter g.edges _

/-! ## What is waited for at the start -/

def enroll (waiting : Std.ExtTreeMap String Nat) (entry : String × List String) :
    Std.ExtTreeMap String Nat :=
  entry.2.foldl (fun waiting dep => waiting.insertIfNew dep 0)
    (waiting.insert entry.1 (waiting.getD entry.1 0 + entry.2.length))

theorem mem_enroll {waiting : Std.ExtTreeMap String Nat} {entry : String × List String} :
    name ∈ enroll waiting entry ↔ name ∈ waiting ∨ name = entry.1 ∨ name ∈ entry.2 := by
  have adds : ∀ (waiting : Std.ExtTreeMap String Nat) (dep : String),
      name ∈ waiting.insertIfNew dep 0 ↔ name ∈ waiting ∨ name = dep := by
    intro waiting dep
    simp [or_comm, eq_comm (a := name)]
  rw [enroll, mem_foldl adds]
  simp [or_assoc, or_left_comm, eq_comm (a := name)]

theorem getD_enroll {waiting : Std.ExtTreeMap String Nat} {entry : String × List String} :
    (enroll waiting entry).getD name 0 =
      waiting.getD name 0 + if entry.1 = name then entry.2.length else 0 := by
  have same : ∀ (deps : List String) (waiting : Std.ExtTreeMap String Nat),
      (deps.foldl (fun waiting dep => waiting.insertIfNew dep 0) waiting).getD name 0 =
        waiting.getD name 0 := by
    intro deps
    induction deps with
    | nil => simp
    | cons dep rest ih =>
        intro waiting
        rw [List.foldl_cons, ih, Std.ExtTreeMap.getD_insertIfNew]
        split
        · next h =>
            rw [← Std.compare_eq_iff_eq.mp h.1, Std.ExtTreeMap.getD_eq_fallback h.2]
        · rfl
  rw [enroll, same, Std.ExtTreeMap.getD_insert]
  by_cases h : entry.1 = name <;> simp [h]

theorem mem_waitingAtStart : name ∈ g.waitingAtStart ↔ name ∈ g.names := by
  have adds : ∀ (waiting : Std.ExtTreeMap String Nat) (entry : String × List String),
      name ∈ enroll waiting entry ↔ name ∈ waiting ∨ name = entry.1 ∨ name ∈ entry.2 :=
    fun _ _ => mem_enroll
  rw [mem_names, show g.waitingAtStart = g.edges.toList.foldl enroll ∅ from rfl, mem_foldl adds]
  simp only [Std.ExtTreeMap.not_mem_empty, false_or, Prod.exists, mem_entries]

theorem getD_waitingAtStart : g.waitingAtStart.getD name 0 = (g.successors name).length := by
  have sum : ∀ (entries : List (String × List String)) (waiting : Std.ExtTreeMap String Nat),
      (entries.foldl enroll waiting).getD name 0 =
        waiting.getD name 0 + ((entries.filter (·.1 == name)).map (·.2.length)).sum := by
    intro entries
    induction entries with
    | nil => simp
    | cons entry rest ih =>
        intro waiting
        rw [List.foldl_cons, ih, getD_enroll]
        by_cases h : entry.1 = name <;> simp [h, Nat.add_assoc]
  -- A name has one entry at most.
  have own : g.edges.toList.filter (·.1 == name) =
      ((g.dependencies name).map fun deps => (name, deps)).toList := by
    have nodup := g.nodup_entries.filter (·.1 == name)
    cases h : g.dependencies name with
    | none =>
        apply List.filter_eq_nil_iff.mpr
        rintro ⟨module, deps⟩ he heq
        obtain rfl : module = name := beq_iff_eq.mp heq
        rw [mem_entries, h] at he
        cases he
    | some deps =>
        apply List.perm_singleton.mp
        apply (List.perm_ext_iff_of_nodup nodup (List.nodup_singleton _)).mpr
        rintro ⟨module, others⟩
        rw [List.mem_filter, mem_entries, beq_iff_eq, List.mem_singleton]
        constructor
        · rintro ⟨he, heq⟩
          obtain rfl : module = name := heq
          rw [Option.some.inj (he.symm.trans h)]
        · intro heq
          obtain ⟨rfl, rfl⟩ := Prod.mk.inj heq
          exact ⟨h, rfl⟩
  rw [show g.waitingAtStart = g.edges.toList.foldl enroll ∅ from rfl, sum, own, successors]
  cases g.dependencies name <;> simp

theorem getElem?_waitingAtStart (h : name ∈ g.names) :
    g.waitingAtStart[name]? = some (g.successors name).length := by
  rw [← getD_waitingAtStart]
  exact Std.ExtTreeMap.getElem?_eq_some_getD (mem_waitingAtStart.mpr h)

end MibLinker.Graph
