import Mathlib.Data.List.Nodup
import MibLinker.Proofs.Atomicity
import MibLinker.Proofs.Blueprint.Contents

/-!
# Publications in another order

A publication writes the module, its dependencies and that it has no failure under the module's own
name, over whatever was there. Under the names of its imports it writes entries of the graph, without
dependencies and only where there are none. So two modules of different names can be published in
either order, also when they import one another, and a list of modules in any order.
-/

namespace MibLinker

variable {σ : Type}

theorem NameMap.insert_comm {α : Type} (values : NameMap α) {name other : String}
    (h : name ≠ other) (value value' : α) :
    (values.insert name value).insert other value' =
      (values.insert other value').insert name value := by
  apply Std.ExtTreeMap.ext_getElem?
  intro key
  simp only [Std.ExtTreeMap.getElem?_insert, Std.compare_eq_iff_eq]
  by_cases hk : name = key
  · have ho : ¬ other = key := fun ho => h (hk.trans ho.symm)
    simp [hk, ho]
  · simp [hk]

theorem NameMap.erase_comm {α : Type} (values : NameMap α) (name other : String) :
    (values.erase name).erase other = (values.erase other).erase name := by
  apply Std.ExtTreeMap.ext_getElem?
  intro key
  simp only [Std.ExtTreeMap.getElem?_erase, Std.compare_eq_iff_eq]
  by_cases hk : name = key <;> simp [hk]

/-- What is written last under a name stays, and an entry that a dependency has got makes no
difference to it. -/
theorem Graph.setDependencies_comm (g : Graph) {module other : String} (h : module ≠ other)
    (names others : List String) :
    (g.setDependencies module names).setDependencies other others =
      (g.setDependencies other others).setDependencies module names := by
  apply Graph.ext_dependencies
  intro name
  simp only [Graph.dependencies_setDependencies, Graph.successors_setDependencies]
  by_cases hm : module = name
  · have ho : ¬ other = name := fun ho => h (hm.trans ho.symm)
    simp [hm, ho]
  · by_cases ho : other = name
    · simp [hm, ho]
    · by_cases hn : name ∈ names <;> by_cases hn' : name ∈ others <;> simp [hm, ho, hn, hn']

namespace Registry

theorem contents_publish (r : Registry) (m : Module) :
    (r.publish m).2.contents = r.contents.insert m.name m := by
  apply Std.ExtTreeMap.ext_getElem?
  intro name
  rw [getElem?_contents, module?_publish, Std.ExtTreeMap.getElem?_insert, getElem?_contents]
  simp only [Std.compare_eq_iff_eq]
  split <;> rfl

end Registry

namespace Session

/-- What publications leave of a part of the tables, when each changes that part by a step of its
own. -/
theorem afterAll_publish {α : Type} {part : Registry → α} (step : α → Module → α)
    (publish : ∀ r m, part (Registry.publish r m).2 = step (part r) m) (s : Session σ)
    (modules : List Module) :
    part (s.afterAll (modules.map .publish)).registry = modules.foldl step (part s.registry) := by
  induction modules generalizing s with
  | nil => rfl
  | cons m rest ih =>
      rw [List.map_cons, List.foldl_cons, ← publish]
      exact ih (s.publish m).2

/-- A part of the tables in which modules of different names are published in either order holds the
same after any two orders of a list of them. -/
theorem afterAll_publish_perm {α : Type} {part : Registry → α} (step : α → Module → α)
    (publish : ∀ r m, part (Registry.publish r m).2 = step (part r) m)
    (comm : ∀ a m m', m.name ≠ m'.name → step (step a m) m' = step (step a m') m) (s : Session σ)
    {modules modules' : List Module} (distinct : (modules.map Module.name).Nodup)
    (perm : modules.Perm modules') :
    part (s.afterAll (modules.map .publish)).registry =
      part (s.afterAll (modules'.map .publish)).registry := by
  rw [afterAll_publish step publish, afterAll_publish step publish]
  apply perm.foldl_eq'
  intro m hm m' hm' a
  by_cases same : m.name = m'.name
  · rw [List.inj_on_of_nodup_map distinct hm hm' same]
  · exact comm a m m' same

theorem module?_afterAll_publish (s : Session σ) {modules : List Module} {name : String}
    (absent : name ∉ modules.map Module.name) :
    (s.afterAll (modules.map .publish)).registry.module? name = s.registry.module? name := by
  induction modules generalizing s with
  | nil => rfl
  | cons m rest ih =>
      rw [List.map_cons, List.mem_cons, not_or] at absent
      have first : (s.publish m).2.registry.module? name = s.registry.module? name :=
        (module?_publish s m name).trans (if_neg (Ne.symm absent.1))
      exact (ih (s.publish m).2 absent.2).trans first

/-- The contents, the graph and the failures are the same after any two orders. -/
theorem tables_afterAll_publish_perm (s : Session σ) {modules modules' : List Module}
    (distinct : (modules.map Module.name).Nodup) (perm : modules.Perm modules') :
    let t := s.afterAll (modules.map .publish)
    let t' := s.afterAll (modules'.map .publish)
    t.registry.contents = t'.registry.contents ∧ t.registry.graph = t'.registry.graph ∧
      t.registry.failures = t'.registry.failures := by
  refine ⟨?contents, ?graph, ?failures⟩
  case contents =>
    exact afterAll_publish_perm (fun contents m => contents.insert m.name m)
      Registry.contents_publish (fun contents m m' different => contents.insert_comm different m m')
      s distinct perm
  case graph =>
    exact afterAll_publish_perm (fun g m => g.setDependencies m.name m.sources)
      (fun _ _ => rfl) (fun g m m' different => g.setDependencies_comm different _ _) s distinct perm
  case failures =>
    exact afterAll_publish_perm (fun failures m => failures.erase m.name)
      (fun _ _ => rfl) (fun failures m m' _ => failures.erase_comm m.name m'.name) s distinct perm

/-- What the tables hold about a module of the list, which may as well have been the last. -/
theorem record_of_afterAll_publish (s : Session σ) {modules : List Module}
    (distinct : (modules.map Module.name).Nodup) {m : Module} (hm : m ∈ modules) :
    let t := s.afterAll (modules.map .publish)
    t.registry.contents[m.name]? = some m ∧
      t.registry.graph.dependencies m.name = some m.sources.eraseDups ∧
      t.registry.lastFailure? m.name = none := by
  intro t
  obtain ⟨before, after, rfl⟩ := List.append_of_mem hm
  have last : (before ++ m :: after).Perm ((before ++ after) ++ [m]) :=
    List.perm_middle.trans (List.perm_append_singleton m _).symm
  obtain ⟨contents, graph, failures⟩ := tables_afterAll_publish_perm s distinct last
  have split : s.afterAll (((before ++ after) ++ [m]).map .publish) =
      ((s.afterAll ((before ++ after).map .publish)).publish m).2 := by
    rw [List.map_append, afterAll, List.foldl_append]
    rfl
  obtain ⟨published, unfailed, depends⟩ :=
    record_of_publish (s.afterAll ((before ++ after).map .publish)) m
  rw [split] at contents graph failures
  refine ⟨?_, ?_, ?_⟩
  · rw [contents, Registry.getElem?_contents, published]
    rfl
  · rw [graph, depends]
  · rw [Registry.lastFailure?, failures]
    exact unfailed

end Session

/-- Modules of different names are published in any order, whatever they import, and whatever state
the registry is in: the modules that are then published are the same, those of other names the very
same objects, and so are the graph, the failures, and the load order or the cycle in its place. Each
module of the list is published, with the dependencies that it imports, and has no failure. -/
theorem publications_commute (s : Session σ) {modules modules' : List Module}
    (distinct : (modules.map Module.name).Nodup) (perm : modules.Perm modules') :
    let t := s.afterAll (modules.map .publish)
    let t' := s.afterAll (modules'.map .publish)
    t.registry.contents = t'.registry.contents ∧
      (∀ name, name ∉ modules.map Module.name →
        t.registry.module? name = t'.registry.module? name) ∧
      t.registry.graph = t'.registry.graph ∧
      t.registry.failures = t'.registry.failures ∧
      t.registry.loadOrder = t'.registry.loadOrder ∧
      ∀ m ∈ modules, t.registry.contents[m.name]? = some m ∧
        t.registry.graph.dependencies m.name = some m.sources.eraseDups ∧
        t.registry.lastFailure? m.name = none := by
  intro t t'
  obtain ⟨contents, graph, failures⟩ := s.tables_afterAll_publish_perm distinct perm
  have order : t.registry.loadOrder = t'.registry.loadOrder := by
    rw [Registry.loadOrder, graph, Registry.loadOrder]
  refine ⟨contents, fun name absent => ?_, graph, failures, order,
    fun m hm => s.record_of_afterAll_publish distinct hm⟩
  have absent' : name ∉ modules'.map Module.name :=
    fun listed => absent ((perm.map Module.name).mem_iff.mpr listed)
  exact (s.module?_afterAll_publish absent).trans (s.module?_afterAll_publish absent').symm

/-- The modules import one another, and one that is never published. One of them has failed to load
before, and one is published again. In the other order they are other objects with the same contents.
-/
theorem publications_commute_reversed :
    let s := Session.withPublication.afterAll [.call (.load "A")]
    let modules : List Module :=
      [⟨"A", [⟨"B", "x"⟩, ⟨"Z", "x"⟩], .single⟩, ⟨"C", [⟨"A", "x"⟩], .single⟩, .ofExports "B" ∅]
    let t := s.afterAll (modules.map .publish)
    let t' := s.afterAll (modules.reverse.map .publish)
    (s.registry.lastFailure? "A").isSome = true ∧ s.registry.isLoaded "B" = true ∧
      t.registry.module? "A" = some ⟨2, ⟨"A", [⟨"B", "x"⟩, ⟨"Z", "x"⟩], .single⟩⟩ ∧
      t'.registry.module? "A" = some ⟨4, ⟨"A", [⟨"B", "x"⟩, ⟨"Z", "x"⟩], .single⟩⟩ ∧
      t.registry.contents = t'.registry.contents ∧ t.registry.failures = t'.registry.failures ∧
      t'.registry.loadOrder = .ok ["B", "Z", "A", "C"] := by
  intro s modules t t'
  have distinct : (modules.map Module.name).Nodup := by decide
  obtain ⟨contents, -, -, failures, order, -⟩ :=
    publications_commute s distinct modules.reverse_perm.symm
  exact ⟨by decide, by decide, rfl, rfl, contents, failures, order ▸ by decide⟩

end MibLinker
