import MibLinker.Proofs.Blueprint.Contents
import MibLinker.Proofs.Plan.Blame

/-!
# The order of independent loads

A load of a module from blueprints answers what the blueprints say, whatever was loaded before it,
and it leaves the modules published that it would leave in an empty registry. So loads in one order
and the same loads in another one give the same answers and end in the same tables.
-/

namespace MibLinker

variable {σ : Type}

def Session.loadEach : List String → Session σ →
    List (Except LinkError (Shared Module)) × Session σ
  | [], s => ([], s)
  | name :: rest, s =>
      let step := s.load name
      let later := loadEach rest step.2
      (step.1 :: later.1, later.2)

namespace Blueprints

variable {T : Blueprints} {s t : Session σ} {name : String}

/-! ## Verdicts -/

def imports? (T : Blueprints) (name : String) : Option (List Import) :=
  (T[name]?).map Blueprint.imports

theorem imports?_plans (T : Blueprints) : (T.plans : Plans σ).imports? = T.imports? := by
  funext name
  rw [Plans.imports?, plans, Std.ExtTreeMap.getElem?_map, Option.map_map]
  rfl

theorem needs_plans (T : Blueprints) : (T.plans : Plans σ).Needs = T.Needs := by
  funext name needed
  simp [Plans.Needs, Needs, plans]

theorem size_plans (T : Blueprints) : (T.plans : Plans σ).size = T.size := Std.ExtTreeMap.size_map

def Supplies (T : Blueprints) (i : Import) : Prop := T.Linkable i.module ∧ T.Exports i

/-- What a load of a module answers, and modules that reach all that it leaves published, told from
the blueprints alone. -/
inductive Verdict (T : Blueprints) (name : String) : Except LinkError Module → List String → Prop
  | linked {b} : T.Linkable name → T[name]? = some b → Verdict T name (.ok (b.module name)) [name]
  | failed {e roots} : ¬ T.Linkable name →
      LoadFails T.imports? T.Linkable T.Supplies [] name e roots → Verdict T name (.error e) roots

theorem Verdict.unique {answer answer' : Except LinkError Module} {roots roots' : List String}
    (h : T.Verdict name answer roots) (h' : T.Verdict name answer' roots') :
    answer = answer' ∧ roots = roots' := by
  cases h with
  | linked linkable hb =>
      cases h' with
      | linked _ hb' =>
          obtain rfl := Option.some.inj (hb.symm.trans hb')
          exact ⟨rfl, rfl⟩
      | failed stuck => exact (stuck linkable).elim
  | failed stuck fails =>
      cases h' with
      | linked linkable => exact (stuck linkable).elim
      | failed _ fails' =>
          obtain ⟨rfl, rfl⟩ := fails.unique (fun _ supplied => supplied.1) fails'
          exact ⟨rfl, rfl⟩

/-- How a load fails can be told without the registry that it failed in. -/
theorem loadFails_of_layered {stack roots : List String} {e : LinkError}
    (layered : t.Layered T.discipline) (loader : t.loader = some T.loader)
    (h : LoadFails T.imports? (fun other => t.registry.isLoaded other = true) t.Finds stack name e
      roots)
    (leads : ∀ other ∈ stack, T.LeadsTo other name) :
    ¬ T.Linkable name ∧ LoadFails T.imports? T.Linkable T.Supplies stack name e roots := by
  have faithful := faithful_of_layered layered loader
  have supplies : ∀ {i}, t.Finds i → T.Supplies i := by
    intro i found
    exact ⟨faithful.linkable found.isLoaded, exports_of_finds layered found⟩
  induction h with
  | cycle stacked =>
      exact ⟨fun linkable => linkable.acyclic .refl (leads _ stacked), .cycle stacked⟩
  | @undefined stack name offStack undefined =>
      refine ⟨fun linkable => ?_, .undefined offStack undefined⟩
      obtain ⟨b, hb⟩ := NameMap.mem_iff.mp (linkable.defined .refl)
      simp [imports?, hb] at undefined
  | @missing stack name before i rest offStack imports found published unfound =>
      obtain ⟨b, hb, split⟩ := Option.map_eq_some_iff.mp imports
      have withheld : ¬ T.Exports i := fun exported =>
        unfound (finds_of_exports layered published exported)
      refine ⟨fun linkable => withheld (linkable.exported .refl hb (by simp [split])), ?_⟩
      exact .missing offStack imports (fun j hj => supplies (found j hj))
        (faithful.linkable published) fun supplied => withheld supplied.2
  | @inside stack name before i rest e roots offStack imports found _ _ ih =>
      obtain ⟨b, hb, split⟩ := Option.map_eq_some_iff.mp imports
      have needs : T.Needs name i.module := ⟨b, hb, i, by simp [split], rfl⟩
      have onward : ∀ other ∈ stack ++ [name], T.LeadsTo other i.module := by
        intro other ho
        rcases List.mem_append.mp ho with ho | ho
        · exact (leads other ho).tail needs
        · rw [List.mem_singleton.mp ho]
          exact .single needs
      obtain ⟨stuck, fails⟩ := ih onward
      refine ⟨fun linkable => stuck (linkable.of_reaches (.single needs)), ?_⟩
      exact .inside offStack imports (fun j hj => supplies (found j hj)) stuck fails

/-! ## One load -/

structure Resting (T : Blueprints) (s : Session σ) : Prop where
  planned : (T.plans : Plans σ).Resting s
  layered : s.Layered T.discipline
  charted : s.Charted

namespace Resting

theorem start (T : Blueprints) (options : Options) (data : σ) :
    T.Resting (.start options (some T.loader) data) where
  planned := T.loader_plans ▸ Plans.Resting.start T.plans options data
  layered := T.layered_start options data
  charted := .start

theorem loader (resting : T.Resting s) : s.loader = some T.loader :=
  T.loader_plans ▸ resting.planned.loader

theorem load (resting : T.Resting s) (name : String) : T.Resting (s.load name).2 where
  planned := resting.planned.afterAll [.load name]
  layered := (resting.layered.load _ name).layered
  charted := (resting.layered.load _ name).charted resting.charted

theorem verdict (resting : T.Resting s) (room : T.size < s.registry.options.maxLoadDepth)
    (name : String) :
    ∃ roots, T.Verdict name ((s.load name).1.map Shared.value) roots ∧
      ∀ other, (s.load name).2.registry.isLoaded other = true ↔
        s.registry.isLoaded other = true ∨ ∃ root ∈ roots, T.Reaches root other := by
  have after := resting.load name
  have grown : s.Grown T.discipline [name] (s.load name).2 := resting.layered.load _ name
  cases hr : (s.load name).1 with
  | error e =>
      have planned : (T.plans : Plans σ).size < s.registry.options.maxLoadDepth :=
        T.size_plans ▸ room
      obtain ⟨⟨roots, failed⟩, _⟩ := resting.planned.failed_of_load planned hr
      have stack : s.registry.loading = [] := resting.planned.idle.1
      have fails := failed.fails
      rw [stack, imports?_plans] at fails
      obtain ⟨stuck, fails⟩ := loadFails_of_layered after.layered after.loader fails
        fun other ho => (List.not_mem_nil ho).elim
      refine ⟨roots, .failed stuck fails, fun other => ?_⟩
      have published := failed.published other
      rw [Plans.Reaches, needs_plans] at published
      exact published
  | ok m =>
      have fetched : Linking.fetch s.registry.allowance name (s.change .enter) = (.ok m, _) :=
        Prod.ext hr rfl
      have found := Linking.module?_of_fetch fetched
      have published : (s.load name).2.registry.module? name = some m := found
      have loaded := Registry.isLoaded_iff.mpr ⟨m, published⟩
      have linkable := (faithful_of_layered after.layered after.loader).linkable loaded
      obtain ⟨b, hb, hv⟩ := after.layered.made published
      refine ⟨[name], ?_, fun other => ?_⟩
      · show T.Verdict name (.ok m.value) [name]
        rw [hv]
        exact .linked linkable hb
      · apply grown.isLoaded_iff T.exact_discipline
        intro root hroot
        rw [List.mem_singleton.mp hroot]
        exact loaded

end Resting

/-! ## Loads in turn -/

def Leaves (T : Blueprints) (name other : String) : Prop :=
  ∃ answer roots, T.Verdict name answer roots ∧ ∃ root ∈ roots, T.Reaches root other

def Answers (T : Blueprints) (answer : String → Except LinkError Module) : Prop :=
  ∀ name, ∃ roots, T.Verdict name (answer name) roots

namespace Resting

theorem load_leaves {answer : String → Except LinkError Module} (answers : T.Answers answer)
    (resting : T.Resting s) (room : T.size < s.registry.options.maxLoadDepth) (name : String) :
    (s.load name).1.map Shared.value = answer name ∧
      ∀ other, (s.load name).2.registry.isLoaded other = true ↔
        s.registry.isLoaded other = true ∨ T.Leaves name other := by
  obtain ⟨roots, verdict, published⟩ := resting.verdict room name
  obtain ⟨roots', verdict'⟩ := answers name
  refine ⟨(verdict.unique verdict').1, fun other => (published other).trans (or_congr_right ?_)⟩
  constructor
  · exact fun reached => ⟨_, roots, verdict, reached⟩
  · rintro ⟨_, more, other', reached⟩
    rwa [(verdict.unique other').2]

/-- However a list of names is loaded, each is answered as the blueprints say, and what is published
in the end is what each of the loads leaves. -/
theorem loadEach {answer : String → Except LinkError Module} (answers : T.Answers answer)
    (resting : T.Resting s) (room : T.size < s.registry.options.maxLoadDepth)
    (names : List String) :
    T.Resting (s.loadEach names).2 ∧
      (s.loadEach names).1.map (·.map Shared.value) = names.map answer ∧
      ∀ other, (s.loadEach names).2.registry.isLoaded other = true ↔
        s.registry.isLoaded other = true ∨ ∃ name ∈ names, T.Leaves name other := by
  induction names generalizing s with
  | nil => exact ⟨resting, rfl, by simp [Session.loadEach]⟩
  | cons name rest ih =>
      have steady : s.Steady (s.load name).2 :=
        Session.lawful_steady.load (Session.lawful_steady.fetch _) name s
      have room' : T.size < (s.load name).2.registry.options.maxLoadDepth := by
        rw [steady.options]
        exact room
      obtain ⟨first, leaves⟩ := resting.load_leaves answers room name
      obtain ⟨after, others, published⟩ := ih (resting.load name) room'
      refine ⟨after, ?_, fun other => ?_⟩
      · show (s.load name).1.map Shared.value :: _ = answer name :: rest.map answer
        rw [first, others]
      · have ended := published other
        rw [leaves, or_assoc] at ended
        simp only [List.mem_cons, or_and_right, exists_or, exists_eq_left]
        exact ended

end Resting

/-- Whatever the order in which modules are loaded into an empty registry, each load answers the
same, and in the end the same modules are published, with the same imports and exports, the
dependency graph is the same, and so is the load order. -/
theorem loads_commute (T : Blueprints) (options : Options) (data : σ)
    (room : T.size < options.maxLoadDepth) {names names' : List String} (perm : names.Perm names') :
    let start := Session.start options (some T.loader) data
    let one := start.loadEach names
    let other := start.loadEach names'
    (∃ answer : String → Except LinkError Module,
      one.1.map (·.map Shared.value) = names.map answer ∧
        other.1.map (·.map Shared.value) = names'.map answer) ∧
      one.2.registry.moduleNames = other.2.registry.moduleNames ∧
      one.2.registry.contents = other.2.registry.contents ∧
      one.2.registry.graph = other.2.registry.graph ∧
      one.2.registry.loadOrder = other.2.registry.loadOrder := by
  intro start one other
  have resting : T.Resting start := .start T options data
  -- Each load is answered as it is when nothing was loaded before.
  have answers : T.Answers fun name => (start.load name).1.map Shared.value := by
    intro name
    obtain ⟨roots, verdict, _⟩ := resting.verdict room name
    exact ⟨roots, verdict⟩
  obtain ⟨ended, answered, published⟩ := resting.loadEach answers room names
  obtain ⟨ended', answered', published'⟩ := resting.loadEach answers room names'
  have contents : one.2.registry.contents = other.2.registry.contents := by
    apply contents_eq ended.layered ended'.layered
    intro name
    rw [published, published']
    simp only [perm.mem_iff]
  have graph := ended.charted.graph_eq ended'.charted contents
  refine ⟨⟨_, answered, answered'⟩, ?_, contents, graph, ?_⟩
  · rw [← Registry.keys_contents, contents, Registry.keys_contents]
  · rw [Registry.loadOrder, graph, Registry.loadOrder]

def tangle : Blueprints :=
  (((∅ : Blueprints).insert "A" ⟨[⟨"C", "x"⟩, ⟨"B", "x"⟩], .single⟩).insert "B"
    ⟨[⟨"A", "x"⟩], .single⟩).insert "C" ⟨[], .single⟩

/-- The failures that are remembered may differ, and nothing else does. -/
theorem loads_commute_on_tangle :
    let start := Session.start {} (some tangle.loader) ()
    let one := start.loadEach ["A", "B"]
    let other := start.loadEach ["B", "A"]
    one.2.registry.lastFailure? "A" = some (.circularDependency ["B", "A", "B"]) ∧
      other.2.registry.lastFailure? "A" = some (.circularDependency ["A", "B", "A"]) ∧
      one.2.registry.moduleNames = ["C"] ∧
      one.2.registry.contents = other.2.registry.contents ∧
      one.2.registry.loadOrder = other.2.registry.loadOrder := by
  intro start one other
  obtain ⟨_, _, contents, _, order⟩ :=
    loads_commute tangle {} () (by decide) (List.Perm.swap "B" "A" [])
  exact ⟨by decide, by decide, by decide, contents, order⟩

end Blueprints

end MibLinker
