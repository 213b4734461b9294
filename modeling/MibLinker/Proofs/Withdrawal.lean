import MibLinker.Proofs.Coverage
import MibLinker.Proofs.States

/-!
# What a failed load leaves behind

A definition that publishes its module and fails after that has the publication withdrawn, and the
published modules are what they were. The graph has the same edges as before, but not always the same
modules: those that were imported from keep the entries that they got, and the name that was withdrawn
loses the one that it may have had before.
-/

namespace MibLinker

variable {σ : Type}

/-! ## Publishing under one name over and over -/

namespace Graph

variable {g : Graph} {module name : String}

theorem dependencies_foldl_setDependencies (lists : List (List String)) (h : module ≠ name) :
    (lists.foldl (fun g names => g.setDependencies module names) g).dependencies name =
      if name ∈ lists.flatten then some (g.successors name) else g.dependencies name := by
  induction lists generalizing g with
  | nil => rfl
  | cons names rest ih =>
      rw [List.foldl_cons, ih, successors_setDependencies, if_neg h, dependencies_setDependencies,
        if_neg h, List.flatten_cons]
      by_cases later : name ∈ rest.flatten
      · simp [later]
      · by_cases first : name ∈ names <;> simp [first, later]

/-- What withdrawing a name makes of a graph, after publications under the name. The entry of the name
goes, and every name that they imported from has one. -/
def Withdrawn (name : String) (published : List Module) (before after : Graph) : Prop :=
  ∀ other, after.dependencies other =
    if published = [] then before.dependencies other
    else if name = other then none
    else if other ∈ published.flatMap Module.sources then some (before.successors other)
    else before.dependencies other

namespace Withdrawn

variable {published : List Module} {before after : Graph} (h : Withdrawn name published before after)

include h

/-- The edges are the same, if there were none from the name. -/
theorem successors_eq (none : before.successors name = []) (other : String) :
    after.successors other = before.successors other := by
  rw [successors, h]
  split_ifs with _ hn
  · rfl
  · rw [← hn, none, Option.getD_none]
  · exact Option.getD_some
  · rfl

theorem mem_modules_iff {other : String} : other ∈ after.modules ↔
    other ∈ before.modules ∧ (other = name → published = []) ∨
      other ∈ published.flatMap Module.sources ∧ other ≠ name := by
  rw [mem_modules, h, mem_modules]
  split_ifs with nothing hn listed
  · simp [nothing]
  · subst hn
    simp [nothing]
  · simp [Ne.symm hn, listed]
  · simp [Ne.symm hn, listed]

theorem eq_iff : after = before ↔ published = [] ∨
    name ∉ before.modules ∧
      ∀ source ∈ published.flatMap Module.sources, source ≠ name → source ∈ before.modules := by
  constructor
  · rintro rfl
    by_cases nothing : published = []
    · exact .inl nothing
    · refine .inr ⟨fun entry => ?_, fun source hs hn => ?_⟩
      · obtain ⟨_, withdrawn⟩ | ⟨_, other⟩ := h.mem_modules_iff.mp entry
        · exact nothing (withdrawn rfl)
        · exact other rfl
      · exact h.mem_modules_iff.mpr (.inr ⟨hs, hn⟩)
  · intro kept
    apply ext_dependencies
    intro other
    rw [h]
    split_ifs with nothing hn listed
    · rfl
    · obtain ⟨new, _⟩ := kept.resolve_left nothing
      cases hd : before.dependencies other with
      | none => rfl
      | some deps => exact (new (hn ▸ mem_modules.mpr ⟨deps, hd⟩)).elim
    · obtain ⟨_, known⟩ := kept.resolve_left nothing
      obtain ⟨deps, hd⟩ := mem_modules.mp (known other listed (Ne.symm hn))
      rw [successors, hd, Option.getD_some]
    · rfl

end Withdrawn

end Graph

/-- Whether a script publishes under one name only, looking around in between, and fails in the end.
-/
inductive Script.Abandons (name : String) : Script σ → Prop
  | fail (e : LinkError) : Abandons name (.fail e)
  | publish {m : Module} {next : Shared Module → Script σ} : m.name = name →
      (∀ object, Abandons name (next object)) → Abandons name (.publish m next)
  | work {change : View σ → Desk σ} {next : View σ → Script σ} :
      (∀ view, Abandons name (next view)) → Abandons name (.work change next)

/-- The modules that a script publishes, in turn, until it makes a request of another kind. -/
def Script.publications : Script σ → Session σ → List Module
  | .publish m next, s => m :: (next (s.publish m).1).publications (s.publish m).2
  | .work change next, s => (next s.view).publications (s.withDesk (change s.view))
  | _, _ => []

structure Session.Tried (name : String) (published : List Module) (s t : Session σ) : Prop where
  others : ∀ {other}, name ≠ other → t.registry.module? other = s.registry.module? other
  isLoaded : t.registry.isLoaded name = true ↔ s.registry.isLoaded name = true ∨ published ≠ []
  graph : t.registry.graph = (published.map Module.sources).foldl
    (fun g names => g.setDependencies name names) s.registry.graph

namespace Session.Tried

variable {name : String} {published : List Module} {s t : Session σ}

theorem worked {desk : Desk σ} (h : (s.withDesk desk).Tried name published t) :
    s.Tried name published t := ⟨h.others, h.isLoaded, h.graph⟩

theorem publish {m : Module} {u : Session σ} (hm : m.name = name)
    (h : (s.publish m).2.Tried name published u) : s.Tried name (m :: published) u where
  others {other} hn := by
    rw [h.others hn, module?_publish, if_neg (hm ▸ hn)]
  isLoaded := by
    have now : (s.publish m).2.registry.isLoaded name = true :=
      Registry.isLoaded_iff.mpr ⟨_, (module?_publish s m name).trans (if_pos hm)⟩
    simp [h.isLoaded, now]
  graph := by
    have first : (s.publish m).2.registry.graph =
        s.registry.graph.setDependencies name m.sources := hm ▸ rfl
    rw [h.graph, first]
    rfl

variable (h : s.Tried name published t) (unpublished : s.registry.module? name = none)

include h unpublished

/-- Withdrawing the last publication leaves the modules that there were. -/
theorem modules_withdrawn (e : LinkError) :
    ((t.closed.discard name).recordFailure name e).registry.modules = s.registry.modules := by
  apply Std.ExtTreeMap.ext_getElem?
  intro other
  have withdrawn : ((t.closed.discard name).recordFailure name e).registry.module? other =
      if name = other then none else t.registry.module? other :=
    module?_discard t.closed name other
  show ((t.closed.discard name).recordFailure name e).registry.module? other =
    s.registry.module? other
  rw [withdrawn]
  split
  · next hn => exact (hn ▸ unpublished).symm
  · next hn => exact h.others hn

theorem graph_withdrawn (e : LinkError) : Graph.Withdrawn name published s.registry.graph
    ((t.closed.discard name).recordFailure name e).registry.graph := by
  intro other
  have before := Registry.isLoaded_eq_false_iff.mpr unpublished
  have told : t.closed.registry.isLoaded name = true ↔ published ≠ [] := by
    show t.registry.isLoaded name = true ↔ published ≠ []
    simpa [before] using h.isLoaded
  show (t.closed.discard name).registry.graph.dependencies other = _
  unfold discard
  by_cases none : published = []
  · rw [if_neg (by simp [told, none]), if_pos none]
    show t.registry.graph.dependencies other = _
    rw [h.graph, none]
    rfl
  · rw [if_pos (told.mpr none), if_neg none]
    show (t.registry.graph.removeModule name).dependencies other = _
    rw [Graph.dependencies_removeModule]
    split
    · rfl
    · next hn => rw [h.graph, Graph.dependencies_foldl_setDependencies _ hn, List.flatMap]

end Session.Tried

/-- A script that abandons its module publishes it so many times, and fails. -/
theorem Linking.run_of_abandons {name : String} {script : Script σ} (h : script.Abandons name)
    (fetch : Fetch σ) (s : Session σ) :
    ∃ e t, run fetch script s = (.error e, t) ∧ s.Tried name (script.publications s) t := by
  induction h generalizing s with
  | fail e => exact ⟨e, s, rfl, fun _ => rfl, by simp [Script.fail, Script.publications], rfl⟩
  | @publish m next hm _ ih =>
      obtain ⟨e, t, ran, tried⟩ := ih (s.publish m).1 (s.publish m).2
      exact ⟨e, t, ran, tried.publish hm⟩
  | @work change next _ ih =>
      obtain ⟨e, t, ran, tried⟩ := ih s.view (s.withDesk (change s.view))
      exact ⟨e, t, ran, tried.worked⟩

/-! ## Failed loads -/

def Session.publishedFor (name : String) (s : Session σ) : List Module :=
  match s.loader with
  | none => []
  | some loader =>
      if s.registry.allowance = 0 then []
      else (loader.definition name).publications ((s.change .enter).opened name)

/-- What a load from outside leaves that fails with its module abandoned. -/
theorem Session.withdrawn_of_load {s t : Session σ} {name : String} {e : LinkError}
    (seen : Observable s) (idle : s.registry.Idle)
    (abandons : ∀ loader, s.loader = some loader → (loader.definition name).Abandons name)
    (failed : s.load name = (.error e, t)) :
    s.registry.isLoaded name = false ∧ t.registry.modules = s.registry.modules ∧
      Graph.Withdrawn name (s.publishedFor name) s.registry.graph t.registry.graph := by
  rcases hr : Linking.fetch s.registry.allowance name (s.change .enter) with ⟨answer, u⟩
  have ended : s.load name = (answer, u.change .leave) := by
    simp only [Session.load, Session.fetch, Linking.load, Linking.inFrame, hr]
  rw [ended] at failed
  obtain ⟨rfl, rfl⟩ := Prod.mk.inj failed
  show _ ∧ u.registry.modules = _ ∧ Graph.Withdrawn _ _ _ u.registry.graph
  have unpublished : (s.change .enter).registry.module? name = none :=
    Linking.unpublished_of_refused hr
  have vacant := vacant_of_idle idle seen.dated unpublished
  refine ⟨Registry.isLoaded_eq_false_iff.mpr unpublished, ?_⟩
  cases ha : s.registry.allowance with
  | zero =>
      rw [ha, Linking.fetch, Linking.fetchBy_of_vacant _ vacant] at hr
      have nothing : s.publishedFor name = [] := by
        unfold publishedFor
        split <;> simp [ha]
      obtain rfl := (Prod.mk.inj hr).2
      exact ⟨rfl, fun other => (if_pos nothing).symm⟩
  | succ allowance =>
      rw [ha, Linking.fetch, Linking.fetchBy_of_vacant _ vacant] at hr
      cases hl : s.loader with
      | none =>
          have nothing : s.publishedFor name = [] := by rw [publishedFor, hl]
          simp only [Linking.attempt, Linking.callAnyLoader, change, hl] at hr
          obtain rfl := (Prod.mk.inj hr).2
          exact ⟨rfl, fun other => (if_pos nothing).symm⟩
      | some loader =>
          have published : s.publishedFor name =
              (loader.definition name).publications ((s.change .enter).opened name) := by
            simp only [publishedFor, hl, ha, Nat.add_one_ne_zero, if_false]
          obtain ⟨e', v, ran, tried⟩ := Linking.run_of_abandons (abandons loader hl)
            (Linking.fetch allowance) ((s.change .enter).opened name)
          rw [Linking.attempt_of_error (s := s.change .enter) hl ran] at hr
          obtain rfl := (Prod.mk.inj hr).2
          rw [published]
          exact ⟨tried.modules_withdrawn unpublished e', tried.graph_withdrawn unpublished e'⟩

/-- A load from outside that fails, with its module published any number of times and abandoned,
leaves the published modules as they were, and every dependency list, so that there is a load order
just if there was one. It leaves entries of the modules imported from, and takes the entry of its own
name. So the graph is as it was just if those had entries already, and this one had none. -/
theorem failed_load_withdrawn {s t : Session σ} {name : String} {e : LinkError}
    (seen : Observable s) (idle : s.registry.Idle)
    (abandons : ∀ loader, s.loader = some loader → (loader.definition name).Abandons name)
    (failed : s.load name = (.error e, t)) :
    let published := s.publishedFor name
    let imported := published.flatMap Module.sources
    t.registry.modules = s.registry.modules ∧
      (∀ other, t.registry.graph.successors other = s.registry.graph.successors other) ∧
      ((∃ order, t.registry.loadOrder = .ok order) ↔ ∃ order, s.registry.loadOrder = .ok order) ∧
      (∀ other, other ∈ t.registry.graph.modules ↔
        other ∈ s.registry.graph.modules ∧ (other = name → published = []) ∨
          other ∈ imported ∧ other ≠ name) ∧
      (t.registry.graph = s.registry.graph ↔ published = [] ∨
        name ∉ s.registry.graph.modules ∧
          ∀ source ∈ imported, source ≠ name → source ∈ s.registry.graph.modules) := by
  intro published imported
  obtain ⟨unpublished, modules, withdrawn⟩ :=
    Session.withdrawn_of_load seen idle abandons failed
  have none := (coherent_of_observable seen).successors_of_unpublished unpublished
  have lists := withdrawn.successors_eq none
  have edges : t.registry.graph.DependsOn = s.registry.graph.DependsOn := by
    funext module dependency
    rw [Graph.DependsOn, lists, Graph.DependsOn]
  refine ⟨modules, lists, ?_, fun other => withdrawn.mem_modules_iff, withdrawn.eq_iff⟩
  simp only [Registry.loadOrder, Graph.exists_dependencyOrder_iff, Graph.Acyclic, edges]

def Loader.abandoning : Loader Unit where
  offers name := name == "N"
  definition name := .publish ⟨name, [⟨"Z", "x"⟩], ∅⟩ fun _ => .fail (.definition name "late")

def Session.awaiting : Session Unit :=
  (start {} (some .abandoning) ()).afterAll [.publish ⟨"A", [⟨"N", "x"⟩], ∅⟩]

theorem Session.observable_awaiting : Observable awaiting := observable_afterAll {} _ () _

theorem Session.abandons_awaiting (name : String) (loader : Loader Unit)
    (hl : awaiting.loader = some loader) : (loader.definition name).Abandons name := by
  obtain rfl := Option.some.inj hl
  exact .publish rfl fun _ => .fail _

/-- The load of that module takes its entry out of the graph, and leaves one of the module that its
definition imported from. -/
theorem graph_after_failed_load :
    ¬ ∀ (s t : Session Unit) (name : String) (e : LinkError), Observable s → s.registry.Idle →
      (∀ loader, s.loader = some loader → (loader.definition name).Abandons name) →
      s.load name = (.error e, t) → t.registry.modules = s.registry.modules ∧
        t.registry.graph = s.registry.graph ∧ t.registry.loadOrder = s.registry.loadOrder := by
  intro restored
  have failed : Session.awaiting.load "N" =
      (.error (.definition "N" "late"), (Session.awaiting.load "N").2) := rfl
  have same := (restored _ _ "N" _ Session.observable_awaiting ⟨rfl, rfl, rfl⟩
    (Session.abandons_awaiting "N") failed).2.1
  have before : Session.awaiting.registry.graph.modules = ["A", "N"] := by decide
  have after : (Session.awaiting.load "N").2.registry.graph.modules = ["A", "Z"] := by decide
  rw [same, before] at after
  exact absurd after (by decide)

theorem failed_load_withdrawn_of_abandoning :
    let t := (Session.awaiting.load "N").2
    Session.awaiting.publishedFor "N" ≠ [] ∧
      t.registry.modules = Session.awaiting.registry.modules ∧
      t.registry.graph.successors "A" = ["N"] ∧ t.registry.graph.modules = ["A", "Z"] ∧
      t.registry.graph ≠ Session.awaiting.registry.graph := by
  have failed : Session.awaiting.load "N" =
      (.error (.definition "N" "late"), (Session.awaiting.load "N").2) := rfl
  obtain ⟨modules, lists, -, -, same⟩ := failed_load_withdrawn Session.observable_awaiting
    ⟨rfl, rfl, rfl⟩ (Session.abandons_awaiting "N") failed
  have published : Session.awaiting.publishedFor "N" ≠ [] := List.cons_ne_nil _ _
  refine ⟨published, modules, (lists "A").trans (by decide), by decide, fun heq => ?_⟩
  rcases same.mp heq with nothing | ⟨new, _⟩
  · exact published nothing
  · exact absurd new (by decide)

end MibLinker
