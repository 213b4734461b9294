import MibLinker.Proofs.Blueprint.Agreement
import MibLinker.Proofs.Blueprint.Contents
import MibLinker.Proofs.LoadOrder

/-!
# Replaying a load order

Definitions that are run in a load order find all that they import published by the ones before
them, so it takes no loader to run them again.
-/

namespace MibLinker

variable {σ : Type}

def Session.runEach : List (Script σ) → Request σ Unit
  | [], s => (.ok (), s)
  | script :: rest, s =>
      match s.run script with
      | (.error e, s) => (.error e, s)
      | (.ok _, s) => runEach rest s

namespace Blueprints

variable {T : Blueprints} {s t : Session σ} {name : String} {b : Blueprint}

/-! ## One step -/

/-- A definition whose imports are all there succeeds. -/
theorem build_ok_of_finds (allowance : Nat) (name : String)
    (found : ∀ i ∈ b.imports, s.Finds i) :
    ∃ m, (Linking.build (Linking.fetch allowance) ⟨name, b.imports⟩
      (fun _ => .ofResult (.ok b.exports)) s).1 = .ok m := by
  have same : s.SameStock ((s.constructing name).change .enter) :=
    (Session.sameStock_constructing s name).trans ⟨rfl, rfl, rfl, rfl⟩
  obtain ⟨symbols, u, resolved, -⟩ := Linking.resolveEach_of_exported allowance
    fun i hi => (same.finds_iff.mpr (found i hi)).exported
  obtain ⟨ended, _, hr⟩ :=
    Linking.exists_resolveFrom_eq (Linking.fetch allowance) name b.imports s
  rw [resolved] at hr
  simp only [Linking.build, hr]
  exact ⟨_, rfl⟩

/-- It publishes its own module and no other, since all that its imports reach is published. -/
theorem run_of_finds (h : s.Layered T.discipline) (hb : T[name]? = some b)
    (new : s.registry.module? name = none) (found : ∀ i ∈ b.imports, s.Finds i) :
    ∃ u, s.run (b.script name) = (.ok (), u) ∧ u.Layered T.discipline ∧ (s.Charted → u.Charted) ∧
      ∀ other, u.registry.isLoaded other = true ↔
        s.registry.isLoaded other = true ∨ other = name := by
  let body : Body σ := fun _ => .ofResult (.ok b.exports)
  have ran : s.run (b.script name) = ((s.build ⟨name, b.imports⟩ body).1.map fun _ => (),
      (s.build ⟨name, b.imports⟩ body).2) := by
    rw [Session.run, Blueprint.script, Script.ofBuilder, Linking.run_build]
    rfl
  obtain ⟨built, -⟩ := Linking.build_accrues (Linking.fetch_accrues s.registry.allowance)
    (allows_of_some hb) h.follows new List.not_mem_nil (List.nil_subset _)
  obtain ⟨m, ok⟩ := build_ok_of_finds s.registry.allowance name found
  have succeeded : s.build ⟨name, b.imports⟩ body = (.ok m, (s.build ⟨name, b.imports⟩ body).2) :=
    Prod.ext ok rfl
  refine ⟨(s.build ⟨name, b.imports⟩ body).2, ?_, built.layered h, built.charted,
    fun other => ⟨fun published => ?_, ?_⟩⟩
  · rw [ran, succeeded]
    rfl
  · rcases built.reached published with before | ⟨-, root, hroot, reaches⟩
    · exact .inl before
    · obtain rfl := List.mem_singleton.mp hroot
      rcases Relation.ReflTransGen.cases_head reaches with rfl | ⟨_, needs, onward⟩
      · exact .inr rfl
      · obtain ⟨b', hb', i, hi, rfl⟩ := needs
        obtain rfl := Option.some.inj (hb'.symm.trans hb)
        exact .inl (h.isLoaded_of_reaches T.exact_discipline (found i hi).isLoaded onward)
  · rintro (before | rfl)
    · exact built.isLoaded before
    · exact Registry.isLoaded_iff.mpr ⟨m, Linking.module?_of_build succeeded⟩

/-! ## All steps -/

/-- A load order has every definition run after those of the modules that it imports from. -/
theorem runEach_of_orders {σ' : Type} {s : Session σ'} {t : Session σ} {done rest : List String}
    (h : s.Layered T.discipline) (charted : s.Charted)
    (orders : s.registry.graph.Orders (done ++ rest)) (h' : t.Layered T.discipline)
    (sofar : ∀ other, t.registry.isLoaded other = true ↔ other ∈ done) :
    ∃ u, Session.runEach (rest.map (T.loader : Loader σ).definition) t = (.ok (), u) ∧
      u.Layered T.discipline ∧ (t.Charted → u.Charted) ∧
      ∀ other, u.registry.isLoaded other = true ↔ s.registry.isLoaded other = true := by
  induction rest generalizing t done with
  | nil =>
      refine ⟨t, rfl, h', fun charted' => charted', fun other => ?_⟩
      rw [sofar, ← h.mem_names_iff charted, ← orders.mem_iff, List.append_nil]
  | cons name rest ih =>
      have published : s.registry.isLoaded name = true := by
        rw [← h.mem_names_iff charted, ← orders.mem_iff]
        simp
      obtain ⟨m, hm⟩ := Registry.isLoaded_iff.mp published
      obtain ⟨b, hb, hv⟩ := h.made hm
      have new : t.registry.module? name = none := by
        apply Registry.isLoaded_eq_false_iff.mp
        refine Bool.eq_false_iff.mpr fun hl => ?_
        have twice := (List.nodup_append.mp orders.nodup).2.2 name ((sofar name).mp hl) name
        exact twice (.head _) rfl
      have found : ∀ i ∈ b.imports, t.Finds i := by
        intro i hi
        have imported : i ∈ m.value.imports := by
          rw [hv]
          exact hi
        apply finds_of_exports h'
        · rw [sofar]
          exact orders.ordered done name rest rfl _ (charted.dependsOn_of_import hm imported)
        · exact exports_of_finds h (h.imported hm imported).1
      obtain ⟨u, ran, layered, charts, after⟩ := run_of_finds h' hb new found
      have next : ∀ other, u.registry.isLoaded other = true ↔ other ∈ done ++ [name] := by
        intro other
        rw [after, sofar]
        simp
      rw [List.append_cons] at orders
      obtain ⟨v, others, layered', charts', ended⟩ := ih orders layered next
      refine ⟨v, ?_, layered', fun charted' => charts' (charts charted'), ended⟩
      rw [List.map_cons, definition_of_some hb]
      simp only [Session.runEach, ran, others]

/-- Whatever was loaded and resolved from a table of blueprints, there is a load order, and the
definitions can be run in that order in an empty registry without a loader. They all succeed, and in
the end the same modules are published, with the same imports and exports, and the dependency graph
is the same. -/
theorem loadOrder_replayable (T : Blueprints) (options : Options) (data : σ) (history : List Call)
    (options' : Options) (data' : σ) :
    let s := (Session.start options (some T.loader) data).afterAll (history.map .call)
    ∃ order replayed, s.registry.loadOrder = .ok order ∧
      Session.runEach (order.map (T.loader : Loader σ).definition) (.start options' none data') =
        (.ok (), replayed) ∧
      replayed.registry.moduleNames = s.registry.moduleNames ∧
      replayed.registry.contents = s.registry.contents ∧
      replayed.registry.graph = s.registry.graph := by
  intro s
  have grown := (T.layered_start options data).afterAll history
  have layered : s.Layered T.discipline := grown.layered
  have charted : s.Charted := grown.charted .start
  obtain ⟨order, ho, _, orders⟩ := layered.exists_loadOrder charted
  have empty : (Session.start options' none data').Layered T.discipline := by
    apply Session.Layered.start
    intro l hl
    cases hl
  have nothing : ∀ other, (Session.start options' none data').registry.isLoaded other = true ↔
      other ∈ ([] : List String) := by
    simp [Session.start, Registry.ofOptions, Registry.isLoaded]
  have all : s.registry.graph.Orders ([] ++ order) := orders
  obtain ⟨replayed, ran, layered', charts, published⟩ :=
    runEach_of_orders layered charted all empty nothing
  have contents : replayed.registry.contents = s.registry.contents :=
    contents_eq layered' layered published
  refine ⟨order, replayed, ho, ran, ?_, contents, (charts .start).graph_eq charted contents⟩
  rw [← Registry.keys_contents, contents, Registry.keys_contents]

/-- A failed load leaves the shared source published, which comes first in the order. The replay does
without the failure, and without room for a single loader call. -/
theorem loadOrder_replayable_on_diamond :
    let s := (Session.start {} (some diamond.loader) ()).afterAll
      [.call (.load "E"), .call (.load "A")]
    let order := ["D", "B", "C", "A"]
    s.registry.lastFailure? "E" = some (.moduleNotFound "F") ∧ s.registry.loadOrder = .ok order ∧
      ∃ replayed, Session.runEach (order.map (diamond.loader : Loader Unit).definition)
          (.start { maxLoadDepth := 0 } none ()) = (.ok (), replayed) ∧
        replayed.registry.moduleNames = ["A", "B", "C", "D"] ∧
        replayed.registry.contents = s.registry.contents ∧
        replayed.registry.graph = s.registry.graph := by
  intro s order
  obtain ⟨order', replayed, ordered, ran, names, contents, graph⟩ :=
    loadOrder_replayable (σ := Unit) diamond {} () [.load "E", .load "A"] { maxLoadDepth := 0 } ()
  have known : s.registry.loadOrder = .ok order := rfl
  obtain rfl : order' = order := Except.ok.inj (ordered.symm.trans known)
  exact ⟨by decide, known, replayed, ran, names, contents, graph⟩

end Blueprints

end MibLinker
