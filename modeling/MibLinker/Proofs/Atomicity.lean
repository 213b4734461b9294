import MibLinker.Proofs.Answers
import MibLinker.Proofs.Machine.Bodies
import MibLinker.Proofs.Permanence
import MibLinker.Proofs.Steadiness

/-!
# Building is all or nothing

While a module is under construction its name is on the load stack, so that no load of it begins,
and none can fail or be withdrawn. Unless a definition publishes under the name, the tables go on
holding what they held about it, whatever is loaded for its imports. A build then replaces all of
that at once, or nothing of it.
-/

namespace MibLinker

variable {σ : Type}

namespace Session

/-- Whether the tables of two sessions hold the same about a name: its publication, its failure, and
what it depends on. The graph may have got an entry for the name, if it had none. -/
structure SameRecord (name : String) (s t : Session σ) : Prop where
  module : t.registry.module? name = s.registry.module? name
  failure : t.registry.failures[name]? = s.registry.failures[name]?
  dependencies : t.registry.graph.dependencies name = s.registry.graph.dependencies name ∨
    s.registry.graph.dependencies name = none ∧ t.registry.graph.dependencies name = some []

namespace SameRecord

variable {name : String} {s t u : Session σ}

theorem refl (name : String) (s : Session σ) : s.SameRecord name s := ⟨rfl, rfl, .inl rfl⟩

theorem trans (first : s.SameRecord name t) (second : t.SameRecord name u) :
    s.SameRecord name u where
  module := second.module.trans first.module
  failure := second.failure.trans first.failure
  dependencies := by
    rcases second.dependencies with same | ⟨none, some⟩
    · rw [same]
      exact first.dependencies
    · rcases first.dependencies with before | ⟨_, entry⟩
      · exact .inr ⟨before ▸ none, some⟩
      · rw [none] at entry
        cases entry

theorem successors (h : s.SameRecord name t) :
    t.registry.graph.successors name = s.registry.graph.successors name := by
  rw [Graph.successors, Graph.successors]
  rcases h.dependencies with same | ⟨none, some⟩
  · rw [same]
  · rw [none, some, Option.getD_none, Option.getD_some]

theorem lastFailure? (h : s.SameRecord name t) :
    t.registry.lastFailure? name = s.registry.lastFailure? name := by
  rw [Registry.lastFailure?, h.failure, Registry.lastFailure?]

end SameRecord

/-- A publication under another name gives an entry at most. -/
theorem sameRecord_publish (s : Session σ) {m : Module} {name : String} (h : m.name ≠ name) :
    s.SameRecord name (s.publish m).2 where
  module := (module?_publish s m name).trans (if_neg h)
  failure := (Registry.failures_publish s.registry m name).trans (if_neg h)
  dependencies := by
    have graph : (s.publish m).2.registry.graph =
        s.registry.graph.setDependencies m.name m.sources := rfl
    rw [graph, Graph.dependencies_setDependencies, if_neg h]
    split
    · rw [Graph.successors]
      cases s.registry.graph.dependencies name with
      | none => exact .inr ⟨rfl, rfl⟩
      | some deps => exact .inl rfl
    · exact .inl rfl

theorem sameRecord_recordFailure (s : Session σ) {failed name : String} (e : LinkError)
    (h : failed ≠ name) : s.SameRecord name (s.recordFailure failed e) where
  module := rfl
  failure := (Registry.failures_recordFailure s.registry failed name e).trans (if_neg h)
  dependencies := .inl rfl

theorem sameRecord_discard (s : Session σ) {discarded name : String} (h : discarded ≠ name) :
    s.SameRecord name (s.discard discarded) := by
  refine ⟨(module?_discard s discarded name).trans (if_neg h), ?_, .inl ?_⟩
  · unfold discard
    split <;> rfl
  · unfold discard
    split
    · exact (Graph.dependencies_removeModule s.registry.graph discarded name).trans (if_neg h)
    · rfl

/-! ## Names on the load stack -/

/-- What a run does about a name that is on the load stack: what the tables hold about it stays as
it is, unless something is published under the name. -/
structure Spares (name : String) (earlier later : Session σ) : Prop where
  grows : earlier.Grows later
  steady : earlier.Steady later
  spared : name ∈ earlier.registry.loading →
    (∀ e ∈ later.since earlier, e.publishes name = false) → earlier.SameRecord name later

theorem Spares.of_same {name : String} {s t : Session σ} (grows : s.Grows t) (steady : s.Steady t)
    (same : s.SameRecord name t) : s.Spares name t := ⟨grows, steady, fun _ _ => same⟩

/-- Every part of linking spares what is on the load stack: loads begin, and fail, under other
names. -/
theorem lawful_spares (name : String) : Lawful (Spares (σ := σ) name) where
  refl s := .of_same (.refl s) (.refl s) (.refl name s)
  trans first second := by
    refine ⟨first.grows.trans second.grows, first.steady.trans second.steady,
      fun stacked quiet => ?_⟩
    rw [since_trans first.grows second.grows] at quiet
    have before := first.spared stacked fun e he => quiet e (List.mem_append_right _ he)
    have still : name ∈ _ := first.steady.loading.symm ▸ stacked
    exact before.trans (second.spared still fun e he => quiet e (List.mem_append_left _ he))
  find s module symbol kind := .of_same (grows_log s _) (lawful_steady.find s module symbol kind)
    ⟨rfl, rfl, .inl rfl⟩
  frame inside := ⟨inside.grows, inside.steady.frame, fun stacked quiet =>
    have same := inside.spared stacked quiet
    ⟨same.module, same.failure, same.dependencies⟩⟩
  construct _ inside := ⟨inside.grows, inside.steady.pop, fun stacked quiet =>
    have same := inside.spared (List.mem_append_left _ stacked) quiet
    ⟨same.module, same.failure, same.dependencies⟩⟩
  publish s m := by
    refine ⟨grows_publish s m, lawful_steady.publish s m, fun _ quiet => ?_⟩
    refine sameRecord_publish s ?_
    rintro rfl
    have told := quiet _ (since_publish s m ▸ List.mem_singleton_self _)
    rw [Registry.publishes_publishEvent] at told
    cases told
  replace s loader := .of_same (lawful_grows.replace s loader) (lawful_steady.replace s loader)
    ⟨rfl, rfl, .inl rfl⟩
  desk s desk := .of_same (grows_withDesk s desk) (lawful_steady.desk s desk) ⟨rfl, rfl, .inl rfl⟩
  absent {s absent} vacant hl := by
    refine ⟨lawful_grows.absent vacant hl, lawful_steady.absent vacant hl, fun stacked _ => ?_⟩
    exact sameRecord_recordFailure s _ fun heq => vacant.offStack (heq ▸ stacked)
  failed {s t failed} e vacant inside := by
    refine ⟨lawful_grows.failed e vacant inside.grows, lawful_steady.failed e vacant inside.steady,
      fun stacked quiet => ?_⟩
    have hne : failed ≠ name := fun heq => vacant.offStack (heq ▸ stacked)
    have same := inside.spared (List.mem_append_left _ stacked) fun entry he =>
      quiet entry (mem_since (grows_opened s failed) inside.grows (grows_withdraw t failed e) he)
    have closed : s.SameRecord name t.closed := ⟨same.module, same.failure, same.dependencies⟩
    have withdrawn := closed.trans (sameRecord_discard t.closed hne)
    exact withdrawn.trans (sameRecord_recordFailure _ e hne)
  loaded {s t loaded m} vacant inside hm := by
    refine ⟨lawful_grows.loaded vacant inside.grows hm,
      lawful_steady.loaded vacant inside.steady hm, fun stacked quiet => ?_⟩
    have same := inside.spared (List.mem_append_left _ stacked) fun entry he =>
      quiet entry (mem_since (grows_opened s loaded) inside.grows (grows_log t (.loaded loaded)) he)
    exact ⟨same.module, same.failure, same.dependencies⟩

end Session

/-- Resolving the imports of a module leaves the tables as they are about the module itself. -/
theorem Linking.sameRecord_of_resolveFrom (allowance : Nat) (requester : String)
    (imports : List Import) (s : Session σ)
    (quiet : ∀ e ∈ (resolveFrom (fetch allowance) requester imports s).2.since s,
      e.publishes requester = false) :
    s.SameRecord requester (resolveFrom (fetch allowance) requester imports s).2 := by
  have spares := Session.lawful_spares (σ := σ) requester
  unfold resolveFrom at quiet ⊢
  split
  · next stacked =>
      rw [if_pos stacked] at quiet
      exact (spares.resolve (spares.fetch allowance) imports s).spared stacked quiet
  · next offStack =>
      rw [if_neg offStack] at quiet
      have inside := spares.resolve (spares.fetch allowance) imports (s.change (·.push requester))
      have same := inside.spared (List.mem_append_right _ (.head _)) quiet
      exact ⟨same.module, same.failure, same.dependencies⟩

/-! ## Builds -/

/-- What the tables hold about a module right after its publication. -/
theorem Session.record_of_publish (s : Session σ) (m : Module) :
    (s.publish m).2.registry.module? m.name = some (s.publish m).1 ∧
      (s.publish m).2.registry.lastFailure? m.name = none ∧
      (s.publish m).2.registry.graph.dependencies m.name = some m.sources.eraseDups := by
  refine ⟨(module?_publish s m m.name).trans (if_pos rfl), ?_, ?_⟩
  · rw [Registry.lastFailure?]
    exact congrArg _ ((Registry.failures_publish s.registry m m.name).trans (if_pos rfl))
  · have graph : (s.publish m).2.registry.graph =
        s.registry.graph.setDependencies m.name m.sources := rfl
    rw [graph, Graph.dependencies_setDependencies, if_pos rfl]

/-- A build is all or nothing, whatever is loaded for the imports of the module, as long as no
definition publishes under its name meanwhile. The body is run once, with the resolved imports, or
not at all if one of them is not resolved. If the build fails, the module is what it was, or still
not there; so are its dependencies, and its last failure. If it succeeds, the module that it answers
with is published, with the imports that were asked for and the exports that the body made of them;
it depends on the modules of its imports, and no failure of it is remembered. -/
theorem build_atomic (s : Session σ) (b : Builder) (body : Body σ)
    (quiet : ∀ e ∈ (s.resolveFrom b.name b.imports).2.since s, e.publishes b.name = false) :
    let resolved := s.resolveFrom b.name b.imports
    let built := s.build b body
    (∀ bodies, (Machine.working (.build b body) .nil s).Runs bodies
        (.answering (j := .module) built.1 .nil built.2) ↔
      bodies = match resolved.1 with
        | .ok symbols => [b.resolved symbols]
        | .error _ => []) ∧
    (∀ e, built.1 = .error e →
      built.2.registry.module? b.name = s.registry.module? b.name ∧
      built.2.registry.graph.successors b.name = s.registry.graph.successors b.name ∧
      built.2.registry.lastFailure? b.name = s.registry.lastFailure? b.name) ∧
    ∀ m, built.1 = .ok m →
      built.2.registry.module? b.name = some m ∧
      m.value.name = b.name ∧ m.value.imports = b.imports ∧
      (∃ symbols, resolved.1 = .ok symbols ∧
        ((body (b.resolved symbols)).run resolved.2.desk).1 = .ok m.value.exports) ∧
      (∃ dependencies, built.2.registry.graph.dependencies b.name = some dependencies ∧
        FirstOccurrences (b.imports.map Import.module) dependencies) ∧
      built.2.registry.lastFailure? b.name = none := by
  intro resolved built
  have same : s.SameRecord b.name resolved.2 :=
    Linking.sameRecord_of_resolveFrom s.registry.allowance b.name b.imports s quiet
  refine ⟨Job.runs_of_build b body s, fun e failed => ?_, fun m published => ?_⟩
  · have ended : built.2.registry = resolved.2.registry :=
      (Linking.registry_of_build s.fetch b body s).1 e failed
    rw [ended]
    exact ⟨same.module, same.successors, same.lastFailure?⟩
  · rcases Linking.build_cases s.fetch b body s with
      ⟨e', t, hr, hb⟩ | ⟨symbols, t, hr, ⟨e', desk, _, hb⟩ | ⟨exports, desk, made, hb⟩⟩
    · cases (congrArg Prod.fst hb).symm.trans published
    · cases (congrArg Prod.fst hb).symm.trans published
    · obtain rfl := Except.ok.inj ((congrArg Prod.fst hb).symm.trans published)
      obtain ⟨there, unfailed, listed⟩ :=
        Session.record_of_publish (t.withDesk desk) (b.module exports)
      have after : built.2 = ((t.withDesk desk).publish (b.module exports)).2 :=
        congrArg Prod.snd hb
      have answered : resolved = (.ok symbols, t) := hr
      rw [after, answered]
      exact ⟨there, rfl, rfl, ⟨symbols, rfl, congrArg Prod.fst made⟩,
        ⟨_, listed, firstOccurrences_eraseDups _⟩, unfailed⟩

/-- A session in which a module has been published that can be built again, and one of its imports
can be found, and the other only fails to be loaded. -/
def Session.withDraft : Session Unit := (withPublication.publish (.ofExports "M" .single)).2

/-- The failing load publishes its own module and has it withdrawn, and the module under
construction stays the object that it was. Without that import it is built, and is a new object. -/
theorem build_atomic_of_draft :
    let body : Body Unit := fun _ => .ofResult (.ok .single)
    let failed := Session.withDraft.build ⟨"M", [⟨"B", "x"⟩, ⟨"A", "y"⟩]⟩ body
    let built := Session.withDraft.build ⟨"M", [⟨"B", "x"⟩]⟩ body
    (failed.1 = .error (.moduleNotFound "B") ∧
      (Machine.working (.build ⟨"M", [⟨"B", "x"⟩, ⟨"A", "y"⟩]⟩ body) .nil .withDraft).Runs []
        (.answering (j := .module) failed.1 .nil failed.2) ∧
      failed.2.registry.module? "M" = some ⟨1, .ofExports "M" .single⟩) ∧
    built.1 = .ok ⟨2, ⟨"M", [⟨"B", "x"⟩], .single⟩⟩ ∧
      built.2.registry.module? "M" = some ⟨2, ⟨"M", [⟨"B", "x"⟩], .single⟩⟩ ∧
      built.2.registry.lastFailure? "M" = none := by
  intro body failed built
  have refused : failed.1 = .error (.moduleNotFound "B") := rfl
  have answered : built.1 = .ok ⟨2, ⟨"M", [⟨"B", "x"⟩], .single⟩⟩ := rfl
  obtain ⟨ran, kept, -⟩ := build_atomic .withDraft ⟨"M", [⟨"B", "x"⟩, ⟨"A", "y"⟩]⟩ body (by decide)
  obtain ⟨-, -, published⟩ := build_atomic .withDraft ⟨"M", [⟨"B", "x"⟩]⟩ body (by decide)
  obtain ⟨there, -, -, -, -, unfailed⟩ := published _ answered
  exact ⟨⟨refused, (ran []).mpr rfl, (kept _ refused).1⟩, answered, there, unfailed⟩

end MibLinker
