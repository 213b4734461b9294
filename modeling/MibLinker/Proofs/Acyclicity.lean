import MibLinker.Proofs.Building.Return
import MibLinker.Proofs.Graph.Changes
import MibLinker.Proofs.LoadOrder
import MibLinker.Proofs.Retry

/-!
# When a build closes a cycle

A request for a published module is answered at once, whatever is under construction. So a chain of
imports back to the module under construction is noticed where it asks for that module while it is
not published, and not where it goes along modules that are published already: building a published
module again replaces its imports, and may close a cycle with the modules that import from it.
-/

namespace MibLinker

variable {σ : Type}

/-! ## Modules that others wait for -/

namespace Session

/-- Whether a module is not published, and another one that is depends on it. -/
def Awaited (s : Session σ) (name : String) : Prop :=
  s.registry.isLoaded name = false ∧ ∃ importer, s.registry.graph.DependsOn importer name

variable {D : Discipline} {busy requested : List String} {s t : Session σ}

/-- A module whose imports are found closes no cycle when nothing waits for it. -/
theorem acyclic_publish {m : Module} (acyclic : s.registry.graph.Acyclic)
    (new : s.registry.isLoaded m.name = false) (unawaited : ¬ s.Awaited m.name)
    (found : ∀ i ∈ m.imports, s.Finds i) : (s.publish m).2.registry.graph.Acyclic := by
  have alone : ∀ importer, ¬ s.registry.graph.DependsOn importer m.name :=
    fun importer dep => unawaited ⟨new, importer, dep⟩
  exact Graph.acyclic_setDependencies acyclic alone (not_imported_of_finds found new)

theorem awaited_of_publish {m : Module} {name : String} (found : ∀ i ∈ m.imports, s.Finds i)
    (h : (s.publish m).2.Awaited name) : s.Awaited name := by
  obtain ⟨unpublished, importer, dep⟩ := h
  have before : s.registry.isLoaded name = false := Bool.eq_false_iff.mpr fun published =>
    Bool.eq_false_iff.mp unpublished ((isLoaded_publish s m name).mpr (.inl published))
  have edge := Graph.dependsOn_setDependencies.mp dep
  split at edge
  · exact (not_imported_of_finds found before edge).elim
  · exact ⟨before, importer, edge⟩

/-- As publications accrue the graph stays acyclic, as long as none of them is waited for; and no
more modules are waited for. -/
theorem Accrues.acyclic (h : s.Accrues D busy requested t) (acyclic : s.registry.graph.Acyclic)
    (unawaited : ∀ name, s.Awaited name → t.registry.isLoaded name = false) :
    t.registry.graph.Acyclic ∧ ∀ name, t.Awaited name → s.Awaited name := by
  induction h with
  | @same s t stock =>
      refine ⟨stock.graph ▸ acyclic, fun name ⟨unpublished, importer, dep⟩ => ?_⟩
      exact ⟨stock.isLoaded_eq name ▸ unpublished, importer, stock.graph ▸ dep⟩
  | @publish s m _ _ _ new found =>
      have unpublished := Registry.isLoaded_eq_false_iff.mpr new
      have alone : ¬ s.Awaited m.name := fun awaited => Bool.eq_false_iff.mp
        (unawaited m.name awaited) ((isLoaded_publish s m m.name).mpr (.inr rfl))
      exact ⟨acyclic_publish acyclic unpublished alone found,
        fun name => awaited_of_publish found⟩
  | @trans s t u first second ihFirst ihSecond =>
      obtain ⟨acyclic, fewer⟩ := ihFirst acyclic fun name awaited =>
        second.unpublished_before (unawaited name awaited)
      obtain ⟨acyclic, fewer'⟩ := ihSecond acyclic fun name awaited =>
        unawaited name (fewer name awaited)
      exact ⟨acyclic, fun name awaited => fewer name (fewer' name awaited)⟩

/-- Where modules have only been built, after all that they import from, none is waited for. -/
theorem Layered.not_awaited (layered : s.Layered D) (charted : s.Charted) (name : String) :
    ¬ s.Awaited name := by
  rintro ⟨unpublished, importer, dep⟩
  obtain ⟨_, m, _, hm, _⟩ := layered.earlier_of_dependsOn charted dep
  rw [Registry.isLoaded_iff.mpr ⟨m, hm⟩] at unpublished
  cases unpublished

end Session

/-! ## Builds -/

/-- No load of a module has failed yet in a request from outside that begins, nor in one that goes
on without such a failure. -/
theorem Observable.unfailed_enter {s : Session σ} {name : String} (seen : Observable s)
    (unfailed : s.registry.depth = 0 ∨ s.registry.freshFailure? name = none) :
    s.registry.enter.freshFailure? name = none := by
  rcases Nat.eq_zero_or_pos s.registry.depth with outside | inside
  · exact seen.dated.freshFailure?_enter outside name
  · have fresh := unfailed.resolve_left (Nat.ne_of_gt inside)
    exact (Session.freshFailure?_enter inside name).trans fresh

/-- A new module is under construction when its imports begin to be found. -/
theorem Session.underway_of_new {D : Discipline} {s : Session σ} (seen : Observable s)
    (follows : ∀ {loader}, s.loader = some loader → loader.Follows D) (b : Builder)
    (new : s.registry.isLoaded b.name = false)
    (unfailed : s.registry.depth = 0 ∨ s.registry.freshFailure? b.name = none) :
    ((Call.resolveFrom b.name b.imports).moment s.registry.allowance s).Underway D b.name := by
  have same := sameStock_constructing s b.name
  have entered := seen.unfailed_enter unfailed
  have nodup := seen.nodup_loading
  refine ⟨⟨fun hl => follows (same.loader ▸ hl), Nat.succ_pos _, ?_,
    mem_loading_constructing s b.name,
    (same.module? b.name).trans (Registry.isLoaded_eq_false_iff.mp new), ?_⟩, nofun⟩
  · show (s.constructing b.name).registry.loading.Nodup
    unfold constructing
    split
    · exact nodup
    · next offStack => exact Registry.nodup_push nodup offStack
  · show (s.constructing b.name).registry.enter.freshFailure? b.name = none
    unfold constructing
    split <;> exact entered

/-- A build whose imports lead back to the module under construction, not published so far, fails
with the cycle. -/
theorem Session.cycle_of_build {D : Discipline} {s : Session σ} (b : Builder) (body : Body σ)
    {m : Moment σ}
    (h : ((Call.resolveFrom b.name b.imports).moment s.registry.allowance s).Underway D b.name)
    (within : Within ((Call.resolveFrom b.name b.imports).moment s.registry.allowance s) m)
    (requested : m.task = .fetch b.name) :
    ∃ path, (s.build b body).1 = .error (.circularDependency path) ∧
      Circuit (fun _ _ => True) path ∧ path.head? = some b.name := by
  obtain ⟨path, failed, circuit⟩ := h.failsWith_cycle within requested
  refine ⟨path, ?_, circuit⟩
  have refused : (s.resolveFrom b.name b.imports).1 = .error (.circularDependency path) := by
    rw [Session.resolveFrom, Linking.resolveFrom_eq_finish]
    exact failed
  rcases Linking.build_cases s.fetch b body s with ⟨e, t, hr, hb⟩ | ⟨symbols, t, hr, -⟩
  · obtain rfl := Except.error.inj ((congrArg Prod.fst hr).symm.trans refused)
    exact congrArg Prod.fst hb
  · cases (congrArg Prod.fst hr).symm.trans refused

/-- What a build makes of an acyclic graph, when definitions only build. Unless a module is loaded
meanwhile that a published one was waiting for, the graph stays acyclic while the imports are found;
so a build that fails closes no cycle, and one that succeeds closes one just if an import leads back
to the module along modules that are published by then. That takes a module which was published
before, or which a published one was waiting for. A build that fails leaves its module as it was,
with what it depended on. It fails with the cycle if the module was not published and is requested
on the way. -/
theorem build_acyclic_iff {s : Session σ} (seen : Observable s)
    (follows : ∀ {loader}, s.loader = some loader → loader.Follows .free)
    (acyclic : s.registry.graph.Acyclic) (b : Builder) (body : Body σ) :
    let resolved := s.resolveFrom b.name b.imports
    let built := s.build b body
    ((∀ name, s.Awaited name → resolved.2.registry.isLoaded name = false) →
      (∀ e, built.1 = .error e → built.2.registry.graph.Acyclic) ∧
      ∀ m, built.1 = .ok m →
        (built.2.registry.graph.Acyclic ↔ ∀ i ∈ b.imports,
          ¬ Relation.ReflTransGen resolved.2.registry.graph.DependsOn i.module b.name) ∧
        (s.registry.isLoaded b.name = false → ¬ s.Awaited b.name →
          built.2.registry.graph.Acyclic)) ∧
    (∀ e, built.1 = .error e →
      built.2.registry.module? b.name = s.registry.module? b.name ∧
      built.2.registry.graph.successors b.name = s.registry.graph.successors b.name) ∧
    (s.registry.isLoaded b.name = false →
      s.registry.depth = 0 ∨ s.registry.freshFailure? b.name = none →
      ∀ m, Within ((Call.resolveFrom b.name b.imports).moment s.registry.allowance s) m →
        m.task = .fetch b.name →
        ∃ path, built.1 = .error (.circularDependency path) ∧ 2 ≤ path.length ∧
          path.head? = some b.name ∧ path.getLast? = some b.name ∧ path.dropLast.Nodup) := by
  intro resolved built
  have accruing : Linking.Accruing σ .free s.registry.allowance := Linking.fetch_accrues _
  obtain ⟨accrues, found⟩ : s.Accrues .free _ _ resolved.2 ∧ _ :=
    Linking.resolveFrom_accrues accruing b.name b.imports follows
  obtain ⟨module, successors⟩ := accrues.spared (Session.mem_loading_constructing s b.name)
  have refused : ∀ e, built.1 = .error e → built.2.registry = resolved.2.registry :=
    (Linking.registry_of_build s.fetch b body s).1
  refine ⟨fun unawaited => ?_, fun e failed => ?_, fun new unfailed m within requested => ?_⟩
  · obtain ⟨still, fewer⟩ := accrues.acyclic acyclic unawaited
    refine ⟨fun e failed => refused e failed ▸ still, fun m answered => ?_⟩
    obtain ⟨⟨symbols, answer⟩, exports, registry⟩ :=
      (Linking.registry_of_build s.fetch b body s).2 m answered
    have graph : built.2.registry.graph = resolved.2.registry.graph.setDependencies b.name
        (b.imports.map Import.module) := congrArg Registry.graph registry
    rw [graph]
    refine ⟨?_, fun new alone => ?_⟩
    · rw [Graph.acyclic_setDependencies_iff still, List.forall_mem_map]
    · have there : ∀ i ∈ b.imports, resolved.2.Finds i := found (Prod.ext answer rfl)
      have unpublished : resolved.2.registry.isLoaded b.name = false :=
        Registry.isLoaded_eq_false_iff.mpr (module.trans (Registry.isLoaded_eq_false_iff.mp new))
      exact Graph.acyclic_setDependencies still
        (fun importer dep => alone (fewer _ ⟨unpublished, importer, dep⟩))
        (Session.not_imported_of_finds there unpublished)
  · rw [refused e failed]
    exact ⟨module, successors⟩
  · have underway := Session.underway_of_new seen follows b new unfailed
    obtain ⟨path, failed, circuit, first⟩ :=
      Session.cycle_of_build b body underway within requested
    exact ⟨path, failed, circuit.two_le, first, circuit.closed ▸ first, circuit.nodup⟩

/-- A loader with two modules, one of which imports from the other, and a third that imports from a
module which it does not offer. -/
def Loader.chained : Loader Unit where
  offers name := name ∈ ["A", "B", "L"]
  definition name :=
    if name = "A" then .ofBuilder ⟨name, []⟩ fun _ => .ofResult (.ok .single)
    else if name = "B" then .ofBuilder ⟨name, [⟨"A", "x"⟩]⟩ fun _ => .ofResult (.ok .single)
    else if name = "L" then .ofBuilder ⟨name, [⟨"M", "x"⟩]⟩ fun _ => .ofResult (.ok .single)
    else .fail (.moduleNotFound name)

theorem Loader.follows_chained : Loader.chained.Follows .free := by
  intro name
  unfold Loader.chained
  dsimp only
  repeat' split
  · exact .build (Discipline.allows_free _ _)
  · exact .build (Discipline.allows_free _ _)
  · exact .build (Discipline.allows_free _ _)
  · exact .refuse _

def Session.chained : Session Unit :=
  (start {} (some .chained) ()).afterAll [.call (.load "B")]

theorem Session.observable_chained : Observable chained := observable_afterAll {} _ () _

theorem Session.follows_chained {loader : Loader Unit} (hl : chained.loader = some loader) :
    loader.Follows .free := by
  obtain rfl : Loader.chained = loader := Option.some.inj hl
  exact Loader.follows_chained

theorem Session.acyclic_chained : chained.registry.graph.Acyclic :=
  Graph.acyclic_of_detectCycle (by decide)

/-- The first of them is built again, with an import from the second one. -/
theorem rebuild_closes_cycle :
    ¬ ∀ (s : Session Unit) (b : Builder) (body : Body Unit), Observable s →
      (∀ loader, s.loader = some loader → loader.Follows .free) → s.registry.graph.Acyclic →
      ∀ m, (s.build b body).1 = .ok m → (s.build b body).2.registry.graph.Acyclic := by
  intro claim
  let body : Body Unit := fun _ => .ofResult (.ok .single)
  have acyclic := claim .chained ⟨"A", [⟨"B", "x"⟩]⟩ body Session.observable_chained
    (fun _ => Session.follows_chained) Session.acyclic_chained _ rfl
  have cyclic : (Session.chained.build ⟨"A", [⟨"B", "x"⟩]⟩ body).2.registry.graph.detectCycle =
      some ["A", "B", "A"] := by decide
  rw [Graph.detectCycle_eq_none_iff.mpr acyclic] at cyclic
  cases cyclic

theorem Session.not_awaited_chained (name : String) : ¬ chained.Awaited name := by
  have layered : (Session.start {} (some .chained) () : Session Unit).Layered .free :=
    .start fun hl => by
      obtain rfl := Option.some.inj hl
      exact Loader.follows_chained
  have grown := layered.afterAll [.load "B"]
  exact grown.layered.not_awaited (grown.charted .start) name

/-- The moment of a build of a module at which its import has come back to it. -/
def Moment.comingBack : Moment Unit :=
  let begun := (Session.chained.constructing "M").change .enter
  ⟨63, .fetch "M", ((begun.opened "L").constructing "L").change .enter⟩

theorem Moment.within_comingBack :
    Within ((Call.resolveFrom "M" [⟨"L", "x"⟩]).moment 64 .chained) .comingBack := by
  have called : Within ((Call.resolveFrom "M" [⟨"L", "x"⟩]).moment 64 .chained)
      ⟨63, .script (Loader.chained.definition "L"),
        ((Session.chained.constructing "M").change .enter).opened "L"⟩ :=
    .tail (.single .first) (.call ⟨by decide, by decide, by decide⟩ rfl)
  exact (called.tail .resolveFrom).tail .first

/-- Built again with that import, the first module depends on the second one and that one on it. A
new module with the same import closes no cycle. One whose import comes back to it is not built. -/
theorem build_acyclic_iff_of_chained :
    let body : Body Unit := fun _ => .ofResult (.ok .single)
    let again := Session.chained.build ⟨"A", [⟨"B", "x"⟩]⟩ body
    let new := Session.chained.build ⟨"C", [⟨"B", "x"⟩]⟩ body
    let circular := Session.chained.build ⟨"M", [⟨"L", "x"⟩]⟩ body
    ((∃ m, again.1 = .ok m) ∧ ¬ again.2.registry.graph.Acyclic) ∧
      ((∃ m, new.1 = .ok m) ∧ new.2.registry.graph.Acyclic) ∧
      (∃ path, circular.1 = .error (.circularDependency path) ∧ path.head? = some "M" ∧
        path.getLast? = some "M") ∧
      circular.2.registry.module? "M" = none ∧ circular.2.registry.graph.Acyclic := by
  intro body again new circular
  have seen := Session.observable_chained
  have acyclic := Session.acyclic_chained
  have unawaited := Session.not_awaited_chained
  have alone : ∀ {p : String → Prop} (name : String), Session.chained.Awaited name → p name :=
    fun name awaited => absurd awaited (unawaited name)
  obtain ⟨rebuilt, -, -⟩ :=
    build_acyclic_iff seen Session.follows_chained acyclic ⟨"A", [⟨"B", "x"⟩]⟩ body
  obtain ⟨built, -, -⟩ :=
    build_acyclic_iff seen Session.follows_chained acyclic ⟨"C", [⟨"B", "x"⟩]⟩ body
  obtain ⟨closed, kept, cycle⟩ :=
    build_acyclic_iff seen Session.follows_chained acyclic ⟨"M", [⟨"L", "x"⟩]⟩ body
  refine ⟨⟨⟨_, rfl⟩, fun still => ?_⟩, ⟨⟨_, rfl⟩, ?_⟩, ?_, ?_, ?_⟩
  · have apart := ((rebuilt alone).2 _ rfl).1.mp still ⟨"B", "x"⟩ (.head _)
    exact apart (.single (by decide))
  · exact ((built alone).2 _ rfl).2 (by decide) (unawaited "C")
  · have allowance : Session.chained.registry.allowance = 64 := by decide
    rw [allowance] at cycle
    obtain ⟨path, failed, -, first, last, -⟩ :=
      cycle (by decide) (.inl rfl) .comingBack Moment.within_comingBack rfl
    exact ⟨path, failed, first, last⟩
  · exact (kept (.circularDependency ["M", "L", "M"]) rfl).1
  · exact (closed alone).1 (.circularDependency ["M", "L", "M"]) rfl

end MibLinker
