import MibLinker.Proofs.Answers
import MibLinker.Proofs.Attempts

/-!
# Definitions that build

A definition that does nothing but build its own module publishes it after all that it imports from,
and nothing twice. A discipline says what the definitions of a loader may import and publish, and a
layered session is one in which all that is published was built under it.
-/

namespace MibLinker

variable {σ : Type}

/-! ## Disciplines -/

/-- What definitions keep to: the modules that the one of a name may import from, and the modules
that it may publish. -/
structure Discipline where
  Needs : String → String → Prop
  Makes : String → Module → Prop

namespace Discipline

def free : Discipline := ⟨fun _ _ => True, fun _ _ => True⟩

abbrev Reaches (D : Discipline) : String → String → Prop := Relation.ReflTransGen D.Needs

def Exact (D : Discipline) : Prop :=
  ∀ {name m needed}, D.Makes name m → D.Needs name needed → needed ∈ m.sources

structure Allows (D : Discipline) (b : Builder) (body : Body σ) : Prop where
  needs : ∀ i ∈ b.imports, D.Needs b.name i.module
  makes : ∀ {found desk exports}, ((body found).run desk).1 = .ok exports →
    D.Makes b.name (b.module exports)

theorem allows_free (b : Builder) (body : Body σ) : free.Allows b body :=
  ⟨fun _ _ => trivial, fun _ => trivial⟩

end Discipline

/-- Whether a script builds the module of a name once and ends with that, or refuses to. It may look
around and work at the desk before. -/
inductive Script.Builds (D : Discipline) (name : String) : Script σ → Prop
  | refuse (e : LinkError) : Builds D name (.fail e)
  | build {imports : List Import} {body : Body σ} : D.Allows ⟨name, imports⟩ body →
      Builds D name (.ofBuilder ⟨name, imports⟩ body)
  | work {change : View σ → Desk σ} {next : View σ → Script σ} :
      (∀ view, Builds D name (next view)) → Builds D name (.work change next)

def Loader.Follows (D : Discipline) (loader : Loader σ) : Prop :=
  ∀ name, (loader.definition name).Builds D name

/-! ## Layers -/

namespace Session

structure SameStock (s t : Session σ) : Prop where
  loader : t.loader = s.loader
  modules : t.registry.modules = s.registry.modules
  graph : t.registry.graph = s.registry.graph
  publications : t.registry.publications = s.registry.publications

theorem SameStock.trans {s t u : Session σ} (first : s.SameStock t) (second : t.SameStock u) :
    s.SameStock u where
  loader := second.loader.trans first.loader
  modules := second.modules.trans first.modules
  graph := second.graph.trans first.graph
  publications := second.publications.trans first.publications

theorem SameStock.module? {s t : Session σ} (same : s.SameStock t) (name : String) :
    t.registry.module? name = s.registry.module? name := by
  rw [Registry.module?, same.modules, Registry.module?]

theorem SameStock.isLoaded_eq {s t : Session σ} (same : s.SameStock t) (name : String) :
    t.registry.isLoaded name = s.registry.isLoaded name := by
  rw [Registry.isLoaded, same.modules, Registry.isLoaded]

/-! While a module is under construction its name is on the load stack. -/

theorem sameStock_constructing (s : Session σ) (requester : String) :
    s.SameStock (s.constructing requester) := by
  unfold constructing
  split <;> exact ⟨rfl, rfl, rfl, rfl⟩

theorem sameStock_finish (c : Call) (earlier s : Session σ) :
    s.SameStock (c.finish earlier s) := by
  obtain h | h := c.finish_cases earlier s <;> rw [h] <;> exact ⟨rfl, rfl, rfl, rfl⟩

/-- What is not published in the end is not there to be withdrawn. -/
theorem sameStock_withdrawn {s : Session σ} {name : String} (e : LinkError)
    (unpublished : s.registry.module? name = none) :
    s.SameStock ((s.closed.discard name).recordFailure name e) := by
  rw [discard_of_unpublished (s := s.closed) unpublished]
  exact ⟨rfl, rfl, rfl, rfl⟩

theorem mem_loading_constructing (s : Session σ) (requester : String) :
    requester ∈ (s.constructing requester).registry.loading := by
  unfold constructing
  split
  · assumption
  · exact List.mem_append_right _ (List.mem_singleton_self _)

theorem mem_loading_opened (s : Session σ) (name : String) :
    name ∈ (s.opened name).registry.loading :=
  List.mem_append_right _ (List.mem_singleton_self _)

theorem loading_subset_constructing (s : Session σ) (requester : String) :
    s.registry.loading ⊆ (s.constructing requester).registry.loading := by
  unfold constructing
  split
  · exact fun _ h => h
  · exact List.subset_append_left _ _

theorem isLoaded_publish (s : Session σ) (m : Module) (name : String) :
    (s.publish m).2.registry.isLoaded name = true ↔
      s.registry.isLoaded name = true ∨ name = m.name := by
  rw [Registry.isLoaded_iff, Registry.isLoaded_iff, module?_publish]
  by_cases hn : m.name = name
  · simp [hn]
  · simp [hn, Ne.symm hn]

def Finds (s : Session σ) (i : Import) : Prop :=
  ∃ m, s.registry.module? i.module = some m ∧ ∃ symbol, m.value.lookup? i.symbol = some symbol

theorem Finds.isLoaded {s : Session σ} {i : Import} (h : s.Finds i) :
    s.registry.isLoaded i.module = true := by
  obtain ⟨m, hm, _⟩ := h
  exact Registry.isLoaded_iff.mpr ⟨m, hm⟩

/-- A module that is not published is not among those that are imported from. -/
theorem not_imported_of_finds {s : Session σ} {imports : List Import} {name : String}
    (found : ∀ i ∈ imports, s.Finds i) (unpublished : s.registry.isLoaded name = false) :
    name ∉ imports.map Import.module := by
  intro imported
  obtain ⟨i, hi, rfl⟩ := List.mem_map.mp imported
  rw [(found i hi).isLoaded] at unpublished
  cases unpublished

theorem Finds.exported {s : Session σ} {i : Import} (h : s.Finds i) :
    ∃ symbol, s.registry.lookup? i = some symbol := by
  obtain ⟨m, hm, symbol, hs⟩ := h
  exact ⟨symbol, by rw [Registry.lookup?, hm, Option.bind_some, hs]⟩

theorem SameStock.finds_iff {s t : Session σ} (same : s.SameStock t) {i : Import} :
    t.Finds i ↔ s.Finds i := by
  rw [Finds, Finds, same.module?]

/-- Whether everything that is published keeps to a discipline, and was published after all that it
imports from. -/
structure Layered (D : Discipline) (s : Session σ) : Prop where
  follows : ∀ {loader}, s.loader = some loader → loader.Follows D
  made : ∀ {name m}, s.registry.module? name = some m → D.Makes name m.value
  numbered : ∀ {name m}, s.registry.module? name = some m → m.id < s.registry.publications
  imported : ∀ {name m i}, s.registry.module? name = some m → i ∈ m.value.imports →
    s.Finds i ∧ ∃ m', s.registry.module? i.module = some m' ∧ m'.id < m.id

/-- Whether the graph has an entry for each published module, with its imports, and no others. -/
def Charted (s : Session σ) : Prop :=
  ∀ name, s.registry.graph.dependencies name =
    (s.registry.module? name).map fun m => m.value.sources.eraseDups

namespace Charted

variable {s t : Session σ}

theorem start {options : Options} {loader : Option (Loader σ)} {data : σ} :
    (start options loader data).Charted := by
  intro name
  have nothing : (Session.start options loader data).registry.module? name = none := by
    simp [Session.start, Registry.ofOptions, Registry.module?]
  rw [nothing]
  exact Graph.dependencies_empty name

theorem of_same (h : s.Charted) (same : s.SameStock t) : t.Charted := by
  intro name
  rw [same.graph, same.module?]
  exact h name

/-- A publication adds no entries for its imports when they have been published before. -/
theorem publish (h : s.Charted) {m : Module} (imported : ∀ i ∈ m.imports, s.Finds i) :
    (s.publish m).2.Charted := by
  intro name
  have edges : (s.publish m).2.registry.graph = s.registry.graph.setDependencies m.name m.sources :=
    rfl
  rw [edges, Graph.dependencies_setDependencies, module?_publish]
  split
  · rfl
  · split
    · next source =>
        obtain ⟨i, hi, rfl⟩ := List.mem_map.mp source
        obtain ⟨object, hm, _⟩ := imported i hi
        rw [Graph.successors, h, hm]
        rfl
    · exact h name

end Charted

namespace Layered

variable {D : Discipline} {s t : Session σ}

theorem start {options : Options} {loader : Option (Loader σ)} {data : σ}
    (follows : ∀ {l}, loader = some l → l.Follows D) : (start options loader data).Layered D := by
  have nothing : ∀ name, (Session.start options loader data).registry.module? name = none :=
    fun name => by simp [Session.start, Registry.ofOptions, Registry.module?]
  constructor
  case follows => exact follows
  all_goals
    intros
    simp_all

theorem of_same (h : s.Layered D) (same : s.SameStock t) : t.Layered D where
  follows hl := h.follows (same.loader ▸ hl)
  made hm := h.made (same.module? _ ▸ hm)
  numbered hm := by
    rw [same.publications]
    exact h.numbered (same.module? _ ▸ hm)
  imported hm hi := by
    simp only [Finds, same.module?] at hm ⊢
    exact h.imported hm hi

/-- A new module may be published when all that it imports has been. -/
theorem publish (h : s.Layered D) {m : Module} (makes : D.Makes m.name m)
    (new : s.registry.module? m.name = none) (imported : ∀ i ∈ m.imports, s.Finds i) :
    (s.publish m).2.Layered D := by
  have after := module?_publish s m
  have count : (s.publish m).2.registry.publications = s.registry.publications + 1 := rfl
  have kept : ∀ {other object}, s.registry.module? other = some object →
      (s.publish m).2.registry.module? other = some object := by
    intro other object hm
    rw [after, if_neg]
    · exact hm
    · rintro rfl
      rw [new] at hm
      cases hm
  have finds : ∀ {i}, s.Finds i → (s.publish m).2.Finds i := fun ⟨object, hm, found⟩ =>
    ⟨object, kept hm, found⟩
  constructor
  case follows => exact h.follows
  case made =>
    intro other object hm
    rw [after] at hm
    split at hm
    · next hn =>
        obtain rfl := Option.some.inj hm
        exact hn ▸ makes
    · exact h.made hm
  case numbered =>
    intro other object hm
    rw [after] at hm
    rw [count]
    split at hm
    · obtain rfl := Option.some.inj hm
      exact Nat.lt_succ_self _
    · exact Nat.lt_succ_of_lt (h.numbered hm)
  case imported =>
    intro other object i hm hi
    rw [after] at hm
    split at hm
    · obtain rfl := Option.some.inj hm
      obtain ⟨source, hs, found⟩ := imported i hi
      exact ⟨finds ⟨source, hs, found⟩, source, kept hs, h.numbered hs⟩
    · obtain ⟨found, source, hs, earlier⟩ := h.imported hm hi
      exact ⟨finds found, source, kept hs, earlier⟩

/-- What a published module reaches is published too, if nothing is left out of its imports. -/
theorem isLoaded_of_reaches (h : s.Layered D) (exact : D.Exact) {name other : String}
    (published : s.registry.isLoaded name = true) (reaches : D.Reaches name other) :
    s.registry.isLoaded other = true := by
  induction reaches with
  | refl => exact published
  | tail _ needs ih =>
      obtain ⟨m, hm⟩ := Registry.isLoaded_iff.mp ih
      obtain ⟨i, hi, rfl⟩ := List.mem_map.mp (exact (h.made hm) needs)
      obtain ⟨_, m', hm', _⟩ := h.imported hm hi
      exact Registry.isLoaded_iff.mpr ⟨m', hm'⟩

end Layered

end Session

/-! ## Scripts that build -/

namespace Linking

variable {D : Discipline}

/-- A script that builds ends with a build, or with a refusal, after work that leaves the tables as
they are. -/
theorem run_of_builds {script : Script σ} {name : String} (h : script.Builds D name)
    (fetch : Fetch σ) (s : Session σ) :
    ∃ t : Session σ, t.registry = s.registry ∧ t.loader = s.loader ∧
      ((∃ e, run fetch script s = (.error e, t)) ∨
        ∃ imports body, D.Allows ⟨name, imports⟩ body ∧
          run fetch script s = ((build fetch ⟨name, imports⟩ body t).1.map fun _ => (),
            (build fetch ⟨name, imports⟩ body t).2)) := by
  induction h generalizing s with
  | refuse e => exact ⟨s, rfl, rfl, .inl ⟨e, rfl⟩⟩
  | @build imports body allows =>
      exact ⟨s, rfl, rfl, .inr ⟨imports, body, allows, run_build fetch _ body _ s⟩⟩
  | @work change next _ ih =>
      obtain ⟨t, registry, loader, outcome⟩ := ih s.view (s.withDesk (change s.view))
      exact ⟨t, registry, loader, outcome⟩

/-- The imports of a module are found one after the other, while the module is under construction.
-/
theorem exists_resolveFrom_eq (fetch : Fetch σ) (requester : String) (imports : List Import)
    (s : Session σ) :
    ∃ t, (resolveEach fetch imports ((s.constructing requester).change .enter)).2.SameStock t ∧
      resolveFrom fetch requester imports s =
        ((resolveEach fetch imports ((s.constructing requester).change .enter)).1, t) :=
  ⟨_, Session.sameStock_finish .., resolveFrom_eq_finish fetch requester imports s⟩

theorem attempt_of_error {fetch : Fetch σ} {s t : Session σ} {name : String} {loader : Loader σ}
    {e : LinkError} (hl : s.loader = some loader)
    (hr : run fetch (loader.definition name) (s.opened name) = (.error e, t)) :
    attempt fetch name s = (.error e, (t.closed.discard name).recordFailure name e) := by
  simp only [attempt, callAnyLoader, hl, callLoader_eq, hr]

theorem attempt_of_ok {fetch : Fetch σ} {s t : Session σ} {name : String} {loader : Loader σ}
    {m : Shared Module} (hl : s.loader = some loader)
    (hr : run fetch (loader.definition name) (s.opened name) = (.ok (), t))
    (hm : t.registry.module? name = some m) :
    attempt fetch name s = (.ok m, t.closed.log (.loaded name)) := by
  have closed : t.closed.registry.module? name = some m := hm
  simp only [attempt, callAnyLoader, hl, callLoader_eq, hr, closed]

/-- The module that a build answers with is published. -/
theorem module?_of_build {fetch : Fetch σ} {b : Builder} {body : Body σ} {s t : Session σ}
    {m : Shared Module} (h : build fetch b body s = (.ok m, t)) :
    t.registry.module? b.name = some m := by
  rcases build_cases fetch b body s with
    ⟨e, u, -, hb⟩ | ⟨symbols, u, -, ⟨e, desk, -, hb⟩ | ⟨exports, desk, -, hb⟩⟩ <;>
    rw [h] at hb <;> obtain ⟨answer, rfl⟩ := Prod.mk.inj hb
  · cases answer
  · cases answer
  · obtain rfl := Except.ok.inj answer
    exact (Session.module?_publish (u.withDesk desk) (b.module exports) b.name).trans (if_pos rfl)

/-- A load that fails is remembered with its error. -/
theorem lastFailure?_of_attempt {fetch : Fetch σ} {name : String} {s t : Session σ} {e : LinkError}
    (h : attempt fetch name s = (.error e, t)) : t.registry.lastFailure? name = some e := by
  rcases hr : callAnyLoader fetch name s with ⟨e' | m, u⟩ <;> simp only [attempt, hr] at h <;>
    obtain ⟨answer, rfl⟩ := Prod.mk.inj h
  · obtain rfl := Except.error.inj answer
    refine Registry.lastFailure?_eq_some_iff.mpr ⟨⟨u.registry.generation, e'⟩, ?_, rfl⟩
    exact (u.registry.failures_recordFailure name name e').trans (if_pos rfl)
  · cases answer

theorem unpublished_of_fetchBy {onward : Fetch σ} {name : String} {s t : Session σ} {e : LinkError}
    (h : fetchBy onward name s = (.error e, t))
    (after : s.Vacant name → onward name s = (.error e, t) → t.registry.module? name = none) :
    t.registry.module? name = none := by
  by_cases vacant : s.Vacant name
  · rw [fetchBy_of_vacant _ vacant] at h
    exact after vacant h
  · have same := fetchBy_of_not_vacant onward vacant
    rw [h] at same
    rw [show t = s from same]
    cases hm : s.registry.module? name with
    | none => rfl
    | some m => simp [fetchBy, hm] at h

/-- A module that could not be fetched is not published. -/
theorem unpublished_of_fetch {allowance : Nat} {name : String} {s t : Session σ} {e : LinkError}
    (h : fetch allowance name s = (.error e, t)) : t.registry.module? name = none := by
  cases allowance with
  | zero =>
      refine unpublished_of_fetchBy h fun vacant deep => ?_
      exact (Prod.mk.inj deep).2 ▸ vacant.unpublished
  | succ allowance =>
      refine unpublished_of_fetchBy h fun vacant attempted => ?_
      rcases attempt_cases (fetch allowance) name s with
        ⟨_, heq⟩ | ⟨_, _, ⟨_, u, _, heq⟩ | ⟨_, _, _, _, heq⟩⟩ <;>
        rw [attempted] at heq <;> obtain ⟨answer, rfl⟩ := Prod.mk.inj heq
      · exact vacant.unpublished
      · exact (Session.module?_discard u.closed name name).trans (if_pos rfl)
      · cases answer

end Linking

end MibLinker
