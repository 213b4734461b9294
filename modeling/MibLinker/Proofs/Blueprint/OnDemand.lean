import MibLinker.Proofs.Plan.Basic

/-!
# Loading from blueprints

What a registry does whose loader runs blueprints. A blueprint is a plan, and it builds, so what
holds of plans and of sessions that only build holds here.
-/

namespace MibLinker

variable {σ : Type} {T : Blueprints}

namespace Blueprints

/-! ## Blueprints as plans -/

def plans (T : Blueprints) : Plans σ := T.map fun _ b => ⟨b.imports, fun _ => pure b.exports⟩

theorem loader_plans (T : Blueprints) : (T.plans : Plans σ).loader = T.loader := by
  rw [Plans.loader, Plans.catalog, plans, Std.ExtTreeMap.map_map]
  rfl

theorem of_plans {name : String} {p : Plan σ} (h : (T.plans : Plans σ)[name]? = some p) :
    ∃ b, T[name]? = some b ∧ ⟨b.imports, fun _ => pure b.exports⟩ = p := by
  rw [plans, Std.ExtTreeMap.getElem?_map] at h
  exact Option.map_eq_some_iff.mp h

/-! ## The discipline of a table -/

def discipline (T : Blueprints) : Discipline where
  Needs := T.Needs
  Makes name m := ∃ b, T[name]? = some b ∧ m = b.module name

theorem exact_discipline (T : Blueprints) : T.discipline.Exact := by
  intro name m needed ⟨b, hb, hm⟩ ⟨b', hb', i, hi, hn⟩
  obtain rfl := Option.some.inj (hb.symm.trans hb')
  rw [hm]
  exact List.mem_map.mpr ⟨i, hi, hn⟩

theorem allows_of_some {name : String} {b : Blueprint} (hb : T[name]? = some b) :
    T.discipline.Allows ⟨name, b.imports⟩ (fun _ => .ofResult (.ok b.exports) : Body σ) where
  needs i hi := ⟨b, hb, i, hi, rfl⟩
  makes := by
    intro _ _ exports h
    obtain rfl := Except.ok.inj h
    exact ⟨b, hb, rfl⟩

theorem follows_loader (T : Blueprints) : (T.loader : Loader σ).Follows T.discipline := by
  intro name
  cases hb : T[name]? with
  | none =>
      rw [definition_of_none hb]
      exact .refuse _
  | some b =>
      rw [definition_of_some hb]
      exact .build (allows_of_some hb)

end Blueprints

/-! ## One attempt -/

def Blueprint.finished (b : Blueprint) (name : String) (found : Session σ) : Session σ :=
  (((found.change .leave).withDesk found.desk).publish (b.module name)).2.closed.log (.loaded name)

namespace Blueprint

variable (b : Blueprint) (name : String) (found : Session σ)

theorem module?_finished (other : String) :
    (b.finished name found).registry.module? other =
      if name = other then some ⟨found.registry.publications, b.module name⟩
      else found.registry.module? other :=
  Session.module?_publish ((found.change .leave).withDesk found.desk) (b.module name) other

theorem freshFailure?_finished (other : String) :
    (b.finished name found).registry.freshFailure? other =
      if name = other then none else found.registry.freshFailure? other :=
  found.registry.leave.freshFailure?_publish (b.module name) other

theorem since_finished :
    (b.finished name found).since found =
      [.event (.loaded name), .event (found.registry.publishEvent (b.module name))] ++
        found.desk.remarks.map .remark := Session.since_eq _ rfl

theorem grows_finished : found.Grows (b.finished name found) :=
  .of_append ([.event (.loaded name), .event (found.registry.publishEvent (b.module name))] ++
    found.desk.remarks.map .remark) rfl

theorem uncalled_finished (other : String) :
    (b.finished name found).loaderCalls found other = 0 := by
  rw [Session.loaderCalls, since_finished, List.countP_eq_zero]
  intro entry he
  rcases List.mem_append.mp he with he | he
  · rcases List.mem_pair.mp he with rfl | rfl
    · exact Bool.false_ne_true
    · rw [Registry.calls_publishEvent]
      exact Bool.false_ne_true
  · obtain ⟨remark, _, rfl⟩ := List.mem_map.mp he
    exact Bool.false_ne_true

end Blueprint

namespace Linking

theorem finished_of_attempt {fetch : Fetch σ} {s t : Session σ} {name : String}
    {m : Shared Module} (loader : s.loader = some T.loader)
    (h : attempt fetch name s = (.ok m, t)) :
    ∃ b symbols u, T[name]? = some b ∧ t = b.finished name u ∧
      resolveEach fetch b.imports ((s.opened name).change .enter) = (.ok symbols, u) := by
  rw [← T.loader_plans] at loader
  obtain ⟨p, symbols, u, hp, rfl, found⟩ := finished_of_planned loader h
  obtain ⟨b, hb, rfl⟩ := Blueprints.of_plans hp
  exact ⟨b, symbols, u, hb, rfl, found⟩

theorem unfinished_of_attempt {fetch : Fetch σ} {s t : Session σ} {name : String} {e : LinkError}
    (loader : s.loader = some T.loader) (h : attempt fetch name s = (.error e, t)) :
    T[name]? = none ∨ ∃ b u, T[name]? = some b ∧
      resolveEach fetch b.imports ((s.opened name).change .enter) = (.error e, u) := by
  rw [← T.loader_plans] at loader
  rcases unfinished_of_planned loader h with ⟨hp, _⟩ | ⟨p, u, hp, missed, _⟩
  · rw [Blueprints.plans, Std.ExtTreeMap.getElem?_map, Option.map_eq_none_iff] at hp
    exact .inl hp
  · obtain ⟨b, hb, rfl⟩ := Blueprints.of_plans hp
    exact .inr ⟨b, u, hb, missed⟩

end Linking

/-! ## What a registry holds -/

namespace Blueprints

/-- Whether a registry runs blueprints and has published nothing but what they say, each module
after all that it imports from. -/
structure Faithful (T : Blueprints) (s : Session σ) : Prop where
  loader : s.loader = some T.loader
  built : ∀ {name m}, s.registry.module? name = some m →
    ∃ b, T[name]? = some b ∧ m.value = b.module name
  numbered : ∀ {name m}, s.registry.module? name = some m → m.id < s.registry.publications
  imported : ∀ {name m i}, s.registry.module? name = some m → i ∈ m.value.imports →
    T.Exports i ∧ ∃ m', s.registry.module? i.module = some m' ∧ m'.id < m.id

namespace Faithful

variable {s t : Session σ}

theorem of_same (h : T.Faithful s) (loader : t.loader = s.loader)
    (modules : t.registry.modules = s.registry.modules)
    (publications : t.registry.publications = s.registry.publications) : T.Faithful t := by
  have same : ∀ name, t.registry.module? name = s.registry.module? name := by
    intro name
    rw [Registry.module?, modules, Registry.module?]
  constructor
  case loader => exact loader.trans h.loader
  case built =>
    intro name m hm
    exact h.built (same name ▸ hm)
  case numbered =>
    intro name m hm
    rw [publications]
    exact h.numbered (same name ▸ hm)
  case imported =>
    intro name m i hm hi
    rw [same]
    exact h.imported (same name ▸ hm) hi

theorem enter (h : T.Faithful s) : T.Faithful (s.change .enter) := h.of_same rfl rfl rfl

theorem value_eq (h : T.Faithful s) {name : String} {m : Shared Module} {b : Blueprint}
    (hm : s.registry.module? name = some m) (hb : T[name]? = some b) : m.value = b.module name := by
  obtain ⟨b', hb', hv⟩ := h.built hm
  obtain rfl := Option.some.inj (hb.symm.trans hb')
  exact hv

theorem needed (h : T.Faithful s) {name other : String} {m : Shared Module}
    (hm : s.registry.module? name = some m) (needs : T.Needs name other) :
    ∃ m', s.registry.module? other = some m' ∧ m'.id < m.id := by
  obtain ⟨b, hb, i, hi, rfl⟩ := needs
  exact (h.imported hm (h.value_eq hm hb ▸ hi)).2

theorem earlier (h : T.Faithful s) {name other : String} {m : Shared Module}
    (hm : s.registry.module? name = some m) (leads : T.LeadsTo name other) :
    ∃ m', s.registry.module? other = some m' ∧ m'.id < m.id := by
  induction leads with
  | single needs => exact h.needed hm needs
  | tail _ needs ih =>
      obtain ⟨m', hm', hlt⟩ := ih
      obtain ⟨m'', hm'', hlt'⟩ := h.needed hm' needs
      exact ⟨m'', hm'', Nat.lt_trans hlt' hlt⟩

theorem layered (h : T.Faithful s) : s.Layered T.discipline where
  follows hl := by
    obtain rfl := Option.some.inj (hl.symm.trans h.loader)
    exact T.follows_loader
  made := h.built
  numbered := h.numbered
  imported hm hi := by
    obtain ⟨⟨b, hb, exported⟩, m, hm', earlier⟩ := h.imported hm hi
    refine ⟨⟨m, hm', ?_⟩, m, hm', earlier⟩
    rw [h.value_eq hm' hb]
    exact NameMap.mem_iff.mp exported

theorem isLoaded_of_reaches (h : T.Faithful s) {name other : String}
    (published : s.registry.isLoaded name = true) (reaches : T.Reaches name other) :
    s.registry.isLoaded other = true :=
  h.layered.isLoaded_of_reaches T.exact_discipline published reaches

/-- Nothing stands in the way of a module that is published. -/
theorem linkable (h : T.Faithful s) {name : String} (published : s.registry.isLoaded name = true) :
    T.Linkable name := by
  have reached : ∀ {other}, T.Reaches name other → ∃ m, s.registry.module? other = some m :=
    fun reaches => Registry.isLoaded_iff.mp (h.isLoaded_of_reaches published reaches)
  constructor
  case defined =>
    intro other reaches
    obtain ⟨m, hm⟩ := reached reaches
    obtain ⟨b, hb, _⟩ := h.built hm
    exact NameMap.mem_iff.mpr ⟨b, hb⟩
  case acyclic =>
    intro other reaches cycle
    obtain ⟨m, hm⟩ := reached reaches
    obtain ⟨m', hm', hlt⟩ := h.earlier hm cycle
    obtain rfl := Option.some.inj (hm.symm.trans hm')
    exact Nat.lt_irrefl _ hlt
  case exported =>
    intro other b i reaches hb hi
    obtain ⟨m, hm⟩ := reached reaches
    exact (h.imported hm (h.value_eq hm hb ▸ hi)).1

end Faithful

theorem exports_of_finds {s : Session σ} (h : s.Layered T.discipline) {i : Import}
    (found : s.Finds i) : T.Exports i := by
  obtain ⟨m, hm, symbol, hs⟩ := found
  obtain ⟨b, hb, hv⟩ := h.made hm
  rw [hv] at hs
  exact ⟨b, hb, NameMap.mem_iff.mpr ⟨symbol, hs⟩⟩

theorem faithful_of_layered {s : Session σ} (h : s.Layered T.discipline)
    (loader : s.loader = some T.loader) : T.Faithful s where
  loader := loader
  built := h.made
  numbered := h.numbered
  imported hm hi := ⟨exports_of_finds h (h.imported hm hi).1, (h.imported hm hi).2⟩

/-! ## What a request publishes -/

/-- How a registry moves, whatever the answer, when modules are requested: it goes on holding what
the blueprints say, and all that is new is reached from those modules and was not being loaded. -/
structure Grown (T : Blueprints) (requested : List String) (s t : Session σ) : Prop where
  faithful : T.Faithful t
  reached : ∀ {name}, t.registry.isLoaded name = true → s.registry.isLoaded name = true ∨
    name ∉ s.registry.loading ∧ ∃ root ∈ requested, T.Reaches root name

namespace Grown

variable {s t : Session σ} {requested : List String}

theorem of_faithful (h : T.Faithful s) (grown : Session.Grown T.discipline requested s t) :
    T.Grown requested s t where
  faithful := faithful_of_layered grown.layered (grown.loader.trans h.loader)
  reached := grown.reached

end Grown

section Requests

variable {s : Session σ} (n : Nat)

theorem resolveOne_grown (i : Import) (h : T.Faithful s) :
    T.Grown [i.module] s (Linking.resolveOne (Linking.fetch n) i s).2 :=
  .of_faithful h (Linking.resolveOne_grows n i h.layered)

/-- What a request publishes, whatever it answers, is what the blueprints say of modules that it
reaches. -/
theorem fetch_grown {name : String} (h : T.Faithful s) :
    T.Grown [name] s (Linking.fetch n name s).2 :=
  .of_faithful h (Linking.fetch_grows n name h.layered)

end Requests

/-! ## Earlier requests from outside -/

theorem layered_start (T : Blueprints) (options : Options) (data : σ) :
    (Session.start options (some T.loader) data).Layered T.discipline := by
  apply Session.Layered.start
  intro l hl
  obtain rfl := Option.some.inj hl
  exact T.follows_loader

namespace Faithful

variable {s : Session σ}

theorem start (T : Blueprints) (options : Options) (data : σ) :
    T.Faithful (.start options (some T.loader) data) :=
  faithful_of_layered (T.layered_start options data) rfl

theorem call (h : T.Faithful s) (allowance : Nat) (c : Call) :
    T.Faithful (c.perform allowance s) :=
  (Grown.of_faithful h (h.layered.call allowance c)).faithful

theorem afterAll (h : T.Faithful s) (history : List Call) :
    T.Faithful (s.afterAll (history.map .call)) :=
  (Grown.of_faithful h (h.layered.afterAll history)).faithful

end Faithful

end Blueprints

end MibLinker
