import MibLinker.Proofs.Blueprint.OnDemand
import MibLinker.Proofs.Retry

/-!
# Loading agrees with linking

A registry that runs blueprints loads a module exactly when nothing stands in the way of it, whatever
it was asked before. A load that succeeds publishes what the module reaches, with one loader call for
each module that is new. A load that fails has gone down a path of imports, which is what the load
stack holds: its end closes a cycle, has no blueprint, or lacks a symbol. It cannot be too deep, since
a path without a cycle is no longer than the table.
-/

namespace MibLinker.Blueprints

variable {σ : Type} {T : Blueprints} {s t u : Session σ} {name : String} {n : Nat}

/-! ## Requests that succeed -/

/-- How a registry moves when a request succeeds: the loader is called once for each module that is
new, and no load fails. -/
structure Linked (s t : Session σ) : Prop where
  grows : s.Grows t
  kept : ∀ {name}, s.registry.isLoaded name = true → t.registry.isLoaded name = true
  calls : ∀ name, t.loaderCalls s name =
    if s.registry.isLoaded name = false ∧ t.registry.isLoaded name = true then 1 else 0
  unfailed : ∀ {name}, s.registry.freshFailure? name = none →
    t.registry.freshFailure? name = none

namespace Linked

theorem of_uncalled (grows : s.Grows t) (uncalled : ∀ name, t.loaderCalls s name = 0)
    (modules : t.registry.modules = s.registry.modules)
    (unfailed : ∀ {name}, s.registry.freshFailure? name = none →
      t.registry.freshFailure? name = none) : Linked s t := by
  have same : ∀ name, t.registry.isLoaded name = s.registry.isLoaded name := by
    intro name
    rw [Registry.isLoaded, modules, Registry.isLoaded]
  refine ⟨grows, fun h => (same _).trans h, fun name => ?_, unfailed⟩
  rw [uncalled, same, if_neg]
  rintro ⟨unpublished, published⟩
  simp [unpublished] at published

theorem refl (s : Session σ) : Linked s s :=
  of_uncalled (.refl s) (Session.loaderCalls_self s) rfl (fun h => h)

theorem trans (first : Linked s t) (second : Linked t u) : Linked s u where
  grows := first.grows.trans second.grows
  kept h := second.kept (first.kept h)
  calls name := by
    have kept : s.registry.isLoaded name = true → t.registry.isLoaded name = true := first.kept
    have kept' : t.registry.isLoaded name = true → u.registry.isLoaded name = true := second.kept
    rw [Session.loaderCalls_trans first.grows second.grows, first.calls, second.calls]
    -- A name is new in one of the parts at most.
    cases hs : s.registry.isLoaded name <;> cases ht : t.registry.isLoaded name <;>
      cases hu : u.registry.isLoaded name <;> simp_all
  unfailed h := second.unfailed (first.unfailed h)

theorem found (h : Linked s t) (module symbol kind : String) :
    Linked s (t.log (.resolved module symbol kind)) := by
  refine h.trans (of_uncalled (Session.grows_log t _) (fun name => ?_) rfl fun hf => hf)
  rw [Session.loaderCalls, Session.since_log]
  rfl

/-- The one loader call for a module is the one that its own attempt begins with, as the requests in
between do not publish it. -/
theorem finished {b : Blueprint} (inside : 0 < s.registry.depth)
    (unpublished : s.registry.isLoaded name = false)
    (h : Linked ((s.opened name).change .enter) u) (still : u.registry.isLoaded name = false) :
    Linked s (b.finished name u) := by
  have begun := Session.grows_opened s name
  have during : (s.opened name).Grows u := h.grows
  have ended := b.grows_finished name u
  have published : ∀ other, (b.finished name u).registry.isLoaded other =
      if name = other then true else u.registry.isLoaded other := by
    intro other
    rw [Registry.isLoaded_eq, Registry.isLoaded_eq, b.module?_finished]
    split <;> rfl
  constructor
  case grows => exact (begun.trans during).trans ended
  case kept =>
    intro other hs
    rw [published]
    split
    · rfl
    · exact h.kept hs
  case calls =>
    intro other
    have requested : u.loaderCalls (s.opened name) other =
        if s.registry.isLoaded other = false ∧ u.registry.isLoaded other = true then 1 else 0 :=
      h.calls other
    rw [Session.loaderCalls_trans (begun.trans during) ended,
      Session.loaderCalls_trans begun during, b.uncalled_finished,
      Session.loaderCalls_opened, requested, published]
    by_cases hn : name = other
    · subst hn
      simp [unpublished, still]
    · simp [hn]
  case unfailed =>
    intro other hf
    have before : ((s.opened name).change .enter).registry.freshFailure? other = none :=
      (Session.freshFailure?_enter (s := s.opened name) inside other).trans hf
    rw [b.freshFailure?_finished]
    split
    · rfl
    · exact h.unfailed before

end Linked

theorem kept_of_resolveOne {i : Import} {symbol : Symbol} (h : T.Faithful s)
    (hr : Linking.resolveOne (Linking.fetch n) i s = (.ok symbol, t)) :
    T.Faithful t ∧ s.Steady t := by
  have grown := resolveOne_grown n i h
  have steady := Session.lawful_steady.resolveOne (Session.lawful_steady.fetch n) i s
  rw [hr] at grown steady
  exact ⟨grown.faithful, steady⟩

section Requests

variable (linked : ∀ {name} {s t : Session σ} {m}, T.Faithful s → 0 < s.registry.depth →
  Linking.fetch n name s = (.ok m, t) → Linked s t)

include linked

theorem resolveOne_linked {i : Import} {symbol : Symbol} (h : T.Faithful s)
    (inside : 0 < s.registry.depth)
    (hr : Linking.resolveOne (Linking.fetch n) i s = (.ok symbol, t)) : Linked s t := by
  obtain ⟨m, u, fetched, _, rfl⟩ := Linking.found_of_resolveOne hr
  exact (linked h inside fetched).found ..

theorem resolveEach_linked {imports : List Import} {symbols : List Symbol} (h : T.Faithful s)
    (inside : 0 < s.registry.depth)
    (hr : Linking.resolveEach (Linking.fetch n) imports s = (.ok symbols, t)) : Linked s t := by
  induction imports generalizing s symbols with
  | nil =>
      obtain ⟨-, rfl⟩ := Prod.mk.inj hr
      exact .refl s
  | cons i rest ih =>
      obtain ⟨symbol, later, u, first, others⟩ := Linking.found_of_resolveEach hr
      obtain ⟨faithful, steady⟩ := kept_of_resolveOne h first
      have inside' : 0 < u.registry.depth := steady.depth ▸ inside
      exact (resolveOne_linked linked h inside first).trans (ih faithful inside' others)

end Requests

theorem fetch_linked {m : Shared Module} (h : T.Faithful s) (inside : 0 < s.registry.depth)
    (hr : Linking.fetch n name s = (.ok m, t)) : Linked s t := by
  induction n generalizing name s t m with
  | zero =>
      rcases Linking.published_or_vacant_of_fetchBy hr with ⟨_, rfl⟩ | ⟨_, deep⟩
      · exact .refl s
      · cases (Prod.mk.inj deep).1
  | succ n ih =>
      rcases Linking.published_or_vacant_of_fetchBy hr with ⟨_, rfl⟩ | ⟨vacant, attempted⟩
      · exact .refl s
      · obtain ⟨b, symbols, u, hb, rfl, found⟩ := Linking.finished_of_attempt h.loader attempted
        have opened : T.Faithful ((s.opened name).change .enter) := h.of_same rfl rfl rfl
        have grown := Linking.resolveEach_grows n b.imports opened.layered
        rw [found] at grown
        have still := grown.unpublished (s.mem_loading_opened name) vacant.unpublished
        exact (resolveEach_linked ih opened (Nat.succ_pos _) found).finished inside
          vacant.not_loaded (Registry.isLoaded_eq_false_iff.mpr still)

/-! ## Requests that fail -/

/-- A request for a module inside requests that have not failed so far: the imports of all modules on
the load stack lead to it, and with the allowance the stack has room for the whole table. -/
structure Ready (T : Blueprints) (n : Nat) (s : Session σ) (name : String) : Prop where
  faithful : T.Faithful s
  inside : 0 < s.registry.depth
  unfailed : ∀ other, s.registry.freshFailure? other = none
  path : ∀ other ∈ s.registry.loading, other ∈ T ∧ T.LeadsTo other name
  nodup : s.registry.loading.Nodup
  room : T.size ≤ n + s.registry.loading.length

namespace Ready

theorem after (ready : T.Ready n s name) (faithful : T.Faithful t) (linked : Linked s t)
    (steady : s.Steady t) : T.Ready n t name where
  faithful := faithful
  inside := steady.depth ▸ ready.inside
  unfailed other := linked.unfailed (ready.unfailed other)
  path := steady.loading ▸ ready.path
  nodup := steady.loading ▸ ready.nodup
  room := steady.loading ▸ ready.room

theorem opened (ready : T.Ready (n + 1) s name) (defined : name ∈ T)
    (offStack : name ∉ s.registry.loading) {needed : String} (needs : T.Needs name needed) :
    T.Ready n ((s.opened name).change .enter) needed := by
  have stack : ((s.opened name).change .enter).registry.loading = s.registry.loading ++ [name] := rfl
  constructor
  case faithful => exact ready.faithful.of_same rfl rfl rfl
  case inside => exact Nat.succ_pos _
  case unfailed =>
    intro other
    have same := Session.freshFailure?_enter (s := s.opened name) ready.inside other
    exact same.trans (ready.unfailed other)
  case path =>
    intro other hl
    rw [stack, List.mem_append, List.mem_singleton] at hl
    rcases hl with hl | rfl
    · obtain ⟨hd, leads⟩ := ready.path other hl
      exact ⟨hd, leads.tail needs⟩
    · exact ⟨defined, .single needs⟩
  case nodup =>
    rw [stack, List.nodup_append]
    refine ⟨ready.nodup, List.pairwise_singleton _ name, fun other hl last hm heq => ?_⟩
    obtain rfl := List.mem_singleton.mp hm
    exact offStack (heq ▸ hl)
  case room =>
    have room := ready.room
    rw [stack, List.length_append, List.length_singleton]
    omega

/-- A request for a module that nothing stands in the way of gets as far as an attempt, if it does
not succeed before. -/
theorem vacant (ready : T.Ready n s name) (linkable : T.Linkable name) {onward : Linking.Fetch σ}
    {e : LinkError} (h : Linking.fetchBy onward name s = (.error e, t)) :
    s.Vacant name ∧ onward name s = (.error e, t) := by
  rcases Linking.refused_or_vacant_of_fetchBy h with failed | stacked | attempted
  · rw [ready.unfailed] at failed
    cases failed
  · exact (linkable.acyclic .refl (ready.path name stacked).2).elim
  · exact attempted

end Ready

section Requests

variable (stuck : ∀ {name} {s t : Session σ} {e}, T.Ready n s name →
  Linking.fetch n name s = (.error e, t) → ¬ T.Linkable name)

include stuck

theorem resolveEach_stuck {imports : List Import} {e : LinkError}
    (ready : ∀ i ∈ imports, T.Ready n s i.module)
    (hr : Linking.resolveEach (Linking.fetch n) imports s = (.error e, t)) :
    ∃ i ∈ imports, T.Linkable i.module → ¬ T.Exports i := by
  induction imports generalizing s with
  | nil => cases (Prod.mk.inj hr).1
  | cons i rest ih =>
      have first := ready i (.head _)
      rcases Linking.missed_of_resolveEach hr with missed | ⟨symbol, u, found, others⟩
      · rcases Linking.missed_of_resolveOne missed with failed | ⟨m, fetched, missing, _⟩
        · exact ⟨i, .head _, fun linkable => (stuck first failed linkable).elim⟩
        · refine ⟨i, .head _, fun _ ⟨b, hb, exported⟩ => ?_⟩
          have faithful : T.Faithful (Linking.fetch n i.module s).2 :=
            (fetch_grown n first.faithful).faithful
          rw [fetched] at faithful
          rw [faithful.value_eq (Linking.module?_of_fetch fetched) hb] at missing
          obtain ⟨symbol, hs⟩ := NameMap.mem_iff.mp exported
          cases missing.symm.trans hs
      · obtain ⟨faithful, steady⟩ := kept_of_resolveOne first.faithful found
        have linked := resolveOne_linked fetch_linked first.faithful first.inside found
        obtain ⟨i', hi', h⟩ :=
          ih (fun i' hi' => (ready i' (.tail _ hi')).after faithful linked steady) others
        exact ⟨i', .tail _ hi', h⟩

end Requests

/-- A request fails only for a module that something stands in the way of. -/
theorem fetch_stuck {e : LinkError} (ready : T.Ready n s name)
    (hr : Linking.fetch n name s = (.error e, t)) : ¬ T.Linkable name := by
  intro linkable
  have defined : name ∈ T := linkable.defined .refl
  induction n generalizing name s t e with
  | zero =>
      -- The stack holds other names of the table, all different, so it has room for this one.
      obtain ⟨vacant, _⟩ := ready.vacant linkable hr
      have shorter := NameMap.length_lt_size ready.nodup
        (fun other hl => (ready.path other hl).1) defined vacant.offStack
      have room := ready.room
      omega
  | succ n ih =>
      obtain ⟨vacant, attempted⟩ := ready.vacant linkable hr
      rcases Linking.unfinished_of_attempt ready.faithful.loader attempted with
        undefined | ⟨b, u, hb, missed⟩
      · obtain ⟨b, hb⟩ := NameMap.mem_iff.mp defined
        cases undefined.symm.trans hb
      · have needs : ∀ i ∈ b.imports, T.Needs name i.module := fun i hi => ⟨b, hb, i, hi, rfl⟩
        obtain ⟨i, hi, stuck⟩ :=
          resolveEach_stuck (fun ready hr linkable => ih ready hr linkable (linkable.defined .refl))
            (fun i hi => ready.opened defined vacant.offStack (needs i hi)) missed
        exact stuck (linkable.of_reaches (.single (needs i hi))) (linkable.exported .refl hb hi)

/-! ## Loads from outside -/

/-- A registry that no request is being made to loads a module if and only if nothing stands in the
way of it. -/
theorem load_ok_iff (h : T.Faithful s) (dated : s.registry.Dated) (idle : s.registry.Idle)
    (room : T.size ≤ n) :
    (∃ m, (Linking.load (Linking.fetch n) name s).1 = .ok m) ↔ T.Linkable name := by
  obtain ⟨stack, outside, _⟩ := idle
  simp only [Linking.load, Linking.inFrame]
  rcases hr : Linking.fetch n name (s.change .enter) with ⟨e | m, t⟩
  · have ready : T.Ready n (s.change .enter) name := by
      have inside : (s.change .enter).registry.loading = [] := stack
      refine ⟨h.enter, Nat.succ_pos _, dated.freshFailure?_enter outside, ?_, ?_, ?_⟩ <;> rw [inside]
      · intro other hl
        cases hl
      · exact List.nodup_nil
      · exact room
    have stuck := fetch_stuck ready hr
    simp [stuck]
  · have grown : T.Grown [name] (s.change .enter) _ := fetch_grown n h.enter
    rw [hr] at grown
    have published := Registry.isLoaded_iff.mpr ⟨m, Linking.module?_of_fetch hr⟩
    simp [grown.faithful.linkable published]

/-- A load that succeeds publishes what the module reaches, with one loader call for each module that
is new. -/
theorem published_of_load (h : T.Faithful s) {m : Shared Module}
    (hr : (Linking.load (Linking.fetch n) name s).1 = .ok m) :
    let t := (Linking.load (Linking.fetch n) name s).2
    (∀ other, t.registry.isLoaded other = true ↔
      s.registry.isLoaded other = true ∨ T.Reaches name other) ∧
    ∀ other, t.loaderCalls s other =
      if s.registry.isLoaded other = false ∧ t.registry.isLoaded other = true then 1 else 0 := by
  have grown : T.Grown [name] (s.change .enter) _ := fetch_grown n h.enter
  have hf : Linking.fetch n name (s.change .enter) =
      (.ok m, (Linking.fetch n name (s.change .enter)).2) := Prod.ext hr rfl
  have linked := fetch_linked h.enter (Nat.succ_pos _) hf
  have published := Registry.isLoaded_iff.mpr ⟨m, Linking.module?_of_fetch hf⟩
  refine ⟨fun other => ⟨fun hl => ?_, ?_⟩, linked.calls⟩
  · refine (grown.reached hl).imp_right fun ⟨_, root, hroot, reaches⟩ => ?_
    exact List.mem_singleton.mp hroot ▸ reaches
  · rintro (before | reaches)
    · exact linked.kept before
    · exact grown.faithful.isLoaded_of_reaches published reaches

/-- Whatever a registry was asked to load and to resolve before, a load succeeds if and only if all
that the module reaches is defined, is not on a cycle, and imports only what is exported. Then what
is published is what was before and what the module reaches, the loader has been called once for
each module that is new, and every module is what its blueprint says and was published after all that
it imports from. -/
theorem loading_agrees_with_linking (T : Blueprints) (options : Options) (data : σ)
    (history : List Call) (room : T.size ≤ options.maxLoadDepth) (name : String) :
    let s := (Session.start options (some T.loader) data).afterAll (history.map .call)
    let t := (s.load name).2
    ((∃ m, (s.load name).1 = .ok m) ↔ T.Linkable name) ∧
    ((∃ m, (s.load name).1 = .ok m) →
      (∀ other, t.registry.isLoaded other = true ↔
        s.registry.isLoaded other = true ∨ T.Reaches name other) ∧
      (∀ other, T.Reaches name other → s.registry.isLoaded other = false →
        t.loaderCalls s other = 1) ∧
      (∀ other, ¬ (T.Reaches name other ∧ s.registry.isLoaded other = false) →
        t.loaderCalls s other = 0) ∧
      ∀ other m, t.registry.module? other = some m →
        ∃ b, T[other]? = some b ∧ m.value = b.module other ∧
          ∀ i ∈ b.imports, ∃ m', t.registry.module? i.module = some m' ∧ m'.id < m.id) := by
  intro s t
  have faithful : T.Faithful s := (Faithful.start T options data).afterAll history
  have dated : s.registry.Dated :=
    lawful_dated.afterAll _ _ (Session.dated_start options (some T.loader) data)
  have between := Session.idle_afterAll options (some T.loader) data (history.map .call)
  obtain ⟨idle, limit⟩ : s.registry.Idle ∧ s.registry.options = options := between
  have allowance : s.registry.allowance = options.maxLoadDepth := by
    rw [idle.allowance_eq, limit]
  have loaded : s.load name = Linking.load (Linking.fetch options.maxLoadDepth) name s := by
    rw [Session.load, Session.fetch, allowance]
  have after : T.Faithful t := faithful.call s.registry.allowance (.load name)
  constructor
  · rw [loaded]
    exact load_ok_iff faithful dated idle room
  · rintro ⟨m, hm⟩
    have done : t = (Linking.load (Linking.fetch options.maxLoadDepth) name s).2 :=
      congrArg Prod.snd loaded
    obtain ⟨published, calls⟩ := published_of_load faithful (loaded ▸ hm)
    rw [← done] at published calls
    refine ⟨published, fun other reaches new => ?_, fun other old => ?_, fun other m' hm' => ?_⟩
    · rw [calls, if_pos ⟨new, (published other).mpr (.inr reaches)⟩]
    · rw [calls, if_neg]
      rintro ⟨new, hl⟩
      rcases (published other).mp hl with before | reaches
      · simp [new] at before
      · exact old ⟨reaches, new⟩
    · obtain ⟨b, hb, hv⟩ := after.built hm'
      exact ⟨b, hb, hv, fun i hi => after.needed hm' ⟨b, hb, i, hi, rfl⟩⟩

def diamond : Blueprints :=
  (((((∅ : Blueprints).insert "A" ⟨[⟨"B", "x"⟩, ⟨"C", "x"⟩], .single⟩).insert "B"
    ⟨[⟨"D", "x"⟩], .single⟩).insert "C" ⟨[⟨"D", "x"⟩], .single⟩).insert "D" ⟨[], .single⟩).insert
    "E" ⟨[⟨"D", "x"⟩, ⟨"F", "x"⟩], .single⟩

/-- The failed load of one module leaves the shared source published, which the other load does not
load again. -/
theorem loading_agrees_with_linking_on_diamond :
    let s := (Session.start {} (some diamond.loader) ()).afterAll [.call (.load "E")]
    s.registry.lastFailure? "E" = some (.moduleNotFound "F") ∧
      s.registry.isLoaded "D" = true ∧ diamond.Linkable "A" ∧
      (s.load "A").2.loaderCalls s "B" = 1 ∧ (s.load "A").2.loaderCalls s "D" = 0 := by
  intro s
  have agrees := loading_agrees_with_linking diamond {} () [.load "E"] (by decide) "A"
  have ok : ∃ m, (s.load "A").1 = .ok m := ⟨_, rfl⟩
  obtain ⟨_, once, others, _⟩ := agrees.2 ok
  have needs : diamond.Needs "A" "B" := ⟨_, rfl, ⟨"B", "x"⟩, .head _, rfl⟩
  have before : s.registry.isLoaded "D" = true := by decide
  refine ⟨by decide, before, agrees.1.mp ok, once "B" (.single needs) (by decide), others "D" ?_⟩
  rintro ⟨_, new⟩
  exact absurd (before.symm.trans new) (by decide)

end MibLinker.Blueprints
