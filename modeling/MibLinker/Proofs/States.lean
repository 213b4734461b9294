import MibLinker.Proofs.Building.Basic
import MibLinker.Proofs.Retry

/-!
# Load states

The state of a name is read off three tables: the publications, the load stack and the failures.
Between them they never lose a name that a loader has been called for. While the call runs it is on
the load stack; and when the call has ended, the name is published or has failed for good.
-/

namespace MibLinker

variable {σ : Type}

/-! ## States and outcomes -/

namespace Registry

variable {r : Registry} {name : String}

def HasOutcome (r : Registry) (name : String) : Prop :=
  r.isLoaded name = true ∨ ∃ e, r.lastFailure? name = some e

theorem contains_failures_iff :
    r.failures.contains name = true ↔ ∃ e, r.lastFailure? name = some e := by
  rw [Std.ExtTreeMap.contains_eq_isSome_getElem?, Option.isSome_iff_exists]
  simp [lastFailure?]

theorem state_eq_loaded_iff : r.state name = .loaded ↔ r.isLoaded name = true := by
  unfold state
  split_ifs <;> simp_all

theorem state_eq_loading_iff :
    r.state name = .loading ↔ r.isLoaded name = false ∧ name ∈ r.loading := by
  unfold state
  split_ifs <;> simp_all

theorem state_eq_failed_iff : r.state name = .failed ↔
    r.isLoaded name = false ∧ name ∉ r.loading ∧ ∃ e, r.lastFailure? name = some e := by
  rw [← contains_failures_iff]
  unfold state
  split_ifs <;> simp_all

theorem state_eq_unloaded_iff : r.state name = .unloaded ↔
    r.isLoaded name = false ∧ name ∉ r.loading ∧ r.lastFailure? name = none := by
  have failed : r.failures.contains name = true ↔ (r.lastFailure? name).isSome = true :=
    contains_failures_iff.trans Option.isSome_iff_exists.symm
  rw [← Option.not_isSome_iff_eq_none, ← failed]
  unfold state
  split_ifs <;> simp_all

/-- A name on the load stack is loading, or published already. -/
theorem state_of_mem_loading (h : name ∈ r.loading) :
    r.state name = .loading ∨ r.state name = .loaded := by
  rw [state_eq_loading_iff, state_eq_loaded_iff]
  cases r.isLoaded name <;> simp [h]

theorem state_of_hasOutcome (h : r.HasOutcome name) (offStack : name ∉ r.loading) :
    r.state name = .loaded ∨ r.state name = .failed := by
  rw [state_eq_loaded_iff, state_eq_failed_iff]
  rcases h with hl | failed
  · exact .inl hl
  · cases hl : r.isLoaded name with
    | true => exact .inl rfl
    | false => exact .inr ⟨rfl, offStack, failed⟩

/-! What each change does to outcomes. -/

theorem HasOutcome.publish (h : r.HasOutcome name) (m : Module) :
    (r.publish m).2.HasOutcome name := by
  by_cases hn : m.name = name
  · exact .inl (isLoaded_iff.mpr ⟨⟨r.publications, m⟩, by rw [module?_publish, if_pos hn]⟩)
  · refine h.imp (fun hl => ?_) fun ⟨e, he⟩ => ⟨e, ?_⟩
    · rwa [isLoaded_eq, module?_publish, if_neg hn, ← isLoaded_eq]
    · rwa [lastFailure?, failures_publish, if_neg hn]

theorem HasOutcome.recordFailure (h : r.HasOutcome name) (failed : String) (e : LinkError) :
    (r.recordFailure failed e).HasOutcome name := by
  refine h.imp id fun ⟨e', he⟩ => ?_
  by_cases hn : failed = name
  · exact ⟨e, by rw [lastFailure?, failures_recordFailure, if_pos hn]; rfl⟩
  · exact ⟨e', by rwa [lastFailure?, failures_recordFailure, if_neg hn]⟩

theorem hasOutcome_recordFailure (r : Registry) (name : String) (e : LinkError) :
    (r.recordFailure name e).HasOutcome name :=
  .inr ⟨e, by rw [lastFailure?, failures_recordFailure, if_pos rfl]; rfl⟩

end Registry

/-! ## What a run does about outcomes -/

theorem Lawful.and {R Q : Session σ → Session σ → Prop} (hR : Lawful R) (hQ : Lawful Q) :
    Lawful fun s t => R s t ∧ Q s t where
  refl s := ⟨hR.refl s, hQ.refl s⟩
  trans first second := ⟨hR.trans first.1 second.1, hQ.trans first.2 second.2⟩
  find s module symbol kind := ⟨hR.find s module symbol kind, hQ.find s module symbol kind⟩
  frame inside := ⟨hR.frame inside.1, hQ.frame inside.2⟩
  construct offStack inside := ⟨hR.construct offStack inside.1, hQ.construct offStack inside.2⟩
  publish s m := ⟨hR.publish s m, hQ.publish s m⟩
  replace s loader := ⟨hR.replace s loader, hQ.replace s loader⟩
  desk s desk := ⟨hR.desk s desk, hQ.desk s desk⟩
  absent vacant hl := ⟨hR.absent vacant hl, hQ.absent vacant hl⟩
  failed e vacant inside := ⟨hR.failed e vacant inside.1, hQ.failed e vacant inside.2⟩
  loaded vacant inside hm := ⟨hR.loaded vacant inside.1 hm, hQ.loaded vacant inside.2 hm⟩

namespace Session

/-- Whether outcomes stay told, and the names that a loader has been called for get one. -/
structure Concludes (earlier later : Session σ) : Prop where
  grows : earlier.Grows later
  kept : ∀ {name}, earlier.registry.HasOutcome name → later.registry.HasOutcome name
  called : ∀ {name}, 0 < later.loaderCalls earlier name → later.registry.HasOutcome name

theorem Concludes.of_uncalled {s t : Session σ} (grows : s.Grows t)
    (uncalled : ∀ name, t.loaderCalls s name = 0)
    (kept : ∀ {name}, s.registry.HasOutcome name → t.registry.HasOutcome name) : s.Concludes t :=
  ⟨grows, kept, fun {name} pos => by simp [uncalled name] at pos⟩

theorem Concludes.trans {s t u : Session σ} (first : s.Concludes t) (second : t.Concludes u) :
    s.Concludes u := by
  refine ⟨first.grows.trans second.grows, fun h => second.kept (first.kept h), fun {name} pos => ?_⟩
  rw [loaderCalls_trans first.grows second.grows] at pos
  by_cases later : 0 < u.loaderCalls t name
  · exact second.called later
  · exact second.kept (first.called (by omega))

/-- A load that has ended tells the outcome of its own name, and keeps those of others. -/
theorem Concludes.ended {s t u : Session σ} {name : String} (h : (s.opened name).Concludes t)
    (grows : t.Grows u) (uncalled : ∀ other, u.loaderCalls t other = 0)
    (kept : ∀ {other}, t.registry.HasOutcome other → u.registry.HasOutcome other)
    (outcome : u.registry.HasOutcome name) : s.Concludes u := by
  have begun := grows_opened s name
  refine ⟨(begun.trans h.grows).trans grows, fun before => kept (h.kept before), ?_⟩
  intro other pos
  rw [loaderCalls_trans (begun.trans h.grows) grows, loaderCalls_trans begun h.grows, uncalled,
    loaderCalls_opened] at pos
  by_cases hn : name = other
  · exact hn ▸ outcome
  · rw [if_neg hn] at pos
    exact kept (h.called (by omega))

theorem hasOutcome_withdraw {t : Session σ} {name other : String} (e : LinkError)
    (h : t.registry.HasOutcome other) :
    ((t.closed.discard name).recordFailure name e).registry.HasOutcome other := by
  by_cases hn : name = other
  · exact hn ▸ Registry.hasOutcome_recordFailure _ name e
  · have discarded : (t.closed.discard name).registry.HasOutcome other := by
      refine h.imp (fun hl => ?_) fun ⟨e', he⟩ => ⟨e', ?_⟩
      · rw [Registry.isLoaded_eq, module?_discard, if_neg hn]
        exact (Registry.isLoaded_eq ..).symm.trans hl
      · unfold discard
        split <;> exact he
    exact discarded.recordFailure name e

theorem lawful_concludes : Lawful (Concludes (σ := σ)) where
  refl s := .of_uncalled (.refl s) (loaderCalls_self s) id
  trans := .trans
  find s _ _ _ := .of_uncalled (grows_log s _) (fun _ => loaderCalls_log rfl) id
  frame h := ⟨h.grows, h.kept, h.called⟩
  construct _ h := ⟨h.grows, h.kept, h.called⟩
  publish s m := .of_uncalled (grows_publish s m) (loaderCalls_publish s m) fun h => h.publish m
  replace s _ := .of_uncalled (.refl s) (loaderCalls_self s) id
  desk s desk := .of_uncalled (grows_withDesk s desk) (loaderCalls_withDesk s desk) id
  absent {s name} _ _ := .of_uncalled (grows_recordFailure s name _) (fun _ => loaderCalls_log rfl)
    fun h => h.recordFailure name _
  failed {_ t name} e _ h := h.ended (grows_withdraw t name e) (loaderCalls_withdraw t name e)
    (hasOutcome_withdraw e) (Registry.hasOutcome_recordFailure _ name e)
  loaded {_ t _ m} _ h hm := h.ended (grows_log t _) (fun _ => loaderCalls_log rfl) id
    (.inl (Registry.isLoaded_iff.mpr ⟨m, hm⟩))

end Session

/-! ## States in a run -/

theorem Session.Concludes.told {s t : Session σ} {name : String} (h : s.Concludes t)
    (steady : s.Steady t)
    (before : 0 < s.journal.countP (Entry.calls name) →
      s.registry.HasOutcome name ∨ name ∈ s.registry.loading)
    (pos : 0 < t.journal.countP (Entry.calls name)) :
    t.registry.HasOutcome name ∨ name ∈ t.registry.loading := by
  have split : t.journal.countP (Entry.calls name) =
      t.loaderCalls s name + s.journal.countP (Entry.calls name) := by
    rw [h.grows, List.countP_append]
    rfl
  rw [steady.loading]
  by_cases since : 0 < t.loaderCalls s name
  · exact .inl (h.called since)
  · exact (before (by omega)).imp_left h.kept

/-- A name that a loader has been called for has an outcome, or is on the load stack. -/
theorem Observable.told {s : Session σ} (seen : Observable s) {name : String}
    (called : 0 < s.journal.countP (Entry.calls name)) :
    s.registry.HasOutcome name ∨ name ∈ s.registry.loading := by
  obtain ⟨options, loader, data, script, m, hm, rfl⟩ := seen
  refine Within.preserves
    (P := fun _ s => 0 < s.journal.countP (Entry.calls name) →
      s.registry.HasOutcome name ∨ name ∈ s.registry.loading)
    (Session.lawful_concludes.and Session.lawful_steady) ?after (fun h => h) ?construct ?opened hm
    ?start called
  case after => exact fun ⟨concludes, steady⟩ h => concludes.told steady h
  case construct => exact fun _ h pos => (h pos).imp_right (List.mem_append_left _)
  case opened =>
    intro _ s other vacant h pos
    by_cases hn : other = name
    · exact .inr (hn ▸ List.mem_append_right _ (List.mem_singleton_self _))
    · have before : (s.opened other).journal.countP (Entry.calls name) =
          s.journal.countP (Entry.calls name) :=
        List.countP_cons_of_neg (by simpa [Entry.calls] using hn)
      exact (h (before ▸ pos)).imp_right (List.mem_append_left _)
  case start => exact fun pos => (Nat.lt_irrefl 0 pos).elim

/-- While a loader call runs, its name is on the load stack. -/
theorem Within.mem_loading {allowance : Nat} {script : Script σ} {s : Session σ} {name : String}
    {m : Moment σ} (h : Within ⟨allowance, .script script, s.opened name⟩ m) :
    name ∈ m.session.registry.loading := by
  refine Within.preserves (P := fun _ s => name ∈ s.registry.loading) Session.lawful_steady
    (fun steady h => by rwa [steady.loading]) (fun h => h) (fun _ h => List.mem_append_left _ h)
    (fun _ h => List.mem_append_left _ h) h ?_
  exact List.mem_append_right _ (List.mem_singleton_self _)

/-- When a loader call has ended, its name is published or its failure is remembered. -/
theorem Linking.hasOutcome_of_attempt (fetch : Fetch σ) (name : String) (s : Session σ) :
    (attempt fetch name s).2.registry.HasOutcome name := by
  rcases attempt_cases fetch name s with
    ⟨-, heq⟩ | ⟨loader, -, ⟨e, t, -, heq⟩ | ⟨m, t, -, hm, heq⟩⟩ <;> rw [heq]
  · exact Registry.hasOutcome_recordFailure _ name _
  · exact Registry.hasOutcome_recordFailure _ name e
  · exact .inl (Registry.isLoaded_iff.mpr ⟨m, hm⟩)

/-! ## Loads from outside -/

/-- A load from outside gets as far as the loader if the module is not published. -/
theorem Session.vacant_of_idle {s : Session σ} {name : String} (idle : s.registry.Idle)
    (dated : s.registry.Dated) (unpublished : s.registry.module? name = none) :
    (s.change .enter).Vacant name := by
  obtain ⟨empty, outside, -⟩ := idle
  refine ⟨unpublished, dated.freshFailure?_enter outside name, ?_⟩
  change name ∉ s.registry.loading
  rw [empty]
  exact List.not_mem_nil

theorem Session.fetch_of_room {s : Session σ} (idle : s.registry.Idle)
    (room : 1 ≤ s.registry.options.maxLoadDepth) : ∃ rest, s.fetch = Linking.fetch (rest + 1) := by
  refine ⟨s.registry.options.maxLoadDepth - 1, ?_⟩
  rw [Session.fetch, idle.allowance_eq, Nat.sub_add_cancel room]

/-- A load from outside publishes its module, or leaves it unpublished and remembers the error. -/
theorem Session.outcome_of_load {s : Session σ} (seen : Observable s) (idle : s.registry.Idle)
    (room : 1 ≤ s.registry.options.maxLoadDepth) (name : String) :
    match s.load name with
    | (.ok _, t) => t.registry.isLoaded name = true ∧ t.registry.lastFailure? name = none
    | (.error e, t) =>
        t.registry.isLoaded name = false ∧ t.registry.lastFailure? name = some e := by
  obtain ⟨rest, hfetch⟩ := Session.fetch_of_room idle room
  have entered : (s.change .enter).registry.Coherent :=
    (coherent_of_observable seen).congr ⟨rfl, rfl, rfl⟩
  have coherent := Session.lawful_coherent.fetch (rest + 1) name (s.change .enter) entered
  unfold Session.load Linking.load Linking.inFrame
  rw [hfetch]
  rcases hr : Linking.fetch (rest + 1) name (s.change .enter) with ⟨e | m, t⟩ <;>
    rw [hr] at coherent
  · have unpublished := Linking.unpublished_of_fetch hr
    have vacant : (s.change .enter).Vacant name := by
      refine Session.vacant_of_idle idle seen.dated ?_
      cases hm : s.registry.module? name with
      | none => rfl
      | some m =>
          have found := Linking.fetch_of_published (rest + 1) (s := s.change .enter) hm
          rw [hr] at found
          cases (Prod.mk.inj found).1
    rw [Linking.fetch, Linking.fetchBy_of_vacant _ vacant] at hr
    have remembered := Linking.lastFailure?_of_attempt hr
    exact ⟨Registry.isLoaded_eq_false_iff.mpr unpublished, remembered⟩
  · have published : t.registry.isLoaded name = true :=
      Registry.isLoaded_iff.mpr ⟨m, Linking.module?_of_fetch hr⟩
    refine ⟨published, ?_⟩
    cases hf : t.registry.lastFailure? name with
    | none => exact hf
    | some e =>
        have unpublished := coherent.unpublished_of_failed hf
        rw [published] at unpublished
        cases unpublished

/-- A name that a loader has been called for is never unloaded again: it is loading or loaded while
it is on the load stack, as it is as long as the call runs, and loaded or failed while it is not.
Between operations from outside nothing is loading, what is published is loaded, and what has failed
is failed. A load from outside, where the options allow one at all, leaves its name loaded or failed
according to its answer. -/
theorem load_states :
    (∀ s : Session σ, Observable s → ∀ name, 0 < s.journal.countP (Entry.calls name) →
      s.registry.state name ≠ .unloaded ∧
        (name ∈ s.registry.loading →
          s.registry.state name = .loading ∨ s.registry.state name = .loaded) ∧
        (name ∉ s.registry.loading →
          s.registry.state name = .loaded ∨ s.registry.state name = .failed)) ∧
    (∀ (allowance : Nat) (s : Session σ) (name : String) (loader : Loader σ),
      s.Vacant name → s.loader = some loader →
        (∀ m, Within ⟨allowance, .script (loader.definition name), s.opened name⟩ m →
          m.session.registry.state name = .loading ∨ m.session.registry.state name = .loaded) ∧
        ((Linking.attempt (Linking.fetch allowance) name s).2.registry.state name = .loaded ∨
          (Linking.attempt (Linking.fetch allowance) name s).2.registry.state name = .failed)) ∧
    ∀ (options : Options) (loader : Option (Loader σ)) (data : σ) (operations : List (Operation σ))
      (name : String),
      let s := (Session.start options loader data).afterAll operations
      s.registry.state name ≠ .loading ∧
        (s.registry.state name = .loaded ↔ s.registry.isLoaded name = true) ∧
        (s.registry.state name = .failed ↔ ∃ e, s.registry.lastFailure? name = some e) ∧
        ¬ (s.registry.isLoaded name = true ∧ ∃ e, s.registry.lastFailure? name = some e) ∧
        (1 ≤ options.maxLoadDepth →
          match s.load name with
          | (.ok _, t) => t.registry.state name = .loaded ∧ t.registry.lastFailure? name = none
          | (.error e, t) =>
              t.registry.state name = .failed ∧ t.registry.lastFailure? name = some e) := by
  refine ⟨?called, ?running, ?between⟩
  case called =>
    intro s seen name called
    have told := seen.told called
    have stacked : name ∈ s.registry.loading →
        s.registry.state name = .loading ∨ s.registry.state name = .loaded :=
      Registry.state_of_mem_loading
    have settled : name ∉ s.registry.loading →
        s.registry.state name = .loaded ∨ s.registry.state name = .failed :=
      fun offStack => Registry.state_of_hasOutcome (told.resolve_right offStack) offStack
    refine ⟨fun unloaded => ?_, stacked, settled⟩
    by_cases onStack : name ∈ s.registry.loading
    · rcases stacked onStack with h | h <;> rw [unloaded] at h <;> cases h
    · rcases settled onStack with h | h <;> rw [unloaded] at h <;> cases h
  case running =>
    intro allowance s name loader vacant hl
    refine ⟨fun m within => Registry.state_of_mem_loading within.mem_loading, ?_⟩
    have steady := Session.lawful_steady.attempt (Session.lawful_steady.fetch allowance) vacant
    refine Registry.state_of_hasOutcome (Linking.hasOutcome_of_attempt _ name s) ?_
    rw [steady.loading]
    exact vacant.offStack
  case between =>
    intro options loader data operations name s
    have seen : Observable s := observable_afterAll options loader data operations
    obtain ⟨idle, limit⟩ := Session.idle_afterAll options loader data operations
    have empty : s.registry.loading = [] := idle.1
    have coherent := coherent_of_observable seen
    refine ⟨?loading, Registry.state_eq_loaded_iff, ?failed, ?both, ?load⟩
    case loading => simp [Registry.state_eq_loading_iff, empty]
    case failed =>
      rw [Registry.state_eq_failed_iff]
      refine ⟨fun h => h.2.2, fun ⟨e, he⟩ => ⟨coherent.unpublished_of_failed he, ?_, e, he⟩⟩
      simp [empty]
    case both =>
      rintro ⟨published, e, he⟩
      simp [coherent.unpublished_of_failed he] at published
    case load =>
      intro room
      have steady := Session.lawful_steady.load (Session.lawful_steady.fetch s.registry.allowance)
        name s
      have outcome := Session.outcome_of_load seen idle (limit ▸ room) name
      rcases hr : s.load name with ⟨e | m, t⟩ <;> rw [hr] at outcome
      · have cleared : t.registry.loading = [] := by
          rw [← empty, ← steady.loading]
          exact congrArg (fun step => step.2.registry.loading) hr.symm
        refine ⟨Registry.state_eq_failed_iff.mpr ⟨outcome.1, ?_, e, outcome.2⟩, outcome.2⟩
        simp [cleared]
      · exact ⟨Registry.state_eq_loaded_iff.mpr outcome.1, outcome.2⟩

def Loader.watching : Loader Unit where
  offers _ := true
  definition name :=
    if name = "X" then .fail (.definition name "no")
    else .look fun _ => .publish (.ofExports name .single) fun _ => .succeed

def Session.watched : Session Unit :=
  ((((start {} (some .watching) ()).load "X").2.constructing "X").change .enter).opened "Y"

theorem Session.observable_watched : Observable watched := by
  refine ⟨{}, some .watching, (),
    .load "X" fun _ => .resolveFrom "X" [⟨"Y", "x"⟩] fun _ => .succeed,
    ⟨63, .script (Loader.watching.definition "Y"), watched⟩, ?_, rfl⟩
  refine .tail (.tail (.tail (.tail .refl (.advance rfl)) .resolveFrom) .first)
    (.call ⟨?_, ?_, ?_⟩ rfl)
  all_goals decide

/-- After a loader call has failed, its name may be loading though no call for it runs: as the
requester of symbols it is on the load stack again. -/
theorem loading_after_failed_call :
    ¬ ∀ (s : Session Unit) (name : String) (e : LinkError), Observable s →
      0 < s.journal.countP (Entry.calls name) →
      s.journal.find? (fun entry => entry.calls name || entry.attempts name) =
        some (.event (.loadFailed name e)) →
      s.registry.state name = .loaded ∨ s.registry.state name = .failed := by
  intro settled
  have seen := settled .watched "X" (.definition "X" "no") Session.observable_watched (by decide)
    (by decide)
  have loading : Session.watched.registry.state "X" = .loading := by decide
  simp [loading] at seen

theorem load_states_of_watching :
    let failed := (Session.start {} (some Loader.watching) ()).load "X"
    failed.2.registry.state "X" = .failed ∧
      failed.2.registry.lastFailure? "X" = some (.definition "X" "no") ∧
      0 < Session.watched.journal.countP (Entry.calls "X") ∧
      Session.watched.registry.state "X" = .loading ∧
      Session.watched.registry.state "X" ≠ .unloaded := by
  have between := (load_states.2.2 {} (some Loader.watching) () [] "X").2.2.2.2 (by decide)
  have called : 0 < Session.watched.journal.countP (Entry.calls "X") := by decide
  exact ⟨between.1, between.2, called, by decide,
    (load_states.1 .watched Session.observable_watched "X" called).1⟩

end MibLinker
