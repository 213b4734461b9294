import MibLinker.Proofs.Attempts

/-!
# One attempt in a request

A failure is remembered with the generation of the request from outside that it happened in. Inside
that request it is repeated for whoever asks again, and the next request from outside begins a
generation of its own, in which no failure has happened yet.
-/

namespace MibLinker

variable {σ : Type}

/-! ## Loader calls belong to attempts -/

namespace Session

/-- Whether a run makes no more loader calls for a name than attempts that end. -/
structure CallsEnd (earlier later : Session σ) : Prop where
  grows : earlier.Grows later
  calls : ∀ name, later.loaderCalls earlier name ≤ later.tries earlier name

theorem CallsEnd.of_uncalled {s t : Session σ} (grows : s.Grows t)
    (uncalled : ∀ name, t.loaderCalls s name = 0) : s.CallsEnd t :=
  ⟨grows, fun name => by simp [uncalled name]⟩

theorem CallsEnd.trans {s t u : Session σ} (first : s.CallsEnd t) (second : t.CallsEnd u) :
    s.CallsEnd u := by
  refine ⟨first.grows.trans second.grows, fun name => ?_⟩
  rw [loaderCalls_trans first.grows second.grows, tries_trans first.grows second.grows]
  exact Nat.add_le_add (second.calls name) (first.calls name)

theorem CallsEnd.ended {s t u : Session σ} {name : String} (h : (s.opened name).CallsEnd t)
    (ends : t.Ends name u) (uncalled : ∀ other, u.loaderCalls t other = 0) : s.CallsEnd u := by
  have begun := grows_opened s name
  refine ⟨(begun.trans h.grows).trans ends.grows, fun other => ?_⟩
  rw [loaderCalls_trans (begun.trans h.grows) ends.grows, loaderCalls_trans begun h.grows,
    tries_trans (begun.trans h.grows) ends.grows, tries_of_opened h.grows, uncalled,
    loaderCalls_opened, ends.tries]
  have := h.calls other
  omega

theorem lawful_callsEnd : Lawful (CallsEnd (σ := σ)) where
  refl s := .of_uncalled (.refl s) (loaderCalls_self s)
  trans := .trans
  find s _ _ _ := .of_uncalled (grows_log s _) fun _ => loaderCalls_log rfl
  frame h := ⟨h.grows, h.calls⟩
  construct _ h := ⟨h.grows, h.calls⟩
  publish s m := .of_uncalled (grows_publish s m) (loaderCalls_publish s m)
  replace s _ := .of_uncalled (.refl s) (loaderCalls_self s)
  desk s desk := .of_uncalled (grows_withDesk s desk) (loaderCalls_withDesk s desk)
  absent {s name} _ _ := .of_uncalled (grows_recordFailure s name _) fun _ => loaderCalls_log rfl
  failed {_ t name} e _ h := h.ended (ends_failed t name e) (loaderCalls_withdraw t name e)
  loaded _ h hm := h.ended (ends_loaded hm) fun _ => loaderCalls_log rfl

end Session

/-! ## Failures are dated -/

def Registry.Dated (r : Registry) : Prop :=
  ∀ (name : String) (failure : Failure), r.failures[name]? = some failure →
    failure.generation ≤ r.generation

namespace Registry.Dated

variable {r : Registry}

theorem enter (h : r.Dated) : r.enter.Dated := by
  intro name failure hf
  have before : failure.generation ≤ r.generation := h name failure hf
  change failure.generation ≤ if r.depth = 0 then r.generation + 1 else r.generation
  split <;> omega

theorem publish (h : r.Dated) (m : Module) : (r.publish m).2.Dated := by
  intro name failure hf
  rw [failures_publish] at hf
  split at hf
  · cases hf
  · exact h _ failure hf

theorem recordFailure (h : r.Dated) (name : String) (e : LinkError) :
    (r.recordFailure name e).Dated := by
  intro other failure hf
  rw [failures_recordFailure] at hf
  split at hf
  · obtain rfl := Option.some.inj hf
    exact Nat.le_refl _
  · exact h _ failure hf

theorem freshFailure?_enter (h : r.Dated) (outside : r.depth = 0) (name : String) :
    r.enter.freshFailure? name = none := by
  cases hf : r.enter.freshFailure? name with
  | none => rfl
  | some e =>
      rw [freshFailure?_eq_some_iff] at hf
      have dated : r.enter.generation ≤ r.generation := h name ⟨r.enter.generation, e⟩ hf
      have begun : r.enter.generation = r.generation + 1 := if_pos outside
      rw [begun] at dated
      exact absurd dated (Nat.not_succ_le_self _)

end Registry.Dated

theorem Session.dated_discard {s : Session σ} (h : s.registry.Dated) (name : String) :
    (s.discard name).registry.Dated := by
  unfold Session.discard
  split <;> exact h

theorem lawful_dated :
    Lawful fun s t : Session σ => s.registry.Dated → t.registry.Dated where
  refl _ h := h
  trans first second h := second (first h)
  find _ _ _ _ h := h
  frame inside h := inside h.enter
  construct _ inside h := inside h
  publish _ m h := h.publish m
  replace _ _ h := h
  desk _ _ h := h
  absent _ _ h := h.recordFailure _ _
  failed {_ t name} e _ inside h :=
    (Session.dated_discard (s := t.closed) (inside h) name).recordFailure name e
  loaded _ inside _ h := inside h

theorem Session.dated_start (options : Options) (loader : Option (Loader σ)) (data : σ) :
    (Session.start options loader data).registry.Dated := by
  intro name failure hf
  simp [Session.start, Registry.ofOptions] at hf

theorem Observable.dated {s : Session σ} (h : Observable s) : s.registry.Dated := by
  exact Observable.holds lawful_dated Session.dated_start (fun h => h.enter) (fun _ h => h)
    (fun _ h => h) h

/-! ## Moments of a request -/

/-- What holds at every moment of a request from outside that was made in an earlier session: the
failures that are repeated are those of this request, and they are repeated until their names are
published. -/
structure During (earlier : Session σ) (allowance : Nat) (s : Session σ) : Prop where
  grows : earlier.Grows s
  inside : 0 < s.registry.depth
  allows : Allows allowance s
  failed : ∀ {name e}, .event (.loadFailed name e) ∈ s.since earlier → s.Settled name e
  fresh : ∀ {name e}, s.registry.freshFailure? name = some e →
    .event (.loadFailed name e) ∈ s.since earlier

namespace During

variable {earlier s t : Session σ} {allowance : Nat}

theorem after (h : s.Attempting t) (during : During earlier allowance s) :
    During earlier allowance t where
  grows := during.grows.trans h.grows
  inside := h.steady.depth ▸ during.inside
  allows := during.allows.of_steady h.steady
  failed he := by
    rw [Session.since_trans during.grows h.grows, List.mem_append] at he
    have tries := h.tries during.inside
    exact he.elim tries.failed fun he => tries.settled (during.failed he)
  fresh hf := by
    rw [Session.since_trans during.grows h.grows, List.mem_append]
    exact ((h.tries during.inside).fresh hf).symm.imp_right during.fresh

theorem enter (during : During earlier allowance s) :
    During earlier allowance (s.change .enter) where
  grows := during.grows
  inside := Nat.succ_pos _
  allows := during.allows
  failed he := (Session.settled_enter during.inside).mpr (during.failed he)
  fresh hf := during.fresh (Session.freshFailure?_enter during.inside _ ▸ hf)

theorem opened {name : String} (during : During earlier (allowance + 1) s) :
    During earlier allowance (s.opened name) where
  grows := during.grows.trans (Session.grows_opened s name)
  inside := during.inside
  allows := by
    have before : allowance + 1 + s.registry.activeLoads = s.registry.options.maxLoadDepth :=
      during.allows
    change allowance + (s.registry.activeLoads + 1) = s.registry.options.maxLoadDepth
    omega
  failed he := by
    rw [Session.since_trans during.grows (Session.grows_opened s name), Session.since_opened] at he
    exact during.failed (by simpa using he)
  fresh hf := by
    rw [Session.since_trans during.grows (Session.grows_opened s name)]
    exact List.mem_append_right _ (during.fresh hf)

/-- The frame of a request from outside is entered without failures to repeat. -/
theorem begin (allows : Allows allowance s) (dated : s.registry.Dated)
    (outside : s.registry.depth = 0) : During s allowance (s.change .enter) where
  grows := .refl s
  inside := Nat.succ_pos _
  allows := allows
  failed he := by
    have nothing : (s.change .enter).since s = [] := Session.since_eq [] rfl
    rw [nothing] at he
    exact (List.not_mem_nil he).elim
  fresh {name e} hf := by
    have unfailed : (s.change .enter).registry.freshFailure? name = none :=
      dated.freshFailure?_enter outside name
    rw [unfailed] at hf
    cases hf

/-- A name whose load has failed in this request is not loaded again. -/
theorem fetch_of_failed (during : During earlier allowance s) {name : String} {e : LinkError}
    (unpublished : s.registry.isLoaded name = false)
    (failed : .event (.loadFailed name e) ∈ s.since earlier) (n : Nat) :
    Linking.fetch n name s = (.error e, s) := by
  have hm := Registry.isLoaded_eq_false_iff.mp unpublished
  rcases during.failed failed with hl | hf
  · simp [unpublished] at hl
  · cases n <;> simp only [Linking.fetch, Linking.fetchBy, hm, hf]

/-- A name whose load has not failed in this request is. -/
theorem tries_of_unfailed (during : During earlier allowance s) {name : String}
    (unpublished : s.registry.isLoaded name = false) (offStack : name ∉ s.registry.loading)
    (room : s.registry.activeLoads < s.registry.options.maxLoadDepth)
    (unfailed : ∀ e, .event (.loadFailed name e) ∉ s.since earlier) :
    (Linking.fetch allowance name s).2.tries s name = 1 := by
  have vacant : s.Vacant name := by
    refine ⟨Registry.isLoaded_eq_false_iff.mp unpublished, ?_, offStack⟩
    cases hf : s.registry.freshFailure? name with
    | none => rfl
    | some e => exact (unfailed e (during.fresh hf)).elim
  have allows : allowance + s.registry.activeLoads = s.registry.options.maxLoadDepth :=
    during.allows
  obtain ⟨rest, rfl⟩ : ∃ rest, allowance = rest + 1 := ⟨allowance - 1, by omega⟩
  have once := ((Session.lawful_attempting.fetch (rest + 1) name s).tries during.inside).once name
  have ended : 0 < (Linking.fetch (rest + 1) name s).2.tries s name := by
    rw [Linking.fetch, Linking.fetchBy_of_vacant _ vacant]
    have inside := (Session.lawful_grows (σ := σ)).run (Session.lawful_grows.fetch rest)
    have opened := Session.grows_opened s name
    rcases Linking.attempt_cases (Linking.fetch rest) name s with
      ⟨_, heq⟩ | ⟨loader, _, ⟨e, t, hrun, heq⟩ | ⟨m, t, hrun, _, heq⟩⟩ <;> rw [heq]
    · exact Session.tries_pos_of_failed (Session.mem_since_log (.refl s) _)
    · have ran : Session.Grows s t := hrun ▸ opened.trans (inside _ _)
      have withdrawn : Session.Grows s (t.closed.discard name) :=
        ran.trans (Session.grows_discard t.closed name)
      exact Session.tries_pos_of_failed (Session.mem_since_log withdrawn (.loadFailed name e))
    · have ran : Session.Grows s t := by
        have ran := opened.trans (inside (loader.definition name) (s.opened name))
        rw [hrun] at ran
        exact ran
      exact Session.tries_pos_of_loaded (Session.mem_since_log ran (.loaded name))
  omega

end During

theorem Lawful.inside_call {R : Session σ → Session σ → Prop} (h : Lawful R) (allowance : Nat)
    (s : Session σ) (c : Call) :
    ∃ t, R (c.moment allowance s).session t ∧ (c.perform allowance s).journal = t.journal := by
  have hf := h.fetch allowance
  cases c with
  | resolve imports => exact ⟨_, h.resolveEach hf imports (s.change .enter), rfl⟩
  | resolveFrom requester imports =>
      refine ⟨_, h.resolveEach hf imports ((s.constructing requester).change .enter), ?_⟩
      rw [Call.perform, Linking.resolveFrom_eq_finish, Call.journal_finish]
  | load name => exact ⟨_, hf name (s.change .enter), rfl⟩

theorem During.of_call {s : Session σ} (seen : Observable s) (outside : s.registry.depth = 0)
    (c : Call) :
    During s s.registry.allowance (c.moment s.registry.allowance s).session := by
  have begun := During.begin seen.allows seen.dated outside
  cases c with
  | resolve imports => exact begun
  | load name => exact begun
  | resolveFrom requester imports =>
      simp only [Call.moment, Session.constructing]
      split
      · exact begun
      · exact ⟨begun.grows, begun.inside, begun.allows, begun.failed, begun.fresh⟩

theorem Call.moment_allowance (allowance : Nat) (s : Session σ) (c : Call) :
    (c.moment allowance s).allowance = allowance := by
  cases c <;> rfl

theorem Call.moment_journal (allowance : Nat) (s : Session σ) (c : Call) :
    (c.moment allowance s).session.journal = s.journal := by
  cases c with
  | resolve imports => rfl
  | load name => rfl
  | resolveFrom requester imports =>
      simp only [moment, Session.constructing]
      split <;> rfl

/-- In a call from outside, a name is attempted at most once. When that attempt has failed, its error
is the answer to every further request for the name, which changes nothing, until the name is
published. As long as no attempt has failed in this call, whatever happened in calls before, a
request that finds the name neither published nor on the load stack, and room for one more loader
call, makes an attempt. -/
theorem attempted_once {s : Session σ} (seen : Observable s) (outside : s.registry.depth = 0)
    (c : Call) :
    (∀ name, (c.perform s.registry.allowance s).tries s name ≤ 1 ∧
      (c.perform s.registry.allowance s).loaderCalls s name ≤ 1) ∧
    ∀ (m : Moment σ) (name : String), Within (c.moment s.registry.allowance s) m →
      m.task = .fetch name → m.session.registry.isLoaded name = false →
      (∀ e, .event (.loadFailed name e) ∈ m.session.since s →
        Linking.fetch m.allowance name m.session = (.error e, m.session)) ∧
      (name ∉ m.session.registry.loading →
        m.session.registry.activeLoads < m.session.registry.options.maxLoadDepth →
        (∀ e, .event (.loadFailed name e) ∉ m.session.since s) →
        (Linking.fetch m.allowance name m.session).2.tries m.session name = 1) := by
  have begun := During.of_call seen outside c
  constructor
  · intro name
    obtain ⟨t, ran, ended⟩ := Session.lawful_attempting.inside_call s.registry.allowance s c
    have once : (c.perform s.registry.allowance s).tries s name ≤ 1 := by
      rw [Session.tries, Session.since, ended, ← c.moment_journal s.registry.allowance s]
      exact (ran.tries begun.inside).once name
    have calls := (Session.lawful_callsEnd.call s.registry.allowance s c).calls name
    exact ⟨once, Nat.le_trans calls once⟩
  · intro m name within _ unpublished
    have during : During s m.allowance m.session := by
      refine Within.preserves (P := During s) Session.lawful_attempting During.after During.enter
        (fun _ during => ?_) (fun _ during => during.opened) within ?_
      · exact ⟨during.grows, during.inside, during.allows, during.failed, during.fresh⟩
      · rw [Call.moment_allowance]
        exact begun
    exact ⟨fun e failed => during.fetch_of_failed unpublished failed m.allowance,
      fun offStack room unfailed => during.tries_of_unfailed unpublished offStack room unfailed⟩

def Loader.insisting : Loader Unit where
  offers _ := true
  definition name :=
    if name = "A" then .load "B" fun _ => .load "B" fun _ => .succeed
    else .fail (.definition name "no")

def Session.afterFailedCall : Session Unit :=
  ((Session.start {} (some .insisting) ()).load "A").2

def Moment.firstRequest : Moment Unit :=
  ⟨63, .fetch "B", ((Session.afterFailedCall.change .enter).opened "A").change .enter⟩

def Moment.secondRequest : Moment Unit :=
  ⟨63, .fetch "B", (Linking.load (Linking.fetch 63) "B"
    ((Session.afterFailedCall.change .enter).opened "A")).2.change .enter⟩

/-- The failure of the earlier call is forgotten, and that of the running one is repeated. -/
theorem attempted_once_of_insisting :
    Session.afterFailedCall.registry.lastFailure? "B" = some (.definition "B" "no") ∧
      (Linking.fetch 63 "B" Moment.firstRequest.session).2.tries Moment.firstRequest.session "B" = 1 ∧
      Linking.fetch 63 "B" Moment.secondRequest.session =
        (.error (.definition "B" "no"), Moment.secondRequest.session) := by
  have seen : Observable Session.afterFailedCall :=
    observable_run {} (some .insisting) () (.load "A" fun _ => .succeed)
  have allowance : Session.afterFailedCall.registry.allowance = 64 := by decide
  have attempted := (attempted_once seen (by decide) (.load "A")).2
  rw [allowance] at attempted
  have opened : Within ((Call.load "A").moment 64 .afterFailedCall)
      ⟨63, .script (Loader.insisting.definition "A"),
        (Session.afterFailedCall.change .enter).opened "A"⟩ :=
    .single (.call ⟨by decide, by decide, by decide⟩ rfl)
  have first := (attempted .firstRequest "B" (opened.tail .load) rfl (by decide)).2
  have second := (attempted .secondRequest "B" ((opened.tail (.advance rfl)).tail .load) rfl
    (by decide)).1
  refine ⟨by decide, first (by decide) (by decide) fun e he => ?_, second _ (by decide)⟩
  have untried : Moment.firstRequest.session.tries .afterFailedCall "B" = 0 := by decide
  exact absurd (Session.tries_pos_of_failed he) (by simp [untried])

end MibLinker
