import MibLinker.Proofs.Brackets
import MibLinker.Proofs.Machine.Bounds

/-!
# The log of the loads

Each step of a machine makes some entries in the journal, and those that are brackets open and
close the loader calls that are among its frames: read from the beginning to any moment of a run,
the brackets leave open the very loads that are running then. A request for a module that nobody can
load, because no loader is set, fails with a closing bracket that has no opening one, and is left
out.
-/

namespace MibLinker

variable {σ : Type} {i j k : JobKind}

/-! ## Loads that are running -/

def Stack.loads : {i k : JobKind} → Stack σ i k → List String
  | _, _, nil => []
  | _, _, cons (.calling name) rest => name :: rest.loads
  | _, _, cons _ rest => rest.loads

theorem Stack.length_loads (stack : Stack σ i k) : stack.loads.length = stack.calls := by
  induction stack with
  | nil => rfl
  | cons frame rest ih =>
      cases frame with
      | calling name => exact congrArg (· + 1) ih
      | _ => exact ih

/-- Whether a job is anything but a request for a module while no loader is set. -/
def Job.served (s : Session σ) : Job σ j → Bool
  | .fetch _ => s.loader.isSome
  | _ => true

namespace Machine

def loads : Machine σ k → List String
  | working _ stack _ => stack.loads
  | answering _ stack _ => stack.loads

def served : Machine σ k → Bool
  | working job _ s => job.served s
  | answering _ _ _ => true

/-- Goes from a machine to a later one, with the brackets that are made on the way, each with
whether the step that makes it is served. -/
inductive Tells : Machine σ k → List (Bracket × Bool) → Machine σ k → Prop
  | refl (m : Machine σ k) : Tells m [] m
  | step {m m' m'' : Machine σ k} {later : List (Bracket × Bool)} :
      m.step = some m' → Tells m' later m'' →
        Tells m ((m'.session.bracketsSince m.session).map (·, m.served) ++ later) m''

theorem exists_tells {m m' : Machine σ k} (h : m.Reaches m') : ∃ told, m.Tells told m' := by
  induction h using Relation.ReflTransGen.head_induction_on with
  | refl => exact ⟨[], .refl m'⟩
  | head hs _ ih =>
      obtain ⟨later, tells⟩ := ih
      exact ⟨_, .step hs tells⟩

/-! ## One step -/

/-- Whether a machine goes on from a session in which these loads are open, by a step that is served
or not: what it adds to the journal, if the step is served, can be read and leaves open the loads of
the machine; if it is not, it is the failure of a request that found no loader. -/
structure Continues (served : Bool) (s : Session σ) (opens : List String) (m : Machine σ k) :
    Prop where
  grows : s.Grows m.session
  loader : s.loader.isSome = true → m.session.loader.isSome = true
  reads : Bracket.readAll opens (if served then m.session.bracketsSince s else []) = some m.loads
  unserved : served = false → ∀ bracket ∈ m.session.bracketsSince s,
    ∃ name, bracket = .closing name (some (.moduleNotFound name))

theorem continues_of_quiet {served : Bool} {s : Session σ} {opens : List String} {m : Machine σ k}
    (quiet : s.Quiet m.session) (same : m.loads = opens) : m.Continues served s opens where
  grows := quiet.grows
  loader := quiet.loader
  reads := by
    rw [quiet.brackets_eq, ite_self, same]
    rfl
  unserved _ bracket mem := by
    rw [quiet.brackets_eq] at mem
    cases mem

/-- A loader call begins, which is one more than are running. -/
theorem continues_opened (name : String) {stack : Stack σ .module k} {s : Session σ}
    (counted : s.registry.activeLoads = stack.calls) (script : Script σ) :
    (working (.script script) (.cons (.calling name) stack) (s.opened name)).Continues true s
      stack.loads where
  grows := s.grows_opened name
  loader := id
  reads := by
    have told : (s.opened name).bracketsSince s = [.opening name stack.loads.length] := by
      rw [s.bracketsSince_opened, counted, stack.length_loads]
    change Bracket.readAll stack.loads ((s.opened name).bracketsSince s) =
      some (name :: stack.loads)
    rw [told, Bracket.readAll_cons, Bracket.read_opening]
    rfl
  unserved := nofun

/-- A request for a module finds no loader. -/
theorem continues_unserved (name : String) (stack : Stack σ .module k) {s : Session σ}
    (unset : s.loader = none) :
    (answering (j := .module) (.error (.moduleNotFound name)) stack
      (s.recordFailure name (.moduleNotFound name))).Continues false s stack.loads where
  grows := s.grows_recordFailure name _
  loader set := by simp [unset] at set
  reads := rfl
  unserved _ bracket mem := by
    change bracket ∈ (s.recordFailure name (.moduleNotFound name)).bracketsSince s at mem
    rw [Session.bracketsSince_recordFailure] at mem
    exact ⟨name, List.mem_singleton.mp mem⟩

/-- A loader call ends, with the bracket that tells how. -/
theorem continues_closed {name : String} {stack : Stack σ j k} {s t : Session σ} {answer : j.Answer}
    {error : Option LinkError} (grows : s.Grows t) (loader : t.loader = s.loader)
    (told : t.bracketsSince s = [.closing name error]) :
    (answering answer stack t).Continues true s (name :: stack.loads) where
  grows := grows
  loader set := by
    change t.loader.isSome = true
    rwa [loader]
  reads := by
    change Bracket.readAll (name :: stack.loads) (t.bracketsSince s) = some stack.loads
    rw [told, Bracket.readAll_cons, Bracket.read_closing]
    rfl
  unserved := nofun

theorem continues_beginFetch (name : String) (stack : Stack σ .module k) {s : Session σ}
    (counted : s.registry.activeLoads = stack.calls) :
    (beginFetch name stack s).Continues s.loader.isSome s stack.loads := by
  rcases beginFetch_cases name stack s with ⟨_, eq⟩ | ⟨unset, eq⟩ | ⟨_, set, -, eq⟩ <;> rw [eq]
  · exact continues_of_quiet (.refl s) rfl
  · rw [unset]
    exact continues_unserved name stack unset
  · rw [set]
    exact continues_opened name counted _

theorem continues_begin (job : Job σ j) (stack : Stack σ j k) {s : Session σ}
    (counted : s.registry.activeLoads = stack.calls) :
    (job.begin stack s).Continues (job.served s) s stack.loads := by
  cases job with
  | fetch name => exact continues_beginFetch name stack counted
  | find imports => cases imports <;> exact continues_of_quiet (.refl s) rfl
  | resolve imports => exact continues_of_quiet (s.quiet_change .enter) rfl
  | resolveFrom requester imports =>
      dsimp only [Job.begin]
      split
      · exact continues_of_quiet (.refl s) rfl
      · exact continues_of_quiet (s.quiet_change (·.push requester)) rfl
  | load name => exact continues_of_quiet (s.quiet_change .enter) rfl
  | loadAll names => cases names <;> exact continues_of_quiet (.refl s) rfl
  | build b body => exact continues_of_quiet (.refl s) rfl
  | script rest =>
      cases rest with
      | done result => exact continues_of_quiet (.refl s) rfl
      | resolve imports next => exact continues_of_quiet (.refl s) rfl
      | resolveFrom requester imports next => exact continues_of_quiet (.refl s) rfl
      | load name next => exact continues_of_quiet (.refl s) rfl
      | publish m next => exact continues_of_quiet (s.quiet_publish m) rfl
      | replaceLoader offers definition next => exact continues_of_quiet (s.quiet_withLoader _) rfl
      | work change next => exact continues_of_quiet (s.quiet_withDesk _) rfl

end Machine

/-- A loader call hands on the answer of the load, and tells of it. -/
theorem Frame.resume_calling (name : String) (answer : JobKind.ended.Answer)
    (stack : Stack σ .module k) (s : Session σ) :
    ∃ (result : JobKind.module.Answer) (t : Session σ),
      (Frame.calling name).resume answer stack s = .answering result stack t ∧
        s.Grows t ∧ t.loader = s.loader ∧
          t.bracketsSince s = [.closing name (errorOf result)] := by
  have kept (e : LinkError) :
      ((s.closed.discard name).recordFailure name e).loader = s.loader := by
    change (s.closed.discard name).loader = s.loader
    unfold Session.discard
    split <;> rfl
  cases answer with
  | error e =>
      exact ⟨.error e, _, rfl, s.grows_withdraw name e, kept e, s.bracketsSince_withdraw name e⟩
  | ok u =>
      cases hm : s.closed.registry.module? name with
      | none =>
          refine ⟨.error (.notPublished name), s.closed.recordFailure name (.notPublished name), ?_,
            s.closed.grows_recordFailure name _, rfl, s.closed.bracketsSince_recordFailure name _⟩
          simp only [Frame.resume, hm]
      | some m =>
          refine ⟨.ok m, s.closed.log (.loaded name), ?_, s.closed.grows_log _, rfl,
            s.closed.bracketsSince_log _⟩
          simp only [Frame.resume, hm]

namespace Machine

theorem continues_resume (frame : Frame σ i j) (answer : i.Answer) (stack : Stack σ j k)
    (s : Session σ) :
    (frame.resume answer stack s).Continues true s (Stack.cons frame stack).loads := by
  cases frame with
  | finding i rest =>
      cases answer with
      | error e => exact continues_of_quiet (.refl s) rfl
      | ok m =>
          unfold Frame.resume
          dsimp only
          split
          · exact continues_of_quiet (.refl s) rfl
          · exact continues_of_quiet (Session.quiet_log rfl) rfl
  | found symbol => cases answer <;> exact continues_of_quiet (.refl s) rfl
  | leaving => exact continues_of_quiet (s.quiet_change .leave) rfl
  | constructing requester => exact continues_of_quiet (s.quiet_change .pop) rfl
  | calling name =>
      obtain ⟨result, t, resumed, grows, loader, told⟩ := Frame.resume_calling name answer stack s
      rw [resumed]
      exact continues_closed grows loader told
  | loadingAll rest => cases answer <;> exact continues_of_quiet (.refl s) rfl
  | building b body =>
      cases answer with
      | error e => exact continues_of_quiet (.refl s) rfl
      | ok symbols =>
          unfold Frame.resume
          dsimp only
          split
          · exact continues_of_quiet (s.quiet_withDesk _) rfl
          · exact continues_of_quiet ((s.quiet_withDesk _).trans (Session.quiet_publish _ _)) rfl
  | asking next => exact continues_of_quiet (.refl s) rfl

theorem continues_step {options : Options} {m m' : Machine σ k} (bounded : m.Bounded options)
    (hs : m.step = some m') : m'.Continues m.served m.session m.loads := by
  cases m with
  | working job stack s =>
      obtain rfl := Option.some.inj hs
      exact continues_begin job stack bounded.activeLoads_eq
  | answering answer stack s =>
      cases stack with
      | nil => cases hs
      | cons frame rest =>
          obtain rfl := Option.some.inj hs
          exact continues_resume frame answer rest s

/-! ## Runs -/

def heard (told : List (Bracket × Bool)) : List Bracket := (told.filter Prod.snd).map Prod.fst

theorem heard_append (first later : List (Bracket × Bool)) :
    heard (first ++ later) = heard first ++ heard later := by
  rw [heard, List.filter_append, List.map_append]
  rfl

theorem heard_map (word : List Bracket) (served : Bool) :
    heard (word.map (·, served)) = if served then word else [] := by
  cases served <;> simp [heard, List.filter_map, Function.comp_def]

/-- With a loader, every step is served. -/
theorem served_of_loader (m : Machine σ k) (set : m.session.loader.isSome = true) :
    m.served = true := by
  cases m with
  | answering answer stack s => rfl
  | working job stack s =>
      cases job with
      | fetch name => exact set
      | _ => rfl

structure Logged (m : Machine σ k) (told : List (Bracket × Bool)) (m' : Machine σ k) : Prop where
  grows : m.session.Grows m'.session
  whole : told.map Prod.fst = m'.session.bracketsSince m.session
  reads : Bracket.readAll m.loads (heard told) = some m'.loads
  unserved : ∀ bracket, (bracket, false) ∈ told →
    ∃ name, bracket = .closing name (some (.moduleNotFound name))
  served : m.session.loader.isSome = true → heard told = told.map Prod.fst

theorem Logged.refl (m : Machine σ k) : m.Logged [] m where
  grows := .refl m.session
  whole := (Session.Quiet.refl m.session).brackets_eq.symm
  reads := rfl
  unserved _ mem := nomatch mem
  served _ := rfl

/-- A step comes before what has been told of the later ones. -/
theorem Logged.head {m m' m'' : Machine σ k} {later : List (Bracket × Bool)}
    (first : m'.Continues m.served m.session m.loads) (rest : m'.Logged later m'') :
    m.Logged ((m'.session.bracketsSince m.session).map (·, m.served) ++ later) m'' where
  grows := first.grows.trans rest.grows
  whole := by
    rw [Session.bracketsSince_trans first.grows rest.grows, List.map_append, rest.whole,
      List.map_map]
    exact congrArg (· ++ _) (List.map_id _)
  reads := by
    rw [heard_append, heard_map, Bracket.readAll_append first.reads, rest.reads]
  unserved bracket mem := by
    rcases List.mem_append.mp mem with mem | mem
    · obtain ⟨same, made, pair⟩ := List.mem_map.mp mem
      obtain ⟨rfl, unserved⟩ := Prod.mk.inj pair
      exact first.unserved unserved _ made
    · exact rest.unserved bracket mem
  served set := by
    rw [heard_append, heard_map, m.served_of_loader set, rest.served (first.loader set),
      List.map_append, List.map_map]
    exact congrArg (· ++ _) (List.map_id _).symm

/-- Whatever a machine comes to, the journal has told of the way there. -/
theorem Tells.logged {options : Options} {m m' : Machine σ k} {told : List (Bracket × Bool)}
    (h : m.Tells told m') (bounded : m.Bounded options) : m.Logged told m' := by
  induction h with
  | refl m => exact .refl m
  | step hs _ ih => exact .head (continues_step bounded hs) (ih (bounded.step hs))

end Machine

/-! ## Refused requests -/

/-- Why a request for a module is answered with an error before anybody is asked to load it: a load
of it has failed within the request that is running, it is on the load stack, or as many loads are
running as the options allow. -/
inductive Session.Refuses (s : Session σ) (name : String) : LinkError → Prop
  | replayed {e : LinkError} :
      s.registry.module? name = none → s.registry.freshFailure? name = some e → s.Refuses name e
  | cyclic :
      s.registry.module? name = none → s.registry.freshFailure? name = none →
        name ∈ s.registry.loading → s.Refuses name (.circularDependency (s.registry.cycle name))
  | tooDeep :
      s.Vacant name → s.registry.options.maxLoadDepth ≤ s.registry.activeLoads →
        s.Refuses name (.loadDepthExceeded name s.registry.options.maxLoadDepth)

theorem Machine.step_of_refused {s : Session σ} {name : String} {e : LinkError}
    (h : s.Refuses name e) (stack : Stack σ .module k) :
    (working (.fetch name) stack s).step = some (answering (j := .module) (.error e) stack s) := by
  refine congrArg some ?_
  change beginFetch name stack s = _
  cases h with
  | replayed unpublished failed => simp only [beginFetch, unpublished, failed]
  | cyclic unpublished unfailed stacked =>
      simp only [beginFetch, unpublished, unfailed, if_pos stacked]
  | tooDeep vacant full => exact beginFetch_of_exhausted stack vacant (Nat.sub_eq_zero_of_le full)

/-! ## The whole log -/

/-- Whatever a client and the definitions of its loaders ask a new registry for, the brackets in the
journal, but for those of requests for which no loader was set, form a balanced word. At every
moment they leave open the loads that are running, each at its depth; a load ends with the bracket
that tells its answer; and a request that is refused makes no entry. -/
theorem load_log_balanced (options : Options) (loader : Option (Loader σ)) (data : σ) :
    let s := Session.start options loader data
    (∀ script : Script σ, ∃ told,
      (Machine.working (.script script) .nil s).Tells told
        (.answering (j := .ended) (s.run script).1 .nil (s.run script).2) ∧
      told.map Prod.fst = (s.run script).2.entries.filterMap Entry.bracket? ∧
      Bracket.Balanced 0 (Machine.heard told) ∧
      (loader.isSome = true →
        Machine.heard told = (s.run script).2.entries.filterMap Entry.bracket?)) ∧
    (∀ (script : Script σ) (m : Machine σ .ended) (told : List (Bracket × Bool)),
      (Machine.working (.script script) .nil s).Tells told m →
        told.map Prod.fst = m.session.entries.filterMap Entry.bracket? ∧
        Bracket.readAll [] (Machine.heard told) = some m.loads ∧
        ∀ bracket, (bracket, false) ∈ told →
          ∃ name, bracket = .closing name (some (.moduleNotFound name))) ∧
    (∀ (k : JobKind) (name : String) (answer : JobKind.ended.Answer) (stack : Stack σ .module k)
      (t : Session σ), ∃ (result : JobKind.module.Answer) (u : Session σ),
        (Machine.answering answer (.cons (.calling name) stack) t).step =
          some (.answering result stack u) ∧
        u.bracketsSince t = [.closing name (errorOf result)]) ∧
    (∀ (k : JobKind) (name : String) (e : LinkError) (stack : Stack σ .module k) (t : Session σ),
      t.Refuses name e → (Machine.working (.fetch name) stack t).step =
        some (.answering (j := .module) (.error e) stack t)) ∧
    ∀ operations : List (Operation σ), ∃ script, (s.run script).2 = s.afterAll operations := by
  intro s
  have bounded : ∀ script : Script σ,
      (Machine.working (.script script) .nil s).Bounded s.registry.options :=
    fun _ => Session.bears_of_idle ⟨rfl, rfl, rfl⟩
  refine ⟨fun script => ?whole, fun script m told tells => ?moments,
    fun k name answer stack t => ?ends, fun k name e stack t refused => ?refused,
    fun operations => ⟨_, run_scripts s operations⟩⟩
  case whole =>
    obtain ⟨told, tells⟩ := Machine.exists_tells ((Job.script script).returns s .nil)
    have logged := tells.logged (bounded script)
    have whole : told.map Prod.fst = (s.run script).2.entries.filterMap Entry.bracket? :=
      logged.whole.trans (Session.bracketsSince_start _ options loader data)
    exact ⟨told, tells, whole, Bracket.balanced_of_readAll logged.reads,
      fun set => (logged.served set).trans whole⟩
  case moments =>
    have logged := tells.logged (bounded script)
    exact ⟨logged.whole.trans (Session.bracketsSince_start _ options loader data), logged.reads,
      logged.unserved⟩
  case ends =>
    obtain ⟨result, u, resumed, -, -, told⟩ := Frame.resume_calling name answer stack t
    exact ⟨result, u, congrArg some resumed, told⟩
  case refused => exact Machine.step_of_refused refused stack

def Loader.unmoved : Loader Unit where
  offers _ := true
  definition name :=
    if name = "A" then
      .load "B" fun _ => .load "B" fun _ => .load "A" fun _ =>
        .publish (.ofExports "A" ∅) fun _ => .succeed
    else .fail (.definition name "no")

/-- The load that fails stands inside another one, which is still running when the same module is
asked for again; that request is refused, and not told of. -/
theorem load_log_balanced_of_unmoved :
    let s := Session.start {} (some .unmoved) ()
    let script : Script Unit := .load "A" fun _ => .succeed
    let m := Machine.run 12 (.working (.script script) .nil s)
    let word : List Bracket :=
      [.opening "A" 0, .opening "B" 1, .closing "B" (some (.definition "B" "no")),
        .closing "A" none]
    (s.run script).2.entries.filterMap Entry.bracket? = word ∧ Bracket.Balanced 0 word ∧
      (∃ told, told.map Prod.fst = word.take 3 ∧
        Bracket.readAll [] (Machine.heard told) = some ["A"]) ∧
      ∃ (stack : Stack Unit .module .ended) (t : Session Unit),
        m = .working (.fetch "B") stack t ∧
          m.step = some (.answering (j := .module) (.error (.definition "B" "no")) stack t) := by
  intro s script m word
  obtain ⟨runs, moments, -, refused, -⟩ := load_log_balanced {} (some Loader.unmoved) ()
  obtain ⟨_, _, _, balanced, heard⟩ := runs script
  have made : (s.run script).2.entries.filterMap Entry.bracket? = word := by decide
  rw [heard rfl, made] at balanced
  obtain ⟨told, tells⟩ := Machine.exists_tells (Machine.reaches_run 12 _)
  obtain ⟨whole, reads, -⟩ := moments script m told tells
  have early : m.session.entries.filterMap Entry.bracket? = word.take 3 := by decide
  have running : m.loads = ["A"] := by decide
  exact ⟨made, balanced, ⟨told, whole.trans early, reads.trans (congrArg some running)⟩, _, _, rfl,
    refused .ended "B" _ _ _ (.replayed (by decide) (by decide))⟩

end MibLinker
