import MibLinker.Proofs.Machine.Adequacy

/-!
# How deep linking nests

The frames of a machine tell which loader calls are running, and which names are on the load stack on
account of them. At every step the tables say the same as the frames, and there is a frame more for a
loader call only where the tables leave room for it.
-/

namespace MibLinker

variable {σ : Type} {i j k : JobKind}

/-! ## What the frames tell -/

namespace Stack

def calls : {i k : JobKind} → Stack σ i k → Nat
  | _, _, nil => 0
  | _, _, cons (.calling _) rest => rest.calls + 1
  | _, _, cons _ rest => rest.calls

def names : {i k : JobKind} → Stack σ i k → List String
  | _, _, nil => []
  | _, _, cons (.calling name) rest => rest.names ++ [name]
  | _, _, cons (.constructing requester) rest => rest.names ++ [requester]
  | _, _, cons _ rest => rest.names

theorem calls_le_length_names (stack : Stack σ i k) : stack.calls ≤ stack.names.length := by
  induction stack with
  | nil => exact Nat.le_refl 0
  | cons frame rest ih =>
      cases frame with
      | calling name =>
          rw [calls, names, List.length_append, List.length_singleton]
          omega
      | constructing requester =>
          rw [calls, names, List.length_append]
          · omega
          · exact nofun
      | _ => exact ih

end Stack

namespace Machine

def session : Machine σ k → Session σ
  | working _ _ s => s
  | answering _ _ s => s

def calls : Machine σ k → Nat
  | working _ stack _ => stack.calls
  | answering _ stack _ => stack.calls

def names : Machine σ k → List String
  | working _ stack _ => stack.names
  | answering _ stack _ => stack.names

theorem calls_le_length_names (m : Machine σ k) : m.calls ≤ m.names.length := by
  cases m <;> exact Stack.calls_le_length_names _

end Machine

/-! ## What the tables tell -/

/-- Whether the tables of a session, with these options, tell of so many loader calls and of these
names, and the options allow as many. -/
structure Session.Bears (options : Options) (names : List String) (calls : Nat) (s : Session σ) :
    Prop where
  loading_eq : s.registry.loading = names
  activeLoads_eq : s.registry.activeLoads = calls
  options_eq : s.registry.options = options
  bounded : calls ≤ options.maxLoadDepth

namespace Session.Bears

variable {options : Options} {names : List String} {calls : Nat} {s t : Session σ} {name : String}

theorem of_same (h : s.Bears options names calls)
    (loading : t.registry.loading = s.registry.loading)
    (activeLoads : t.registry.activeLoads = s.registry.activeLoads)
    (same : t.registry.options = s.registry.options) : t.Bears options names calls :=
  ⟨loading.trans h.loading_eq, activeLoads.trans h.activeLoads_eq, same.trans h.options_eq,
    h.bounded⟩

theorem push (h : s.Bears options names calls) (name : String) :
    (s.change (·.push name)).Bears options (names ++ [name]) calls :=
  ⟨congrArg (· ++ [name]) h.loading_eq, h.activeLoads_eq, h.options_eq, h.bounded⟩

theorem pop (h : s.Bears options (names ++ [name]) calls) :
    (s.change .pop).Bears options names calls := by
  refine ⟨?_, h.activeLoads_eq, h.options_eq, h.bounded⟩
  change s.registry.loading.dropLast = names
  rw [h.loading_eq, List.dropLast_concat]

theorem opened (h : s.Bears options names calls)
    (room : ¬ s.registry.options.maxLoadDepth ≤ s.registry.activeLoads) (name : String) :
    (s.opened name).Bears options (names ++ [name]) (calls + 1) := by
  refine ⟨congrArg (· ++ [name]) h.loading_eq, congrArg (· + 1) h.activeLoads_eq, h.options_eq, ?_⟩
  rw [h.options_eq, h.activeLoads_eq] at room
  omega

theorem closed (h : s.Bears options (names ++ [name]) (calls + 1)) :
    s.closed.Bears options names calls := by
  refine ⟨?_, ?_, h.options_eq, Nat.le_of_succ_le h.bounded⟩
  · change s.registry.loading.dropLast = names
    rw [h.loading_eq, List.dropLast_concat]
  · change s.registry.activeLoads - 1 = calls
    rw [h.activeLoads_eq, Nat.add_sub_cancel]

end Session.Bears

/-! ## One step -/

def Machine.Bounded (options : Options) (m : Machine σ k) : Prop :=
  m.session.Bears options m.names m.calls

namespace Machine

variable {options : Options} {s : Session σ}

theorem bounded_beginFetch (name : String) (stack : Stack σ .module k)
    (h : s.Bears options stack.names stack.calls) : (beginFetch name stack s).Bounded options := by
  rcases beginFetch_cases name stack s with ⟨_, eq⟩ | ⟨-, eq⟩ | ⟨_, -, room, eq⟩ <;> rw [eq]
  · exact h
  · exact h.of_same rfl rfl rfl
  · exact h.opened room name

theorem bounded_begin (job : Job σ j) (stack : Stack σ j k)
    (h : s.Bears options stack.names stack.calls) : (job.begin stack s).Bounded options := by
  cases job with
  | fetch name => exact bounded_beginFetch name stack h
  | find imports => cases imports <;> exact h
  | resolve imports => exact h.of_same rfl rfl rfl
  | resolveFrom requester imports =>
      dsimp only [Job.begin]
      split
      · exact h
      · exact h.push requester
  | load name => exact h.of_same rfl rfl rfl
  | loadAll names => cases names <;> exact h
  | build b body => exact h
  | script rest =>
      cases rest with
      | done result => exact h
      | resolve imports next => exact h
      | resolveFrom requester imports next => exact h
      | load name next => exact h
      | publish m next => exact h.of_same rfl rfl rfl
      | replaceLoader offers definition next => exact h.of_same rfl rfl rfl
      | work change next => exact h.of_same rfl rfl rfl

theorem bounded_resume (frame : Frame σ i j) (answer : i.Answer) (stack : Stack σ j k)
    (h : s.Bears options (Stack.cons frame stack).names (Stack.cons frame stack).calls) :
    (frame.resume answer stack s).Bounded options := by
  cases frame with
  | finding i rest =>
      cases answer with
      | error e => exact h
      | ok m =>
          unfold Frame.resume
          dsimp only
          split
          · exact h
          · exact h.of_same rfl rfl rfl
  | found symbol => cases answer <;> exact h
  | leaving => exact h.of_same rfl rfl rfl
  | constructing requester => exact h.pop
  | calling name =>
      cases answer with
      | error e =>
          have steady := Session.steady_discard s.closed name
          exact h.closed.of_same steady.loading steady.activeLoads steady.options
      | ok u =>
          unfold Frame.resume
          dsimp only
          split
          · exact h.closed.of_same rfl rfl rfl
          · exact h.closed.of_same rfl rfl rfl
  | loadingAll rest => cases answer <;> exact h
  | building b body =>
      cases answer with
      | error e => exact h
      | ok symbols =>
          unfold Frame.resume
          dsimp only
          split
          · exact h.of_same rfl rfl rfl
          · exact h.of_same rfl rfl rfl
  | asking next => exact h

theorem Bounded.step {m m' : Machine σ k} (h : m.Bounded options) (hs : m.step = some m') :
    m'.Bounded options := by
  cases m with
  | working job stack s => exact Option.some.inj hs ▸ bounded_begin job stack h
  | answering answer stack s =>
      cases stack with
      | nil => cases hs
      | cons frame rest => exact Option.some.inj hs ▸ bounded_resume frame answer rest h

/-- The tables of a machine tell the same as its frames, from beginning to end. -/
theorem Bounded.run {m m' : Machine σ k} (h : m.Bounded options) (hr : m.Reaches m') :
    m'.Bounded options := by
  induction hr with
  | refl => exact h
  | tail _ hs ih => exact ih.step hs

end Machine

theorem Session.bears_of_idle {s : Session σ} (idle : s.registry.Idle) :
    s.Bears s.registry.options [] 0 :=
  ⟨idle.1, idle.2.2, rfl, Nat.zero_le _⟩

/-- Whatever the scripts of the loader are, every request comes to an answer. On the way there, the
loader calls that the tables count are the ones that are running; they are no more than the names on
the load stack, and no more than the options allow. -/
theorem requests_return :
    (∀ s : Session σ,
      (∀ imports, (Job.resolve imports).Returns s (s.resolve imports)) ∧
      (∀ requester imports,
        (Job.resolveFrom requester imports).Returns s (s.resolveFrom requester imports)) ∧
      (∀ name, (Job.load name).Returns s (s.load name)) ∧
      (Job.loadAll s.registry.options.preload).Returns s s.preload ∧
      (∀ b body, (Job.build b body).Returns s (s.build b body)) ∧
      ∀ script, (Job.script script).Returns s (s.run script)) ∧
    ∀ (options : Options) (loader : Option (Loader σ)) (data : σ)
        (operations : List (Operation σ)) (k : JobKind) (job : Job σ k) (m : Machine σ k),
      let s := (Session.start options loader data).afterAll operations
      (Machine.working job .nil s).Reaches m →
        m.session.registry.activeLoads = m.calls ∧ m.session.registry.loading = m.names ∧
          m.session.registry.activeLoads ≤ m.session.registry.loading.length ∧
          m.session.registry.activeLoads ≤ options.maxLoadDepth ∧
          m.session.registry.options = options ∧
          m.Reaches (.answering (job.link s.fetch s).1 .nil (job.link s.fetch s).2) := by
  constructor
  · intro s
    exact ⟨fun imports => (Job.resolve imports).returns s,
      fun requester imports => (Job.resolveFrom requester imports).returns s,
      fun name => (Job.load name).returns s, (Job.loadAll _).returns s,
      fun b body => (Job.build b body).returns s, fun script => (Job.script script).returns s⟩
  · intro options loader data operations k job m s reached
    obtain ⟨idle, same⟩ := Session.idle_afterAll options loader data operations
    have begun : (Machine.working job .nil s).Bounded s.registry.options :=
      Session.bears_of_idle idle
    have bounded := begun.run reached
    have fewer : m.session.registry.activeLoads ≤ m.session.registry.loading.length := by
      rw [bounded.activeLoads_eq, bounded.loading_eq]
      exact m.calls_le_length_names
    refine ⟨bounded.activeLoads_eq, bounded.loading_eq, fewer, ?_, bounded.options_eq.trans same, ?_⟩
    · rw [bounded.activeLoads_eq, ← same]
      exact bounded.bounded
    · exact Machine.Reaches.of_ended (job.returns s .nil) reached

/-- A loader whose definitions ask for one another round and round, first on behalf of a module that
they do not build, and then again when they have been refused. -/
def Loader.chasing : Loader Unit where
  offers _ := true
  definition name :=
    let onward := if name = "A" then "B" else if name = "B" then "C" else "A"
    .resolveFrom "T" [⟨onward, "x"⟩] fun _ => .load onward fun
      | .error e => .fail e
      | .ok _ => .succeed

/-- Two calls are running when the third is refused, and both come to an end with that. -/
theorem requests_return_of_chasing :
    let s := Session.start { maxLoadDepth := 2 } (some .chasing) ()
    let m := Machine.run 7 (.working (.load "A") .nil s)
    m.calls = 2 ∧ m.session.registry.activeLoads = 2 ∧
      m.session.registry.loading = ["A", "T", "B"] ∧
      m.Reaches
        (.answering (j := .module) (.error (.loadDepthExceeded "C" 2)) .nil (s.load "A").2) := by
  intro s m
  have failed : (s.load "A").1 = .error (.loadDepthExceeded "C" 2) := by rfl
  obtain ⟨counted, stacked, _, _, _, ends⟩ :=
    (requests_return (σ := Unit)).2 { maxLoadDepth := 2 } (some .chasing) () [] .module (.load "A") m
      (Machine.reaches_run 7 _)
  have calls : m.calls = 2 := by rfl
  have names : m.names = ["A", "T", "B"] := by rfl
  refine ⟨calls, counted.trans calls, stacked.trans names, ?_⟩
  rw [← failed]
  exact ends

end MibLinker
