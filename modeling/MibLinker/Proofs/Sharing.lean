import MibLinker.Clients
import MibLinker.Proofs.Resolution
import MibLinker.Proofs.Settlement
import MibLinker.Proofs.States

/-!
# What clients that share a registry see

A turn may go through anything that a definition does: modules that are published ahead, loads that
fail, modules that are withdrawn. None of it is left when the turn is over. Between turns, and between
the requests that a client makes in one turn, nothing is loading, and what has been published stays.
-/

namespace MibLinker

variable {σ : Type}

/-! ## Within a turn -/

abbrev Linking.Advances (fetch : Linking.Fetch σ) :
    Script σ × Session σ → Script σ × Session σ → Prop :=
  Relation.ReflTransGen fun before after => advance fetch before.1 before.2 = some after

/-- What a script comes to is told by the rest of it as well. -/
theorem Linking.run_of_advances {fetch : Linking.Fetch σ} {before after : Script σ × Session σ}
    (path : Linking.Advances fetch before after) :
    run fetch before.1 before.2 = run fetch after.1 after.2 := by
  induction path with
  | refl => rfl
  | @tail middle after _ step ih =>
      obtain ⟨script, t⟩ := middle
      refine ih.trans ?_
      cases script <;> simp only [advance, reduceCtorEq, Option.some.injEq] at step <;>
        subst step <;> rfl

namespace Turn

def script : Turn σ → Script σ
  | resolve imports => .resolve imports fun _ => .succeed
  | publish name exports => .publish (.ofExports name exports) fun _ => .succeed
  | load name => .load name fun _ => .succeed
  | isLoaded _ => .succeed
  | state _ => .succeed
  | keep script => script

theorem run_script (turn : Turn σ) (s : Session σ) : (s.run turn.script).2 = (turn.take s).2 := by
  cases turn <;> rfl

def moment (turn : Turn σ) (s : Session σ) : Moment σ :=
  ⟨s.registry.allowance, .script turn.script, s⟩

/-- Whether a client may look at a session in its turn: the one that the turn begins in, and those
after each of the requests that it makes. -/
def Pauses (turn : Turn σ) (s u : Session σ) : Prop :=
  ∃ rest, Linking.Advances s.fetch (turn.script, s) (rest, u)

end Turn

namespace Lawful

variable {R : Session σ → Session σ → Prop} (h : Lawful R)

include h

theorem turn (turn : Turn σ) (s : Session σ) : R s (turn.take s).2 := by
  rw [← turn.run_script]
  exact h.run (h.fetch _) turn.script s

theorem serve (turns : List (Nat × Turn σ)) (s : Session σ) : R s (s.serve turns).2 := by
  induction turns generalizing s with
  | nil => exact h.refl s
  | cons first rest ih => exact h.trans (h.turn first.2 s) (ih _)

theorem advances {n : Nat} {before after : Script σ × Session σ}
    (path : Linking.Advances (Linking.fetch n) before after) : R before.2 after.2 := by
  induction path with
  | refl => exact h.refl _
  | tail _ step ih => exact h.trans ih (h.advance step)

/-- A pause lies after the beginning of its turn and before the end. -/
theorem pauses {turn : Turn σ} {s u : Session σ} (pause : turn.Pauses s u) :
    R s u ∧ R u (turn.take s).2 := by
  obtain ⟨rest, path⟩ := pause
  refine ⟨h.advances path, ?_⟩
  rw [← turn.run_script, Session.run, Linking.run_of_advances path]
  exact h.run (h.fetch _) rest u

end Lawful

/-! ## Modules that are seen as loaded -/

inductive Turn.Shows (s : Session σ) (name : String) : Turn σ → Prop
  | resolve {imports symbols i} : ((Turn.resolve imports).take s).1 = .symbols (.ok symbols) →
      i ∈ imports → i.module = name → Shows s name (.resolve imports)
  | publish (exports : ExportTable) : Shows s name (.publish name exports)
  | load {m} : ((Turn.load name).take s).1 = .module (.ok m) → Shows s name (.load name)
  | isLoaded : ((Turn.isLoaded name).take s).1 = .flag true → Shows s name (.isLoaded name)
  | state : ((Turn.state name).take s).1 = .state .loaded → Shows s name (.state name)
  | keep {script u} : (Turn.keep script).Pauses s u → u.registry.isLoaded name = true →
      Shows s name (.keep script)

/-- Whether an answer is one that a turn gets where a module is loaded. -/
def Turn.Agrees (name : String) : Turn σ → Answer → Prop
  | .resolve [i], .symbols result => i.module = name →
      (∃ symbol, result = .ok [symbol]) ∨ result = .error (.unresolvedSymbol i.module i.symbol)
  | .load other, .module result => other = name → ∃ m, result = .ok m
  | .isLoaded other, .flag value => other = name → value = true
  | .state other, .state value => other = name → value = .loaded
  | _, _ => True

/-- Whether a module is loaded for a turn that begins in a session: the answer agrees with that, the
module is published at every moment of the turn, and no loader is called for it. -/
structure Turn.Sees (turn : Turn σ) (s : Session σ) (name : String) : Prop where
  answer : turn.Agrees name (turn.take s).1
  throughout : ∀ m, Within (turn.moment s) m → m.session.registry.isLoaded name = true
  uncalled : (turn.take s).2.loaderCalls s name = 0

theorem Linking.found_of_resolve {s : Session σ} {imports : List Import} {symbols : List Symbol}
    (h : (s.resolve imports).1 = .ok symbols) :
    ∃ t, resolveEach s.fetch imports (s.change .enter) = (.ok symbols, t) ∧
      (s.resolve imports).2 = t.change .leave :=
  ⟨_, Prod.ext h rfl, rfl⟩

theorem Linking.isLoaded_of_resolve {s : Session σ} {imports : List Import} {symbols : List Symbol}
    (h : (s.resolve imports).1 = .ok symbols) {i : Import} (hi : i ∈ imports) :
    (s.resolve imports).2.registry.isLoaded i.module = true := by
  obtain ⟨k, requested⟩ := List.mem_iff_getElem?.mp hi
  obtain ⟨t, found, ended⟩ := found_of_resolve h
  rw [ended]
  exact isLoaded_at found (.of_modules_eq (.refl t) rfl) requested

namespace Turn

theorem isLoaded_of_shows {turn : Turn σ} {s : Session σ} {name : String} (h : turn.Shows s name) :
    (turn.take s).2.registry.isLoaded name = true := by
  cases h with
  | resolve answered hi hn =>
      exact hn ▸ Linking.isLoaded_of_resolve (Answer.symbols.inj answered) hi
  | publish exports =>
      exact (Session.isLoaded_publish s (.ofExports name exports) name).mpr (.inr rfl)
  | @load m answered =>
      have fetched : Linking.fetch s.registry.allowance name (s.change .enter) =
          (.ok m, (Linking.fetch s.registry.allowance name (s.change .enter)).2) :=
        Prod.ext (Answer.module.inj answered) rfl
      have published := Linking.module?_of_fetch fetched
      exact Registry.isLoaded_iff.mpr ⟨m, published⟩
  | isLoaded answered => exact Answer.flag.inj answered
  | state answered => exact Registry.state_eq_loaded_iff.mp (Answer.state.inj answered)
  | keep pause published => exact (Session.lawful_keeps.pauses pause).2.isLoaded published

theorem agrees_of_published (turn : Turn σ) {s : Session σ} {name : String}
    (published : s.registry.isLoaded name = true) : turn.Agrees name (turn.take s).1 := by
  obtain ⟨m, hm⟩ := Registry.isLoaded_iff.mp published
  match turn with
  | .resolve [] | .resolve (_ :: _ :: _) | .publish .. | .keep _ => trivial
  | .resolve [i] =>
      rintro rfl
      obtain ⟨t, found, -⟩ := Linking.resolve_of_published s.registry.allowance (i := i) hm
      have answered : (s.resolve [i]).1 = _ := congrArg Prod.fst found
      rw [answered]
      cases m.value.lookup? i.symbol with
      | none => exact .inr rfl
      | some symbol => exact .inl ⟨symbol, rfl⟩
  | .load other =>
      rintro rfl
      have entered : (s.change .enter).registry.module? other = some m := hm
      exact ⟨m, congrArg Prod.fst (Linking.fetch_of_published s.registry.allowance entered)⟩
  | .isLoaded other =>
      rintro rfl
      exact published
  | .state other =>
      rintro rfl
      exact Registry.state_eq_loaded_iff.mpr published

/-- What is published is loaded for every turn that follows. -/
theorem sees_of_published (turn : Turn σ) {s : Session σ} {name : String}
    (published : s.registry.isLoaded name = true) : turn.Sees s name where
  answer := turn.agrees_of_published published
  throughout _ within :=
    Within.preserves (P := fun _ s => s.registry.isLoaded name = true) Session.lawful_keeps
      (fun keeps h => keeps.isLoaded h) (fun h => h) (fun _ h => h) (fun _ h => h) within published
  uncalled := (Session.lawful_settles.turn turn s).uncalled (.inl published)

theorem take_ne_loading (turn : Turn σ) {s : Session σ} (empty : s.registry.loading = []) :
    (turn.take s).1 ≠ .state .loading := by
  cases turn with
  | state name =>
      intro loading
      have stacked := (Registry.state_eq_loading_iff.mp (Answer.state.inj loading)).2
      rw [empty] at stacked
      exact List.not_mem_nil stacked
  | _ => exact nofun

theorem state_ne_loading {turn : Turn σ} {s u : Session σ} (empty : s.registry.loading = [])
    (pause : turn.Pauses s u) (name : String) : u.registry.state name ≠ .loading := by
  have still := (Session.lawful_steady.pauses pause).1.loading
  rw [Ne, Registry.state_eq_loading_iff, still, empty]
  exact fun h => List.not_mem_nil h.2

end Turn

theorem Session.serve_ne_loading {s : Session σ} (empty : s.registry.loading = [])
    (turns : List (Nat × Turn σ)) (client : Nat) :
    (client, Answer.state .loading) ∉ (s.serve turns).1 := by
  induction turns generalizing s with
  | nil => exact List.not_mem_nil
  | cons first rest ih =>
      have still : (first.2.take s).2.registry.loading = [] :=
        (lawful_steady.turn first.2 s).loading.trans empty
      intro mem
      rcases List.mem_cons.mp mem with asked | later
      · exact first.2.take_ne_loading empty (congrArg Prod.snd asked).symm
      · exact ih still later

/-! ## The same requests again -/

/-- Whether requests that are made in a session publish nothing under the name of a module once they
have found a symbol in it. -/
def Session.Undisturbed (imports : List Import) (s : Session σ) : Prop :=
  ∀ (i : Nat) (request : Import), imports[i]? = some request →
    ∀ e ∈ (s.resolve imports).2.since (Linking.reached s.fetch imports (i + 1) (s.change .enter)),
      e.publishes request.module = false

/-- What requests have found is still there when they are over. -/
theorem Session.Undisturbed.listed {s : Session σ} {imports : List Import} {symbols : List Symbol}
    (h : s.Undisturbed imports) (answered : (s.resolve imports).1 = .ok symbols) :
    imports.map (s.resolve imports).2.registry.lookup? = symbols.map some := by
  obtain ⟨t, found, ended⟩ := Linking.found_of_resolve answered
  have keeps : t.Keeps (s.resolve imports).2 := ended ▸ .of_modules_eq (.refl t) rfl
  refine List.ext_getElem? fun i => ?_
  rw [List.getElem?_map, List.getElem?_map]
  cases requested : imports[i]? with
  | none =>
      have beyond : symbols.length ≤ i := by
        rw [Linking.length_of_resolveEach found]
        exact List.getElem?_eq_none_iff.mp requested
      rw [List.getElem?_eq_none_iff.mpr beyond]
      rfl
  | some request =>
      obtain ⟨symbol, -, symbol_at, -⟩ := Linking.found_at found requested
      rw [symbol_at]
      exact congrArg some
        (Linking.lookup?_at found keeps requested symbol_at (h i request requested))

/-- Requests for symbols that are there are answered with them, without a loader call, and leave the
publications as they are. -/
theorem Session.resolve_again {s : Session σ} {imports : List Import} {symbols : List Symbol}
    (listed : imports.map s.registry.lookup? = symbols.map some) :
    (s.resolve imports).1 = .ok symbols ∧
      (s.resolve imports).2.registry.modules = s.registry.modules ∧
      ∀ name, (s.resolve imports).2.loaderCalls s name = 0 := by
  have exported : ∀ i ∈ imports, ∃ symbol, (s.change .enter).registry.lookup? i = some symbol := by
    intro i hi
    have there : s.registry.lookup? i ∈ symbols.map some := listed ▸ List.mem_map_of_mem hi
    obtain ⟨symbol, -, found⟩ := List.mem_map.mp there
    exact ⟨symbol, found.symm⟩
  obtain ⟨symbols', t, found, listed', same, quiet⟩ :=
    Linking.resolveEach_of_exported s.registry.allowance exported
  have resolved : s.resolve imports = (.ok symbols', t.change .leave) := by
    change Linking.inFrame (Linking.resolveEach (Linking.fetch s.registry.allowance) imports) s = _
    rw [Linking.inFrame, found]
  have alike : symbols' = symbols :=
    (List.map_inj_right fun _ _ => Option.some.inj).mp (listed'.trans listed)
  rw [resolved, alike]
  refine ⟨rfl, ?_, fun name => List.countP_eq_zero.mpr fun e he => ?_⟩
  · change t.registry.modules = s.registry.modules
    rw [same]
    rfl
  · exact Bool.eq_false_iff.mp (quiet e he name)

/-- However many clients make such requests, each is answered alike. -/
theorem Session.serve_again {s : Session σ} {imports : List Import} {symbols : List Symbol}
    (listed : imports.map s.registry.lookup? = symbols.map some) (clients : List Nat) :
    let served := s.serve (clients.map fun client => (client, .resolve imports))
    served.1 = clients.map (fun client => (client, .symbols (.ok symbols))) ∧
      ∀ name, served.2.loaderCalls s name = 0 := by
  induction clients generalizing s with
  | nil => exact ⟨rfl, s.loaderCalls_self⟩
  | cons client rest ih =>
      obtain ⟨answered, same, quiet⟩ := Session.resolve_again listed
      have still : imports.map (s.resolve imports).2.registry.lookup? = symbols.map some := by
        rw [← listed]
        refine List.map_congr_left fun i _ => ?_
        rw [Registry.lookup?, Registry.lookup?, Registry.module?, Registry.module?, same]
      obtain ⟨others, calm⟩ := ih still
      refine ⟨?_, fun name => ?_⟩
      · rw [List.map_cons, List.map_cons, Session.serve]
        exact congrArg₂ List.cons (by rw [Turn.take, answered]) others
      · have first : s.Grows (s.resolve imports).2 := lawful_grows.turn (.resolve imports) s
        have later := lawful_grows.serve (rest.map fun client => (client, .resolve imports))
          (s.resolve imports).2
        exact (loaderCalls_trans first later name).trans (by rw [calm name, quiet name])

/-! ## Shared registries -/

/-- Clients share a registry, which may have been in use before, by turns in any order, each of which
may do anything. No client finds a module loading, by asking or by looking in its own turn. A module
that a client has seen as loaded is loaded for the rest of its turn and for every turn from then on.
Once a load of a name has succeeded, no loader is called for that name again. When one client has made
a list of requests, and they have been answered and have not put other modules in the place of those
that they had found symbols in, then all clients that make the same requests next get the same
objects, and no loader is called for them. -/
theorem turns_safe (options : Options) (loader : Option (Loader σ)) (data : σ)
    (operations : List (Operation σ)) (turns : List (Nat × Turn σ)) :
    let s := (Session.start options loader data).afterAll operations
    let now := (s.serve turns).2
    (∀ client, (client, Answer.state .loading) ∉ (s.serve turns).1) ∧
      (∀ turn u, Turn.Pauses turn now u → ∀ name, u.registry.state name ≠ .loading ∧
        (u.registry.isLoaded name = true → (turn.take now).2.registry.isLoaded name = true ∧
          (turn.take now).2.loaderCalls u name = 0)) ∧
      (∀ turn name, Turn.Shows now name turn → ∀ between later,
        Turn.Sees later ((turn.take now).2.serve between).2 name) ∧
      now.journal.Pairwise Entry.Follows ∧
      ∀ imports symbols first others, (now.resolve imports).1 = .ok symbols →
        now.Undisturbed imports →
        let served := now.serve ((first :: others).map fun client => (client, .resolve imports))
        served.1 = (first :: others).map (fun client => (client, .symbols (.ok symbols))) ∧
          ∀ name, served.2.loaderCalls (now.resolve imports).2 name = 0 := by
  intro s now
  have empty : s.registry.loading = [] :=
    (Session.idle_afterAll options loader data operations).1.1
  have emptyNow : now.registry.loading = [] :=
    (Session.lawful_steady.serve turns s).loading.trans empty
  refine ⟨Session.serve_ne_loading empty turns, ?pauses, ?shown, ?ordered, ?again⟩
  case pauses =>
    intro turn u pause name
    refine ⟨Turn.state_ne_loading emptyNow pause name, fun published => ?_⟩
    have settles := (Session.lawful_settles.pauses pause).2
    exact ⟨settles.keeps.isLoaded published, settles.uncalled (.inl published)⟩
  case shown =>
    intro turn name shown between later
    have kept := Session.lawful_keeps.serve between (turn.take now).2
    exact later.sees_of_published (kept.isLoaded (Turn.isLoaded_of_shows shown))
  case ordered =>
    have settles := (Session.lawful_settles.afterAll (Session.start options loader data)
      operations).trans (Session.lawful_settles.serve turns s)
    have whole : now.since (Session.start options loader data) = now.journal :=
      Session.since_eq now.journal (List.append_nil _).symm
    exact whole ▸ settles.ordered
  case again =>
    intro imports symbols first others answered undisturbed
    obtain ⟨rest, calm⟩ := Session.serve_again (undisturbed.listed answered) others
    refine ⟨?_, calm⟩
    rw [List.map_cons, List.map_cons, Session.serve]
    exact congrArg₂ List.cons (by rw [Turn.take, answered]) rest

def Loader.hasty : Loader Unit where
  offers _ := true
  definition name :=
    .publish (.ofExports name .single) fun _ =>
      if name = "A" then .load "B" fun _ => .succeed
      else if name = "B" then .fail (.definition name "late")
      else .succeed

/-- The first client has a load that fails, the next one is the first to ask for symbols, and two more
ask for the same. -/
theorem turns_safe_of_hasty :
    let imports : List Import := [⟨"A", "x"⟩, ⟨"C", "x"⟩]
    let now := ((Session.start {} (some .hasty) ()).serve [(0, .load "B")]).2
    let served := now.serve ([1, 2, 3].map fun client => (client, .resolve imports))
    let found := Answer.symbols (.ok [.factory .typed, .factory .typed])
    now.registry.state "B" = .failed ∧ served.1 = [(1, found), (2, found), (3, found)] ∧
      served.2.loaderCalls now "A" = 1 ∧
      (∀ name, served.2.loaderCalls (now.resolve imports).2 name = 0) ∧
      Turn.Sees (.load "A") ((now.resolve imports).2.serve [(0, .load "B")]).2 "A" := by
  intro imports now served found
  have safe := turns_safe {} (some .hasty) () [] [(0, .load "B")]
  have answered : (now.resolve imports).1 = .ok [.factory .typed, .factory .typed] := by rfl
  have undisturbed : now.Undisturbed imports
    | 0, request, requested => by
        obtain rfl := Option.some.inj requested
        decide
    | 1, request, requested => by
        obtain rfl := Option.some.inj requested
        decide
    | i + 2, request, requested => by cases requested
  have shown : Turn.Shows now "A" (.resolve imports) :=
    .resolve (congrArg Answer.symbols answered) (.head _) rfl
  obtain ⟨alike, calm⟩ := safe.2.2.2.2 imports _ 1 [2, 3] answered undisturbed
  exact ⟨by decide, alike, by decide, calm, safe.2.2.1 _ "A" shown [(0, .load "B")] (.load "A")⟩

end MibLinker
