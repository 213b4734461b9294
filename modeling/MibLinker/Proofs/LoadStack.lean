import Mathlib.Data.List.Nodup
import MibLinker.Proofs.Attempts
import MibLinker.Proofs.Course
import MibLinker.Proofs.Graph.Search

/-!
# Cycles on the load stack

A name goes on the load stack only while it is not on it. So the path that a request closes is a
circuit. Such an error may come back much later: it is remembered with a failed load, it is
repeated, and definitions pass it on. It stays a circuit, as long as no definition makes one up.
-/

namespace MibLinker

variable {σ : Type}

theorem Registry.nodup_push {r : Registry} {name : String} (h : r.loading.Nodup)
    (offStack : name ∉ r.loading) : (r.push name).loading.Nodup := by
  rw [push, ← List.concat_eq_append]
  exact List.Nodup.concat offStack h

/-- The path of a cycle is cut out of the load stack. -/
theorem Registry.circuit_cycle {r : Registry} {name : String} (h : r.loading.Nodup)
    (stacked : name ∈ r.loading) : Circuit (fun _ _ => True) (r.cycle name) := by
  have chain : (r.loading ++ [name]).IsChain fun _ _ => True :=
    List.isChain_iff_forall_rel_of_append_cons_cons.mpr fun _ _ _ _ _ => trivial
  exact Circuit.of_stack h chain stacked

/-- No name is on the load stack twice, whenever anyone looks. -/
theorem Observable.nodup_loading {s : Session σ} (h : Observable s) : s.registry.loading.Nodup := by
  obtain ⟨options, loader, data, script, m, hm, rfl⟩ := h
  refine Within.preserves (P := fun _ s => s.registry.loading.Nodup) Session.lawful_steady ?after
    (fun h => h) ?construct ?opened hm List.nodup_nil
  case after =>
    intro _ s t steady h
    rwa [steady.loading]
  case construct =>
    intro _ s requester offStack h
    exact Registry.nodup_push h offStack
  case opened =>
    intro _ s name vacant h
    exact Registry.nodup_push h vacant.offStack

/-! ## Errors that definitions pass on -/

/-- Whether an error, if it is a cycle, has a path that ends where it starts and meets nothing else
twice. -/
def LinkError.WellFormed : LinkError → Prop
  | circularDependency path => Circuit (fun _ _ => True) path
  | _ => True

namespace Mark

/-- Whether a definition can have an error from the registry: as an answer, or as one that the
tables show. -/
def Offers (e : LinkError) : Mark → Prop
  | refused e' => e' = e
  | looked r => (∃ name, r.lastFailure? name = some e) ∨ r.loadOrder = .error e
  | _ => False

def Relays (known : LinkError → Prop) : Mark → Prop
  | failed (.circularDependency path) => known (.circularDependency path)
  | _ => True

end Mark

/-- Whether definitions end with a cycle only if it is known, from the beginning or because the
registry has come out with it by then. -/
def Relayed : (LinkError → Prop) → List Mark → Prop
  | _, [] => True
  | known, mark :: rest => mark.Relays known ∧ Relayed (fun e => known e ∨ mark.Offers e) rest

theorem relayed_append {known : LinkError → Prop} {a b : List Mark} :
    Relayed known (a ++ b) ↔
      Relayed known a ∧ Relayed (fun e => known e ∨ ∃ mark ∈ a, mark.Offers e) b := by
  induction a generalizing known with
  | nil => simp [Relayed]
  | cons mark rest ih =>
      simp only [List.cons_append, Relayed, ih, and_assoc, List.exists_mem_cons_iff, or_assoc]

/-- Whether the load stack has no name twice, and no failure is a cycle that is none. -/
structure Session.Orderly (s : Session σ) : Prop where
  nodup : s.registry.loading.Nodup
  failures : ∀ {name e}, s.registry.lastFailure? name = some e → e.WellFormed

namespace Session.Orderly

theorem push {s : Session σ} {name : String} (h : s.Orderly)
    (offStack : name ∉ s.registry.loading) : (s.change (·.push name)).Orderly :=
  ⟨Registry.nodup_push h.nodup offStack, h.failures⟩

theorem pop {s : Session σ} (h : s.Orderly) : (s.change .pop).Orderly :=
  ⟨h.nodup.sublist (List.dropLast_sublist _), h.failures⟩

theorem publish {s : Session σ} (h : s.Orderly) (m : Module) : (s.publish m).2.Orderly := by
  refine ⟨h.nodup, fun {name e} he => ?_⟩
  have after := s.registry.failures_publish m name
  obtain ⟨failure, hf, rfl⟩ := Registry.lastFailure?_eq_some_iff.mp he
  have kept : (if m.name = name then none else s.registry.failures[name]?) = some failure :=
    after.symm.trans hf
  split at kept
  · cases kept
  · exact h.failures (Registry.lastFailure?_eq_some_iff.mpr ⟨failure, kept, rfl⟩)

theorem recordFailure {s : Session σ} (h : s.Orderly) (name : String) {e : LinkError}
    (wf : e.WellFormed) : (s.recordFailure name e).Orderly := by
  refine ⟨h.nodup, fun {other e'} he => ?_⟩
  have after := s.registry.failures_recordFailure name other e
  obtain ⟨failure, hf, rfl⟩ := Registry.lastFailure?_eq_some_iff.mp he
  have kept : (if name = other then some ⟨s.registry.generation, e⟩
      else s.registry.failures[other]?) = some failure := after.symm.trans hf
  split at kept
  · obtain rfl := Option.some.inj kept
    exact wf
  · exact h.failures (Registry.lastFailure?_eq_some_iff.mpr ⟨failure, kept, rfl⟩)

theorem discard {s : Session σ} (h : s.Orderly) (name : String) : (s.discard name).Orderly := by
  unfold Session.discard
  split
  · exact ⟨h.nodup, h.failures⟩
  · exact h

theorem opened {s : Session σ} {name : String} (h : s.Orderly) (vacant : s.Vacant name) :
    (s.opened name).Orderly := ⟨Registry.nodup_push h.nodup vacant.offStack, h.failures⟩

theorem closed {s : Session σ} (h : s.Orderly) : s.closed.Orderly :=
  ⟨h.nodup.sublist (List.dropLast_sublist _), h.failures⟩

theorem cycle {s : Session σ} {name : String} (h : s.Orderly)
    (stacked : name ∈ s.registry.loading) :
    LinkError.WellFormed (.circularDependency (s.registry.cycle name)) :=
  Registry.circuit_cycle h.nodup stacked

/-- The errors that the tables show have come up by themselves. -/
theorem looked {s : Session σ} {e : LinkError} (h : s.Orderly)
    (offers : (Mark.looked s.registry).Offers e) : e.WellFormed := by
  rcases offers with ⟨name, he⟩ | he
  · exact h.failures he
  · unfold Registry.loadOrder Graph.dependencyOrder at he
    cases hc : s.registry.graph.detectCycle with
    | none => simp only [hc, reduceCtorEq] at he
    | some path =>
        simp only [hc, Except.error.injEq] at he
        have circuit := Graph.circuit_of_detectCycle hc
        rw [← he]
        have chain := circuit.chain.imp fun _ _ _ => trivial
        exact ⟨circuit.two_le, circuit.closed, circuit.nodup, chain⟩

end Session.Orderly

/-! ## Courses with errors that are passed on -/

/-- What is left of a course when definitions pass on nothing but what is well-formed: tables in
order, and errors that are well-formed. -/
structure Course.Sound (a : List Mark) (r : Option LinkError) (t : Session σ) : Prop where
  orderly : t.Orderly
  offered : ∀ mark ∈ a, ∀ e, mark.Offers e → e.WellFormed
  answer : ∀ e, r = some e → e.WellFormed

theorem wellFormed_of_relays {known : LinkError → Prop} {e : LinkError}
    (sound : ∀ e, known e → e.WellFormed) (relays : (Mark.failed e).Relays known) :
    e.WellFormed := by
  cases e with
  | circularDependency path => exact sound _ relays
  | _ => trivial

namespace Course.Sound

variable {s t : Session σ} {a b : List Mark} {r : Option LinkError}

/-- A step that offers nothing. -/
theorem quiet (h : t.Orderly) (answer : ∀ e, r = some e → e.WellFormed) : Sound [] r t :=
  ⟨h, fun _ hm => (List.not_mem_nil hm).elim, answer⟩

theorem caught (h : Sound a r t) : Sound a none t := ⟨h.orderly, h.offered, fun _ he => by cases he⟩

/-- What is known after a course, if it was well-formed before. -/
theorem known (h : Sound a r t) {known : LinkError → Prop} (sound : ∀ e, known e → e.WellFormed)
    (e : LinkError) (he : known e ∨ ∃ mark ∈ a, mark.Offers e) : e.WellFormed := by
  rcases he with he | ⟨mark, hm, offers⟩
  · exact sound e he
  · exact h.offered mark hm e offers

theorem andThen (first : Sound a none s) (second : Sound b r t) : Sound (a ++ b) r t :=
  ⟨second.orderly, fun mark hm => (List.mem_append.mp hm).elim (first.offered mark)
    (second.offered mark), second.answer⟩

theorem answered (h : Sound a r t) : Sound (a ++ Mark.ofAnswer r) r t := by
  refine h.caught.andThen ⟨h.orderly, fun mark hm e offers => ?_, h.answer⟩
  cases r with
  | none => cases hm
  | some e' =>
      obtain rfl := List.mem_singleton.mp hm
      exact h.answer e (congrArg some offers)

theorem frame (h : Sound a r t) (depth : Nat) :
    Sound (Linking.frameMarks depth a r) r (t.change .leave) := by
  refine ⟨⟨h.orderly.nodup, h.orderly.failures⟩, fun mark hm e offers => ?_, h.answer⟩
  rcases List.mem_cons.mp hm with rfl | hm
  · exact offers.elim
  · exact h.answered.offered mark hm e offers

/-- An error that a definition ends with. -/
theorem failed {e : LinkError} (h : t.Orderly) (wf : e.WellFormed) :
    Sound [.failed e] (some e) t := by
  refine ⟨h, fun mark hm e' offers => ?_, fun e' he => Option.some.inj he ▸ wf⟩
  obtain rfl := List.mem_singleton.mp hm
  exact offers.elim

end Course.Sound

/-- A course from tables in order, in which definitions end with no cycle but one that they know of,
comes out with tables in order and with well-formed errors. -/
theorem Course.sound {s t : Session σ} {a : List Mark} {r : Option LinkError}
    (course : Course s a r t) {known : LinkError → Prop} (sound : ∀ e, known e → e.WellFormed)
    (relayed : Relayed known a) (h : s.Orderly) : Course.Sound a r t := by
  induction course generalizing known with
  | rest | found | replace | desk => exact .quiet ⟨h.nodup, h.failures⟩ nofun
  | publish => exact .quiet (h.publish _) nofun
  | missing | tooDeep => exact .quiet h fun e he => Option.some.inj he ▸ trivial
  | repeated fresh =>
      have failed := Registry.freshFailure?_eq_some_iff.mp fresh
      have last := Registry.lastFailure?_eq_some_iff.mpr ⟨_, failed, rfl⟩
      refine .quiet h fun e he => Option.some.inj he ▸ h.failures last
  | cyclic stacked => exact .quiet h fun e he => Option.some.inj he ▸ h.cycle stacked
  | andThen _ _ first second =>
      obtain ⟨before, after⟩ := relayed_append.mp relayed
      have begun := first sound before h
      exact begun.andThen (second (begun.known sound) after begun.orderly)
  | caught _ ih => exact (ih sound relayed h).caught
  | frame _ ih =>
      have inside := (relayed_append.mp relayed.2).1
      refine (ih (fun e he => ?_) inside ⟨h.nodup, h.failures⟩).frame _
      exact he.elim (sound e) False.elim
  | construct offStack _ ih =>
      have inside := ih sound relayed (h.push offStack)
      exact ⟨inside.orderly.pop, inside.offered, inside.answer⟩
  | look =>
      refine ⟨⟨h.nodup, h.failures⟩, fun mark hm e offers => ?_, nofun⟩
      obtain rfl := List.mem_singleton.mp hm
      exact h.looked offers
  | refuse => exact .failed h (wellFormed_of_relays sound relayed.1)
  | absent _ _ => exact .quiet (h.recordFailure _ trivial) fun e he => Option.some.inj he ▸ trivial
  | failed vacant _ ih =>
      obtain ⟨before, after⟩ := relayed_append.mp relayed
      have inside := ih sound before (h.opened vacant)
      have wf := wellFormed_of_relays (inside.known sound) after.1
      exact inside.andThen (.failed ((inside.orderly.closed.discard _).recordFailure _ wf) wf)
  | unpublished vacant _ _ ih =>
      have inside := ih sound relayed (h.opened vacant)
      exact ⟨inside.orderly.closed.recordFailure _ trivial, inside.offered,
        fun e he => Option.some.inj he ▸ trivial⟩
  | loaded vacant _ _ ih =>
      have inside := ih sound relayed (h.opened vacant)
      have closed := inside.orderly.closed
      exact ⟨⟨closed.nodup, closed.failures⟩, inside.offered, inside.answer⟩
  | answered _ ih => exact (ih sound (relayed_append.mp relayed).1 h).answered

theorem Session.orderly_start (options : Options) (loader : Option (Loader σ)) (data : σ) :
    (Session.start options loader data).Orderly := by
  refine ⟨List.nodup_nil, fun {name e} he => ?_⟩
  simp [Session.start, Registry.ofOptions, Registry.lastFailure?] at he

/-- No name is ever on the load stack twice. So a cycle that the registry answers with, in a
definition or outside, at once or again later, has a path of two entries or more, which ends where
it starts and meets nothing else twice; unless a definition has ended with a cycle that it did not
have from the registry. -/
theorem cycles_wellFormed :
    (∀ s : Session σ, Observable s → s.registry.loading.Nodup) ∧
      ∀ (options : Options) (loader : Option (Loader σ)) (data : σ)
        (operations : List (Operation σ)),
        Relayed (fun _ => False) ((Session.start options loader data).marksOf operations) →
        ∀ path, .refused (.circularDependency path) ∈
            (Session.start options loader data).marksOf operations →
          2 ≤ path.length ∧ path.head? = path.getLast? ∧ path.dropLast.Nodup := by
  refine ⟨fun s seen => seen.nodup_loading, ?_⟩
  intro options loader data operations relayed path hm
  have course := Course.afterAll (Session.start options loader data) operations
  have sound := course.sound (fun _ => False.elim) relayed (Session.orderly_start ..)
  have circuit : LinkError.WellFormed (.circularDependency path) := sound.offered _ hm _ rfl
  exact ⟨circuit.two_le, circuit.closed, circuit.nodup⟩

/-- A loader with a cycle, and with a definition that asks again before it passes the error on. -/
def Loader.relaying : Loader Unit where
  offers _ := true
  definition name :=
    if name = "A" then .load "B" fun _ => .load "B" fun
      | .error e => .fail e
      | .ok _ => .succeed
    else .load "A" fun
      | .error e => .fail e
      | .ok _ => .succeed

/-- The cycle is raised by the request for the first module, repeated for the second definition, and
passed on by both. -/
theorem cycles_wellFormed_of_relaying :
    let e := LinkError.circularDependency ["A", "B", "A"]
    (Session.start {} (some .relaying) ()).marksOf [.call (.load "A")] =
        [.entered 0, .entered 1, .entered 2, .refused e, .failed e, .refused e, .entered 1,
          .refused e, .failed e, .refused e] ∧
      Relayed (fun _ => False)
        ((Session.start {} (some .relaying) ()).marksOf [.call (.load "A")]) ∧
      ["A", "B", "A"].dropLast.Nodup := by
  intro e
  have marks : (Session.start {} (some .relaying) ()).marksOf [.call (.load "A")] =
      [.entered 0, .entered 1, .entered 2, .refused e, .failed e, .refused e, .entered 1,
        .refused e, .failed e, .refused e] := by rfl
  have relayed : Relayed (fun _ => False)
      ((Session.start {} (some .relaying) ()).marksOf [.call (.load "A")]) := by
    rw [marks]
    simp [Relayed, Mark.Relays, Mark.Offers, e]
  have refused :
      .refused e ∈ (Session.start {} (some .relaying) ()).marksOf [.call (.load "A")] := by
    rw [marks]
    simp
  exact ⟨marks, relayed,
    (cycles_wellFormed.2 {} (some .relaying) () [.call (.load "A")] relayed _ refused).2.2⟩

end MibLinker
