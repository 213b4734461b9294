import MibLinker.Proofs.Building.Accrual
import MibLinker.Proofs.LoadStack

/-!
# Coming back to a module under construction

While the imports of a new module are being found, a request for the module itself closes a cycle,
however deep inside other definitions it is made. When definitions only build, each passes the error
on to the one that asked, so that the whole construction comes to nothing but that cycle.
-/

namespace MibLinker

variable {σ : Type} {D : Discipline}

/-! ## Scripts that pass errors on -/

/-- Whether a script resolves imports for its own module only, publishes no other, and ends with the
error of an import that is not resolved. -/
inductive Script.Direct (own : String) : Script σ → Prop
  | done (result : Except LinkError Unit) : Direct own (.done result)
  | resolveFrom {imports : List Import} {next : Except LinkError (List Symbol) → Script σ} :
      (∀ e, next (.error e) = .fail e) → (∀ symbols, Direct own (next (.ok symbols))) →
      Direct own (.resolveFrom own imports next)
  | publish {m : Module} {next : Shared Module → Script σ} : m.name = own →
      (∀ object, Direct own (next object)) → Direct own (.publish m next)
  | work {change : View σ → Desk σ} {next : View σ → Script σ} :
      (∀ view, Direct own (next view)) → Direct own (.work change next)

theorem Script.Builds.direct {own : String} {script : Script σ} (h : script.Builds D own) :
    script.Direct own := by
  induction h with
  | refuse e => exact .done _
  | @build imports body _ =>
      refine .resolveFrom (fun _ => rfl) fun symbols => .work fun view => ?_
      dsimp only
      split
      · exact .done _
      · exact .publish rfl fun _ => .done _
  | work _ ih => exact .work ih

/-! ## A module under construction -/

namespace Session

/-- Whether a module that is not published is under construction in a request, and no load of it has
failed within that. -/
structure Underway (D : Discipline) (name : String) (s : Session σ) : Prop where
  follows : ∀ {loader}, s.loader = some loader → loader.Follows D
  inside : 0 < s.registry.depth
  nodup : s.registry.loading.Nodup
  stacked : name ∈ s.registry.loading
  unpublished : s.registry.module? name = none
  unfailed : s.registry.freshFailure? name = none

/-- No load of a name on the load stack ends. -/
theorem Attempting.unfailed {s t : Session σ} {name : String} (h : s.Attempting t)
    (inside : 0 < s.registry.depth) (stacked : name ∈ s.registry.loading)
    (unfailed : s.registry.freshFailure? name = none) :
    t.registry.freshFailure? name = none := by
  refine Option.eq_none_iff_forall_ne_some.mpr fun e failed => ?_
  rcases (h.tries inside).fresh failed with before | ended
  · rw [unfailed] at before
    cases before
  · have untried := (h.tries inside).busy stacked
    exact absurd (tries_pos_of_failed ended) (untried ▸ Nat.lt_irrefl 0)

namespace Underway

variable {name : String} {s t : Session σ} (h : s.Underway D name)

include h

theorem after {requested : List String} (accrues : s.Accrues D s.registry.loading requested t)
    (attempting : s.Attempting t) : t.Underway D name where
  follows hl := h.follows (accrues.loader ▸ hl)
  inside := attempting.steady.depth ▸ h.inside
  nodup := attempting.steady.loading ▸ h.nodup
  stacked := attempting.steady.loading ▸ h.stacked
  unpublished := (accrues.spared h.stacked).1.trans h.unpublished
  unfailed := attempting.unfailed h.inside h.stacked h.unfailed

theorem enter : (s.change .enter).Underway D name where
  follows := h.follows
  inside := Nat.succ_pos _
  nodup := h.nodup
  stacked := h.stacked
  unpublished := h.unpublished
  unfailed := (freshFailure?_enter h.inside name).trans h.unfailed

theorem constructing (requester : String) : (s.constructing requester).Underway D name := by
  unfold Session.constructing
  split
  · exact h
  · next offStack =>
      exact ⟨h.follows, h.inside, Registry.nodup_push h.nodup offStack,
        List.mem_append_left _ h.stacked, h.unpublished, h.unfailed⟩

theorem opened {other : String} (vacant : s.Vacant other) : (s.opened other).Underway D name :=
  ⟨h.follows, h.inside, Registry.nodup_push h.nodup vacant.offStack,
    List.mem_append_left _ h.stacked, h.unpublished, h.unfailed⟩

theorem publish {m : Module} (other : m.name ≠ name) : (s.publish m).2.Underway D name where
  follows := h.follows
  inside := h.inside
  nodup := h.nodup
  stacked := h.stacked
  unpublished := (module?_publish s m name).trans ((if_neg other).trans h.unpublished)
  unfailed := (Registry.freshFailure?_publish s.registry m name).trans
    ((if_neg other).trans h.unfailed)

theorem worked (desk : Desk σ) : (s.withDesk desk).Underway D name :=
  ⟨h.follows, h.inside, h.nodup, h.stacked, h.unpublished, h.unfailed⟩

/-- A script that goes on with another module leaves this one under construction. -/
theorem advance {own : String} {n : Nat} {script rest : Script σ} (other : own ≠ name)
    (direct : script.Direct own)
    (step : Linking.advance (Linking.fetch n) script s = some (rest, t)) :
    t.Underway D name ∧ rest.Direct own := by
  cases direct with
  | done => cases step
  | @resolveFrom imports next passes onward =>
      obtain ⟨rfl, rfl⟩ := Prod.mk.inj (Option.some.inj step)
      have resolved :=
        (Linking.resolveFrom_accrues (Linking.fetch_accrues n) own imports h.follows).1
      have accrues := resolved.mono (loading_subset_constructing s own)
        fun root hroot => ⟨root, hroot, .refl⟩
      have tried := lawful_attempting.resolveFrom (lawful_attempting.fetch n) own imports s
      refine ⟨h.after accrues tried, ?_⟩
      cases (Linking.resolveFrom (Linking.fetch n) own imports s).1 with
      | error e => exact passes e ▸ .done _
      | ok symbols => exact onward symbols
  | publish named onward =>
      obtain ⟨rfl, rfl⟩ := Prod.mk.inj (Option.some.inj step)
      exact ⟨h.publish (named ▸ other), onward _⟩
  | work onward =>
      obtain ⟨rfl, rfl⟩ := Prod.mk.inj (Option.some.inj step)
      exact ⟨h.worked _, onward _⟩

/-- A request for the module closes a cycle. -/
theorem fetch_eq (allowance : Nat) : Linking.fetch allowance name s =
    (.error (.circularDependency (s.registry.cycle name)), s) := by
  cases allowance <;>
    simp only [Linking.fetch, Linking.fetchBy, h.unpublished, h.unfailed, if_pos h.stacked]

/-- The path of that cycle leads from the module back to it. -/
theorem circuit : Circuit (fun _ _ => True) (s.registry.cycle name) ∧
    (s.registry.cycle name).head? = some name := by
  obtain ⟨rest, hrest⟩ := Circuit.exists_dropWhile_eq_cons h.stacked
  refine ⟨Registry.circuit_cycle h.nodup h.stacked, ?_⟩
  rw [Registry.cycle, hrest]
  rfl

end Underway

end Session

/-! ## From the inside out -/

namespace Moment

def FailsWith (e : LinkError) (m : Moment σ) : Prop :=
  match m.task with
  | .fetch name => (Linking.fetch m.allowance name m.session).1 = .error e
  | .find imports =>
      (Linking.resolveEach (Linking.fetch m.allowance) imports m.session).1 = .error e
  | .script rest => (Linking.run (Linking.fetch m.allowance) rest m.session).1 = .error e

structure Underway (D : Discipline) (name : String) (m : Moment σ) : Prop where
  session : m.session.Underway D name
  direct : ∀ {rest}, m.task = .script rest → ∃ own, own ≠ name ∧ rest.Direct own

variable {name : String} {m m' : Moment σ}

/-- The module stays under construction from one moment to the next ones. -/
theorem Underway.leads (h : m.Underway D name) (step : Leads m m') : m'.Underway D name := by
  obtain ⟨session, direct⟩ := h
  cases step with
  | resolve => exact ⟨session.enter, nofun⟩
  | load => exact ⟨session.enter, nofun⟩
  | resolveFrom => exact ⟨(session.constructing _).enter, nofun⟩
  | advance step =>
      obtain ⟨own, other, script⟩ := direct rfl
      obtain ⟨after, onward⟩ := session.advance other script step
      exact ⟨after, fun same => ⟨own, other, Task.script.inj same ▸ onward⟩⟩
  | first => exact ⟨session, nofun⟩
  | @next n s i _ _ t found =>
      have accrues := Linking.resolveOne_accrues (Linking.fetch_accrues n) i session.follows
      have tried := Session.lawful_attempting.resolveOne (Session.lawful_attempting.fetch n) i s
      rw [found] at accrues tried
      exact ⟨session.after accrues tried, nofun⟩
  | @call _ s other loader vacant hl =>
      have differs : other ≠ name := fun heq => vacant.offStack (heq ▸ session.stacked)
      have builds := session.follows hl other
      exact ⟨session.opened vacant, fun same =>
        ⟨other, differs, Task.script.inj same ▸ builds.direct⟩⟩

/-- An error that a moment comes to is one of the moment that it comes out of. -/
theorem Underway.failsWith (h : m.Underway D name) (step : Leads m m') {e : LinkError}
    (failed : m'.FailsWith e) : m.FailsWith e := by
  cases step with
  | resolve =>
      obtain ⟨own, -, script⟩ := h.direct rfl
      cases script
  | load =>
      obtain ⟨own, -, script⟩ := h.direct rfl
      cases script
  | @resolveFrom n s requester imports next =>
      obtain ⟨own, -, script⟩ := h.direct rfl
      cases script with
      | resolveFrom passes _ =>
          have answer : (Linking.resolveFrom (Linking.fetch n) requester imports s).1 =
              .error e := by
            rw [Linking.resolveFrom_eq_finish]
            exact failed
          show (Linking.run (Linking.fetch n) (next _) _).1 = .error e
          rw [answer, passes]
          rfl
  | advance step =>
      obtain ⟨own, -, script⟩ := h.direct rfl
      cases script with
      | done => cases step
      | resolveFrom | publish | work =>
          cases step
          exact failed
  | @first n s i rest =>
      have failed : (Linking.fetch n i.module s).1 = .error e := failed
      show (Linking.resolveEach (Linking.fetch n) (i :: rest) s).1 = .error e
      rcases hr : Linking.fetch n i.module s with ⟨e' | m, t⟩ <;> rw [hr] at failed
      · obtain rfl := Except.error.inj failed
        simp only [Linking.resolveEach, Linking.resolveOne, hr]
      · cases failed
  | @next n s i rest symbol t found =>
      have failed : (Linking.resolveEach (Linking.fetch n) rest t).1 = .error e := failed
      show (Linking.resolveEach (Linking.fetch n) (i :: rest) s).1 = .error e
      rcases hr : Linking.resolveEach (Linking.fetch n) rest t with ⟨e' | symbols, u⟩ <;>
        rw [hr] at failed
      · simpa only [Linking.resolveEach, found, hr] using failed
      · cases failed
  | @call n s other loader vacant hl =>
      have ran : Linking.run (Linking.fetch n) (loader.definition other) (s.opened other) =
          (.error e, _) := Prod.ext failed rfl
      show (Linking.fetch (n + 1) other s).1 = .error e
      rw [Linking.fetch, Linking.fetchBy_of_vacant _ vacant, Linking.attempt_of_error hl ran]

/-- Whatever leads to a request for the module under construction comes to the cycle that it closes.
-/
theorem Underway.failsWith_cycle (h : m.Underway D name) (within : Within m m')
    (requested : m'.task = .fetch name) :
    ∃ path, m.FailsWith (.circularDependency path) ∧ Circuit (fun _ _ => True) path ∧
      path.head? = some name := by
  induction within using Relation.ReflTransGen.head_induction_on with
  | refl =>
      obtain ⟨circuit, first⟩ := h.session.circuit
      refine ⟨_, ?_, circuit, first⟩
      simp only [FailsWith, requested, h.session.fetch_eq]
  | head step _ ih =>
      obtain ⟨path, failed, there⟩ := ih (h.leads step)
      exact ⟨path, h.failsWith step failed, there⟩

end Moment

end MibLinker
