import Mathlib.Logic.Relation
import MibLinker.Proofs.Preservation

/-!
# Moments of a run

A run is more than its two ends: scripts look at the registry in the middle of a load, and make
requests there. A moment is a session with what is about to be done in it, `Leads` goes from a moment
to the ones that come right out of it, inside or after, and `Within` to all that a moment leads to.
`Within.preserves` carries a property from the first moment of a run to every other.
-/

namespace MibLinker

variable {σ : Type}

/-! ## Requests from outside -/

/-- A request that has a frame of its own. -/
inductive Call where
  | resolve (imports : List Import)
  | resolveFrom (requester : String) (imports : List Import)
  | load (name : String)

def Call.perform (allowance : Nat) (s : Session σ) : Call → Session σ
  | resolve imports => (Linking.resolve (Linking.fetch allowance) imports s).2
  | resolveFrom requester imports =>
      (Linking.resolveFrom (Linking.fetch allowance) requester imports s).2
  | load name => (Linking.load (Linking.fetch allowance) name s).2

inductive Operation (σ : Type) where
  | call (call : Call)
  | preload
  | publish (m : Module)
  | build (b : Builder) (body : Body σ)
  | setLoader (loader : Loader σ)
  /-- Runs a definition, without a loader. -/
  | define (script : Script σ)

def Operation.perform (allowance : Nat) (s : Session σ) : Operation σ → Session σ
  | call c => c.perform allowance s
  | preload => (Linking.loadAll (Linking.fetch allowance) s.registry.options.preload s).2
  | publish m => (s.publish m).2
  | build b body => (Linking.build (Linking.fetch allowance) b body s).2
  | setLoader loader => s.withLoader loader
  | define script => (Linking.run (Linking.fetch allowance) script s).2

/-- The session after operations in turn, each as deep as the tables then allow. -/
def Session.afterAll (s : Session σ) (operations : List (Operation σ)) : Session σ :=
  operations.foldl (fun s operation => operation.perform s.registry.allowance s) s

namespace Lawful

variable {R : Session σ → Session σ → Prop} (h : Lawful R)

include h

theorem call (allowance : Nat) (s : Session σ) (c : Call) : R s (c.perform allowance s) := by
  cases c with
  | resolve imports => exact h.resolve (h.fetch allowance) imports s
  | resolveFrom requester imports =>
      exact h.resolveFrom (h.fetch allowance) requester imports s
  | load name => exact h.load (h.fetch allowance) name s

theorem operation (allowance : Nat) (s : Session σ) (operation : Operation σ) :
    R s (operation.perform allowance s) := by
  cases operation with
  | call c => exact h.call allowance s c
  | preload => exact h.loadAll (h.fetch allowance) _ s
  | publish m => exact h.publish s m
  | build b body => exact h.build (h.fetch allowance) b body s
  | setLoader loader => exact h.replace s loader
  | define script => exact h.run (h.fetch allowance) script s

theorem afterAll (s : Session σ) (operations : List (Operation σ)) :
    R s (s.afterAll operations) := by
  induction operations generalizing s with
  | nil => exact h.refl s
  | cons operation rest ih => exact h.trans (h.operation _ s operation) (ih _)

end Lawful

/-! ## Moments -/

inductive Task (σ : Type) where
  /-- A module is requested. -/
  | fetch (name : String)
  /-- Symbols are found in turn. -/
  | find (imports : List Import)
  /-- A script goes on; it may look around first. -/
  | script (rest : Script σ)

/-- A session with what is about to be done in it, and how deep loader calls may still nest. -/
structure Moment (σ : Type) where
  allowance : Nat
  task : Task σ
  session : Session σ

def Call.moment (allowance : Nat) (s : Session σ) : Call → Moment σ
  | resolve imports => ⟨allowance, .find imports, s.change .enter⟩
  | resolveFrom requester imports =>
      ⟨allowance, .find imports, (s.constructing requester).change .enter⟩
  | load name => ⟨allowance, .fetch name, s.change .enter⟩

def Call.finish (c : Call) (earlier inside : Session σ) : Session σ :=
  match c with
  | resolve _ => inside.change .leave
  | resolveFrom requester _ =>
      if requester ∈ earlier.registry.loading then inside.change .leave
      else (inside.change .leave).change .pop
  | load _ => inside.change .leave

theorem Call.finish_cases (c : Call) (earlier inside : Session σ) :
    c.finish earlier inside = inside.change .leave ∨
      c.finish earlier inside = (inside.change .leave).change .pop := by
  cases c with
  | resolve imports => exact .inl rfl
  | load name => exact .inl rfl
  | resolveFrom requester imports =>
      by_cases stacked : requester ∈ earlier.registry.loading
      · exact .inl (if_pos stacked)
      · exact .inr (if_neg stacked)

@[simp] theorem Call.journal_finish (c : Call) (earlier inside : Session σ) :
    (c.finish earlier inside).journal = inside.journal := by
  obtain h | h := c.finish_cases earlier inside <;> rw [h] <;> rfl

theorem Linking.resolveFrom_eq_finish (fetch : Fetch σ) (requester : String) (imports : List Import)
    (s : Session σ) :
    let inside := resolveEach fetch imports ((s.constructing requester).change .enter)
    resolveFrom fetch requester imports s =
      (inside.1, (Call.resolveFrom requester imports).finish s inside.2) := by
  by_cases stacked : requester ∈ s.registry.loading
  · simp only [resolveFrom, Session.constructing, Call.finish, if_pos stacked]
    rfl
  · simp only [resolveFrom, Session.constructing, Call.finish, if_neg stacked]
    rfl

def Linking.advance (fetch : Linking.Fetch σ) : Script σ → Session σ → Option (Script σ × Session σ)
  | .done _, _ => none
  | .resolve imports next, s =>
      let step := resolve fetch imports s
      some (next step.1, step.2)
  | .resolveFrom requester imports next, s =>
      let step := resolveFrom fetch requester imports s
      some (next step.1, step.2)
  | .load name next, s =>
      let step := load fetch name s
      some (next step.1, step.2)
  | .publish m next, s =>
      let step := s.publish m
      some (next step.1, step.2)
  | .replaceLoader offers definition next, s => some (next, s.withLoader ⟨offers, definition⟩)
  | .work change next, s => some (next s.view, s.withDesk (change s.view))

/-- Goes from a moment to the ones that come right out of it: the first moment inside a request, and
the first one after it. -/
inductive Leads : Moment σ → Moment σ → Prop
  | resolve {n s imports next} :
      Leads ⟨n, .script (.resolve imports next), s⟩ ((Call.resolve imports).moment n s)
  | resolveFrom {n s requester imports next} :
      Leads ⟨n, .script (.resolveFrom requester imports next), s⟩
        ((Call.resolveFrom requester imports).moment n s)
  | load {n s name next} : Leads ⟨n, .script (.load name next), s⟩ ((Call.load name).moment n s)
  | advance {n script s rest t} : Linking.advance (Linking.fetch n) script s = some (rest, t) →
      Leads ⟨n, .script script, s⟩ ⟨n, .script rest, t⟩
  | first {n s i rest} : Leads ⟨n, .find (i :: rest), s⟩ ⟨n, .fetch i.module, s⟩
  | next {n s i rest symbol t} :
      Linking.resolveOne (Linking.fetch n) i s = (.ok symbol, t) →
      Leads ⟨n, .find (i :: rest), s⟩ ⟨n, .find rest, t⟩
  | call {n s name loader} : s.Vacant name → s.loader = some loader →
      Leads ⟨n + 1, .fetch name, s⟩ ⟨n, .script (loader.definition name), s.opened name⟩

abbrev Within : Moment σ → Moment σ → Prop := Relation.ReflTransGen Leads

def Moment.initial (options : Options) (loader : Option (Loader σ)) (data : σ)
    (script : Script σ) : Moment σ :=
  ⟨options.maxLoadDepth, .script script, .start options loader data⟩

/-- Whether a session is one that a client of a new registry, or a definition that is called for
it, may come to see. -/
def Observable (s : Session σ) : Prop :=
  ∃ options loader data script m, Within (.initial options loader data script) m ∧ m.session = s

theorem within_run (allowance : Nat) (script : Script σ) (s : Session σ) :
    Within ⟨allowance, .script script, s⟩
      ⟨allowance, .script (.done (Linking.run (Linking.fetch allowance) script s).1),
        (Linking.run (Linking.fetch allowance) script s).2⟩ := by
  induction script generalizing s with
  | done result => exact .refl
  | resolve imports next ih => exact .head (.advance rfl) (ih _ _)
  | resolveFrom requester imports next ih => exact .head (.advance rfl) (ih _ _)
  | load name next ih => exact .head (.advance rfl) (ih _ _)
  | publish m next ih => exact .head (.advance rfl) (ih _ _)
  | replaceLoader offers definition next _ ih => exact .head (.advance rfl) (ih _)
  | work change next ih => exact .head (.advance rfl) (ih _ _)

theorem observable_run (options : Options) (loader : Option (Loader σ)) (data : σ)
    (script : Script σ) : Observable ((Session.start options loader data).run script).2 :=
  ⟨options, loader, data, script, _, within_run options.maxLoadDepth script _, rfl⟩

/-! ## Properties of all moments -/

theorem Lawful.advance {R : Session σ → Session σ → Prop} (h : Lawful R) {n : Nat}
    {script rest : Script σ} {s t : Session σ}
    (ha : Linking.advance (Linking.fetch n) script s = some (rest, t)) : R s t := by
  have hf := h.fetch n
  cases script <;>
    simp only [Linking.advance, reduceCtorEq, Option.some.injEq, Prod.mk.injEq] at ha <;>
    obtain ⟨-, rfl⟩ := ha
  case resolve imports _ => exact h.resolve hf imports s
  case resolveFrom requester imports _ => exact h.resolveFrom hf requester imports s
  case load name _ => exact h.load hf name s
  case publish m _ => exact h.publish s m
  case replaceLoader => exact h.replace s _
  case work => exact h.desk s _

/-- A property that survives a lawful relation, and the ways into a request, holds at every moment
of a run that it holds at the start of. -/
theorem Within.preserves {R : Session σ → Session σ → Prop} {P : Nat → Session σ → Prop}
    (lawful : Lawful R) (after : ∀ {n s t}, R s t → P n s → P n t)
    (enter : ∀ {n s}, P n s → P n (s.change .enter))
    (construct : ∀ {n s requester}, requester ∉ s.registry.loading → P n s →
      P n (s.change (·.push requester)))
    (opened : ∀ {n s name}, s.Vacant name → P (n + 1) s → P n (s.opened name))
    {m m' : Moment σ} (h : Within m m') (hm : P m.allowance m.session) :
    P m'.allowance m'.session := by
  induction h with
  | refl => exact hm
  | tail _ step ih =>
      cases step with
      | resolve => exact enter ih
      | @resolveFrom _ s requester _ _ =>
          by_cases hr : requester ∈ s.registry.loading
          · simpa [Call.moment, Session.constructing, hr] using enter ih
          · simpa [Call.moment, Session.constructing, hr] using enter (construct hr ih)
      | load => exact enter ih
      | advance ha => exact after (lawful.advance ha) ih
      | first => exact ih
      | @next n s i _ _ _ hi =>
          have found := lawful.resolveOne (lawful.fetch n) i s
          rw [hi] at found
          exact after found ih
      | call hv _ => exact opened hv ih

/-- A property of new sessions that every part of linking keeps is one of observable sessions. -/
theorem Observable.holds {P : Session σ → Prop} (lawful : Lawful fun s t : Session σ => P s → P t)
    (start : ∀ options loader data, P (.start options loader data))
    (enter : ∀ {s}, P s → P (s.change .enter))
    (construct : ∀ {s requester}, requester ∉ s.registry.loading → P s →
      P (s.change (·.push requester)))
    (opened : ∀ {s name}, s.Vacant name → P s → P (s.opened name))
    {s : Session σ} (h : Observable s) : P s := by
  obtain ⟨options, loader, data, script, m, hm, rfl⟩ := h
  exact Within.preserves (P := fun _ => P) lawful (fun kept => kept) enter construct opened hm
    (start options loader data)

end MibLinker
