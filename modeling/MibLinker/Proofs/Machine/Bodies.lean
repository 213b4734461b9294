import MibLinker.Proofs.Machine.Adequacy

/-!
# Which bodies are run

A module that is built from outside waits for its imports with a frame of its own, and its body is
run by the step that hands the symbols on to that frame. No step makes a frame of this kind out of
anything but a build that begins. So a build runs its body once at the most, after its imports have
been resolved, however often other modules are loaded meanwhile.
-/

namespace MibLinker

variable {σ : Type} {i j k : JobKind}

/-- The imports with which an answer sets off the body of the frame that it is handed on to. -/
def Frame.body : Frame σ i j → i.Answer → List ResolvedImports
  | .building b _, .ok symbols => [b.resolved symbols]
  | _, _ => []

namespace Machine

def body : Machine σ k → List ResolvedImports
  | answering answer (.cons frame _) _ => frame.body answer
  | _ => []

/-- Goes from a machine to a later one, with the imports of all bodies that are run on the way. -/
inductive Runs : Machine σ k → List ResolvedImports → Machine σ k → Prop
  | refl (m : Machine σ k) : Runs m [] m
  | step {m m' m'' : Machine σ k} {bodies : List ResolvedImports} :
      m.step = some m' → Runs m' bodies m'' → Runs m (m.body ++ bodies) m''

theorem Runs.trans {m m' m'' : Machine σ k} {before after : List ResolvedImports}
    (first : m.Runs before m') (second : m'.Runs after m'') : m.Runs (before ++ after) m'' := by
  induction first with
  | refl => exact second
  | step hs _ ih =>
      rw [List.append_assoc]
      exact .step hs (ih second)

/-- A machine that has come to its end goes no further, so what it ran is settled. -/
theorem Runs.unique {m m' : Machine σ k} {bodies others : List ResolvedImports}
    (ended : m'.step = none) (h : m.Runs bodies m') (h' : m.Runs others m') : bodies = others := by
  induction h generalizing others with
  | refl =>
      cases h' with
      | refl => rfl
      | step hs _ => cases ended.symm.trans hs
  | step hs _ ih =>
      cases h' with
      | refl => cases ended.symm.trans hs
      | step hs' later =>
          obtain rfl := Option.some.inj (hs.symm.trans hs')
          rw [ih ended later]

end Machine

/-! ## Builds under way -/

def Stack.builds : {i k : JobKind} → Stack σ i k → Nat
  | _, _, nil => 0
  | _, _, cons (.building _ _) rest => rest.builds + 1
  | _, _, cons _ rest => rest.builds

def Job.builds : Job σ j → Nat
  | .build _ _ => 1
  | _ => 0

def Machine.builds : Machine σ k → Nat
  | working job stack _ => job.builds + stack.builds
  | answering _ stack _ => stack.builds

theorem Frame.body_eq_nil (frame : Frame σ i j) (answer : i.Answer) {stack : Stack σ j k}
    (none : (Stack.cons frame stack).builds = stack.builds) : frame.body answer = [] := by
  cases frame with
  | building b body => exact absurd none (Nat.succ_ne_self _)
  | _ => rfl

theorem Stack.builds_le (frame : Frame σ i j) (stack : Stack σ j k) :
    stack.builds ≤ (Stack.cons frame stack).builds := by
  cases frame with
  | building b body => exact Nat.le_succ _
  | _ => exact Nat.le_refl _

namespace Machine

theorem builds_beginFetch (name : String) (stack : Stack σ .module k) (s : Session σ) :
    (beginFetch name stack s).builds = stack.builds := by
  rcases beginFetch_cases name stack s with ⟨_, eq⟩ | ⟨-, eq⟩ | ⟨_, -, -, eq⟩ <;> rw [eq]
  · rfl
  · rfl
  · exact Nat.zero_add _

theorem builds_beginScript (script : Script σ) (stack : Stack σ .ended k) (s : Session σ) :
    (beginScript script stack s).builds = stack.builds := by
  cases script with
  | done result => rfl
  | _ => exact Nat.zero_add _

theorem builds_begin (job : Job σ j) (stack : Stack σ j k) (s : Session σ) :
    (job.begin stack s).builds = job.builds + stack.builds := by
  cases job with
  | fetch name => exact (builds_beginFetch name stack s).trans (Nat.zero_add _).symm
  | find imports =>
      cases imports with
      | nil => exact (Nat.zero_add _).symm
      | cons i rest => rfl
  | resolve imports => rfl
  | resolveFrom requester imports =>
      dsimp only [Job.begin]
      split <;> rfl
  | load name => rfl
  | loadAll names =>
      cases names with
      | nil => exact (Nat.zero_add _).symm
      | cons name rest => rfl
  | build b body => exact (Nat.zero_add _).trans (Nat.add_comm _ _)
  | script rest => exact (builds_beginScript rest stack s).trans (Nat.zero_add _).symm

/-- Whatever a frame does with an answer, it is gone after that. -/
theorem builds_resume (frame : Frame σ i j) (answer : i.Answer) (stack : Stack σ j k)
    (s : Session σ) : (frame.resume answer stack s).builds = stack.builds := by
  cases frame with
  | finding i rest =>
      cases answer with
      | error e => rfl
      | ok m =>
          unfold Frame.resume
          dsimp only
          split
          · rfl
          · exact Nat.zero_add _
  | found symbol => cases answer <;> rfl
  | leaving => rfl
  | constructing requester => rfl
  | calling name =>
      cases answer with
      | error e => rfl
      | ok u =>
          unfold Frame.resume
          dsimp only
          split <;> rfl
  | loadingAll rest =>
      cases answer with
      | error e => rfl
      | ok m => exact Nat.zero_add _
  | building b body =>
      cases answer with
      | error e => rfl
      | ok symbols =>
          unfold Frame.resume
          dsimp only
          split <;> rfl
  | asking next => exact Nat.zero_add _

/-- A step starts no build, and runs a body only if it takes a build that was under way. -/
theorem builds_step {m m' : Machine σ k} (hs : m.step = some m') :
    m'.builds ≤ m.builds ∧ (m'.builds = m.builds → m.body = []) := by
  cases m with
  | working job stack s =>
      obtain rfl := Option.some.inj hs
      exact ⟨Nat.le_of_eq (builds_begin job stack s), fun _ => rfl⟩
  | answering answer stack s =>
      cases stack with
      | nil => cases hs
      | cons frame rest =>
          obtain rfl := Option.some.inj hs
          rw [builds_resume]
          exact ⟨Stack.builds_le frame rest, fun same => frame.body_eq_nil answer same.symm⟩

theorem Reaches.builds_le {m m' : Machine σ k} (h : m.Reaches m') : m'.builds ≤ m.builds := by
  induction h with
  | refl => exact Nat.le_refl _
  | tail _ hs ih => exact Nat.le_trans (builds_step hs).1 ih

/-- As long as no build is taken, no body is run. -/
theorem Reaches.runs_nothing {m m' : Machine σ k} (h : m.Reaches m')
    (same : m'.builds = m.builds) : m.Runs [] m' := by
  induction h using Relation.ReflTransGen.head_induction_on with
  | refl => exact .refl m'
  | head hs later ih =>
      obtain ⟨fewer, quiet⟩ := builds_step hs
      have least := Reaches.builds_le later
      have kept := Nat.le_antisymm fewer (same ▸ least)
      have rest := Runs.step hs (ih (same.trans kept.symm))
      rwa [quiet kept] at rest

end Machine

/-- Building a module runs its body once if all its imports are resolved, with what they were
resolved to, and otherwise not at all. No other body is run. -/
theorem Job.runs_of_build (b : Builder) (body : Body σ) (s : Session σ)
    (bodies : List ResolvedImports) :
    (Machine.working (.build b body) .nil s).Runs bodies
        (.answering (j := .module) (s.build b body).1 .nil (s.build b body).2) ↔
      bodies = match (s.resolveFrom b.name b.imports).1 with
        | .ok symbols => [b.resolved symbols]
        | .error _ => [] := by
  let start : Machine σ .module := .working (.build b body) .nil s
  let ending : Machine σ .module :=
    .answering (j := .module) (s.build b body).1 .nil (s.build b body).2
  have ran : start.Runs (match (s.resolveFrom b.name b.imports).1 with
      | .ok symbols => [b.resolved symbols]
      | .error _ => []) ending := by
    have resolved := (Job.resolveFrom b.name b.imports).returns s (.cons (.building b body) .nil)
    have waited := Machine.Reaches.runs_nothing (.head (a := start) rfl resolved) rfl
    have built : s.build b body = Linking.build s.fetch b body s := rfl
    have asked : s.resolveFrom b.name b.imports =
        Linking.resolveFrom s.fetch b.name b.imports s := rfl
    simp only [ending, built, asked, Linking.build]
    dsimp only [Job.link] at waited
    rcases hr : Linking.resolveFrom s.fetch b.name b.imports s with ⟨e | symbols, t⟩ <;>
      rw [hr] at waited
    · exact waited.trans (.step rfl (.refl _))
    · refine waited.trans (.step ?_ (.refl _))
      rcases hb : (body (b.resolved symbols)).run t.desk with ⟨e | exports, desk⟩ <;>
        simp only [Machine.step, Frame.resume, hb]
  have ended : ending.step = none := rfl
  exact ⟨fun h => h.unique ended ran, fun h => h ▸ ran⟩

end MibLinker
