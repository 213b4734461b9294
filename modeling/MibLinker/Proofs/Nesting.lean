import MibLinker.Proofs.Course
import MibLinker.Proofs.Steadiness

/-!
# Nesting

How a run nests is told by the load stack, the depth of the frames, the number of loader calls that
are running, and the generation. An operation restores the first three, and begins a generation for
each frame that is entered from outside, and for nothing else.
-/

namespace MibLinker

variable {σ : Type}

def Mark.isOutermost : Mark → Bool
  | entered depth => depth == 0
  | _ => false

theorem countP_isOutermost_frameMarks (depth : Nat) (a : List Mark) (r : Option LinkError) :
    (Linking.frameMarks depth a r).countP Mark.isOutermost =
      (if depth = 0 then 1 else 0) + a.countP Mark.isOutermost := by
  have answer : (Mark.ofAnswer r).countP Mark.isOutermost = 0 := by
    cases r <;> rfl
  rw [Linking.frameMarks, List.countP_cons, List.countP_append, answer]
  simp only [Mark.isOutermost, beq_iff_eq]
  omega

theorem Session.generation_discard (s : Session σ) (name : String) :
    (s.discard name).registry.generation = s.registry.generation := by
  unfold discard
  split <;> rfl

/-- A run begins a generation for each frame that it enters from outside. -/
theorem Course.generation_eq {s t : Session σ} {a : List Mark} {r : Option LinkError}
    (course : Course s a r t) :
    t.registry.generation = s.registry.generation + a.countP Mark.isOutermost := by
  induction course with
  | rest | found | missing | repeated | cyclic | tooDeep | publish | replace | look | desk | refuse
  | absent => rfl
  | caught _ ih => exact ih
  | construct _ _ ih => exact ih
  | unpublished _ _ _ ih => exact ih
  | loaded _ _ _ ih => exact ih
  | andThen _ _ first second => rw [second, first, List.countP_append, Nat.add_assoc]
  | @frame s a r t _ ih =>
      have entered : (s.change .enter).registry.generation =
          if s.registry.depth = 0 then s.registry.generation + 1 else s.registry.generation := rfl
      change t.registry.generation = _
      rw [ih, entered, countP_isOutermost_frameMarks]
      split <;> omega
  | @failed s a t name e _ _ ih =>
      have closed : ((t.closed.discard name).recordFailure name e).registry.generation =
          t.registry.generation := Session.generation_discard t.closed name
      rw [closed, ih, List.countP_append]
      rfl
  | @answered s a r t _ ih =>
      have answer : (Mark.ofAnswer r).countP Mark.isOutermost = 0 := by
        cases r <;> rfl
      rw [ih, List.countP_append, answer]
      rfl

/-- No frame that is entered inside another one is outermost. -/
theorem Course.countP_eq_zero {s t : Session σ} {a : List Mark} {r : Option LinkError}
    (course : Course s a r t) (inside : 0 < s.registry.depth) : a.countP Mark.isOutermost = 0 := by
  have same : t.registry.generation = s.registry.generation :=
    (Session.lawful_steady.course course).generation inside
  have grown := course.generation_eq
  omega

theorem Call.countP_marks (allowance : Nat) (s : Session σ) (c : Call) :
    (c.marks allowance s).countP Mark.isOutermost = if s.registry.depth = 0 then 1 else 0 := by
  have marked := Course.fetch (σ := σ) allowance
  have framed : ∀ {u : Session σ} {a : List Mark} {r : Option LinkError} {t : Session σ},
      u.registry.depth = s.registry.depth → Course (u.change .enter) a r t →
      (Linking.frameMarks u.registry.depth a r).countP Mark.isOutermost =
        if s.registry.depth = 0 then 1 else 0 := by
    intro u a r t same inside
    rw [countP_isOutermost_frameMarks, inside.countP_eq_zero (Nat.succ_pos _), same, Nat.add_zero]
  cases c with
  | resolve imports => exact framed rfl (Course.find marked imports _)
  | resolveFrom requester imports =>
      refine framed ?_ (Course.find marked imports _)
      unfold Session.constructing
      split <;> rfl
  | load name => exact framed rfl (marked name _)

/-- Whatever a registry is asked to do, at whatever depth, and however it ends, it is nested after
as it was before, with the same options. The generation grows by one for each frame that is entered
from outside, as that of a call is, and by nothing else. A name that comes off the load stack, after
a list of requests or a loader call, is the one that went on it. -/
theorem nesting_restored (allowance : Nat) (s : Session σ) (operation : Operation σ) :
    let t := operation.perform allowance s
    t.registry.loading = s.registry.loading ∧ t.registry.depth = s.registry.depth ∧
      t.registry.activeLoads = s.registry.activeLoads ∧
      t.registry.options = s.registry.options ∧ (t.registry.Idle ↔ s.registry.Idle) ∧
      t.registry.generation =
        s.registry.generation + (operation.marks allowance s).countP Mark.isOutermost ∧
      (∀ c : Call, (c.perform allowance s).registry.generation =
        s.registry.generation + if s.registry.depth = 0 then 1 else 0) ∧
      (∀ requester imports,
        (Linking.resolve (Linking.fetch allowance) imports
          (s.change (·.push requester))).2.registry.loading =
            s.registry.loading ++ [requester]) ∧
      ∀ name script,
        (Linking.run (Linking.fetch allowance) script (s.opened name)).2.registry.loading =
          s.registry.loading ++ [name] := by
  intro t
  have keeps := Session.lawful_steady.fetch (σ := σ) allowance
  have steady : s.Steady t := Session.lawful_steady.operation allowance s operation
  refine ⟨steady.loading, steady.depth, steady.activeLoads, steady.options, ?idle,
    (Course.operation allowance s operation).generation_eq, ?call, ?requester, ?loader⟩
  case idle => rw [Registry.Idle, Registry.Idle, steady.loading, steady.depth, steady.activeLoads]
  case call =>
    intro c
    have course : Course s (c.marks allowance s) none (c.perform allowance s) :=
      Course.operation allowance s (.call c)
    rw [course.generation_eq, c.countP_marks]
  case requester =>
    intro requester imports
    exact (Session.lawful_steady.resolve keeps imports (s.change (·.push requester))).loading
  case loader =>
    intro name script
    exact (Session.lawful_steady.run keeps script (s.opened name)).loading

def Loader.descending : Loader Unit where
  offers name := name == "A" || name == "B"
  definition name :=
    if name = "A" then .load "B" fun _ => .load "C" fun _ => .succeed
    else .fail (.definition name "refused")

/-- Two loads are asked for from outside, and both fail deep inside. Six frames are entered for
them, of which two are outermost. -/
theorem nesting_restored_past_failures :
    let s := Session.start {} (some .descending) ()
    let operation : Operation Unit := .define (.load "A" fun _ => .load "A" fun _ => .succeed)
    (operation.marks 3 s).countP Mark.isOutermost = 2 ∧
      (operation.perform 3 s).registry.generation = 2 ∧ (operation.perform 3 s).registry.Idle := by
  intro s operation
  obtain ⟨-, -, -, -, idle, generation, -⟩ := nesting_restored 3 s operation
  have outermost : (operation.marks 3 s).countP Mark.isOutermost = 2 := by decide
  exact ⟨outermost, generation.trans (by rw [outermost]; rfl), idle.mpr ⟨rfl, rfl, rfl⟩⟩

end MibLinker
