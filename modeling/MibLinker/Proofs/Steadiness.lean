import MibLinker.Proofs.Moment

/-!
# What a request restores

Every name that goes on the load stack comes off it, every frame that is entered is left, and every
loader call that begins ends. So after a request the nesting is what it was before, and the number of
the generation is too, when the request was made inside another. The allowance that is handed down
from call to call is therefore always the one that the tables tell.
-/

namespace MibLinker

variable {σ : Type}

namespace Session

structure Steady (earlier later : Session σ) : Prop where
  loading : later.registry.loading = earlier.registry.loading
  depth : later.registry.depth = earlier.registry.depth
  activeLoads : later.registry.activeLoads = earlier.registry.activeLoads
  options : later.registry.options = earlier.registry.options
  generation : 0 < earlier.registry.depth →
    later.registry.generation = earlier.registry.generation

theorem Steady.refl (s : Session σ) : s.Steady s := ⟨rfl, rfl, rfl, rfl, fun _ => rfl⟩

theorem Steady.trans {s t u : Session σ} (first : s.Steady t) (second : t.Steady u) :
    s.Steady u where
  loading := second.loading.trans first.loading
  depth := second.depth.trans first.depth
  activeLoads := second.activeLoads.trans first.activeLoads
  options := second.options.trans first.options
  generation inside := by
    have inside' : 0 < t.registry.depth := first.depth ▸ inside
    exact (second.generation inside').trans (first.generation inside)

theorem Steady.allowance_eq {s t : Session σ} (h : s.Steady t) :
    t.registry.allowance = s.registry.allowance := by
  rw [Registry.allowance, h.options, h.activeLoads, Registry.allowance]

theorem steady_discard (s : Session σ) (name : String) : s.Steady (s.discard name) := by
  unfold discard
  split
  · exact ⟨rfl, rfl, rfl, rfl, fun _ => rfl⟩
  · exact .refl s

theorem generation_enter {s : Session σ} (inside : 0 < s.registry.depth) :
    (s.change .enter).registry.generation = s.registry.generation := by
  change (if s.registry.depth = 0 then _ else _) = _
  rw [if_neg (by omega)]

theorem Steady.frame {s t : Session σ} (inside : (s.change .enter).Steady t) :
    s.Steady (t.change .leave) where
  loading := inside.loading
  depth := by
    have hd : t.registry.depth = s.registry.depth + 1 := inside.depth
    change t.registry.depth - 1 = s.registry.depth
    omega
  activeLoads := inside.activeLoads
  options := inside.options
  generation hs := (inside.generation (Nat.succ_pos _)).trans (generation_enter hs)

/-- The name that comes off the load stack is the one that went on it. -/
theorem Steady.pop {s t : Session σ} {name : String}
    (inside : (s.change (·.push name)).Steady t) : s.Steady (t.change .pop) where
  loading := by
    have hl : t.registry.loading = s.registry.loading ++ [name] := inside.loading
    change t.registry.loading.dropLast = s.registry.loading
    rw [hl, List.dropLast_concat]
  depth := inside.depth
  activeLoads := inside.activeLoads
  options := inside.options
  generation := inside.generation

theorem Steady.closed {s t : Session σ} {name : String} (inside : (s.opened name).Steady t) :
    s.Steady t.closed where
  loading := by
    have hl : t.registry.loading = s.registry.loading ++ [name] := inside.loading
    change t.registry.loading.dropLast = s.registry.loading
    rw [hl, List.dropLast_concat]
  depth := inside.depth
  activeLoads := by
    have ha : t.registry.activeLoads = s.registry.activeLoads + 1 := inside.activeLoads
    change t.registry.activeLoads - 1 = s.registry.activeLoads
    omega
  options := inside.options
  generation := inside.generation

theorem lawful_steady : Lawful (Steady (σ := σ)) where
  refl := .refl
  trans := .trans
  find _ _ _ _ := ⟨rfl, rfl, rfl, rfl, fun _ => rfl⟩
  frame := .frame
  construct _ := .pop
  publish _ _ := ⟨rfl, rfl, rfl, rfl, fun _ => rfl⟩
  replace _ _ := ⟨rfl, rfl, rfl, rfl, fun _ => rfl⟩
  desk _ _ := ⟨rfl, rfl, rfl, rfl, fun _ => rfl⟩
  absent _ _ := ⟨rfl, rfl, rfl, rfl, fun _ => rfl⟩
  failed _ _ inside :=
    (inside.closed.trans (steady_discard _ _)).trans ⟨rfl, rfl, rfl, rfl, fun _ => rfl⟩
  loaded _ inside _ := inside.closed.trans ⟨rfl, rfl, rfl, rfl, fun _ => rfl⟩

/-- Between requests from outside, a registry is idle and keeps its options. -/
theorem idle_afterAll (options : Options) (loader : Option (Loader σ)) (data : σ)
    (operations : List (Operation σ)) :
    ((start options loader data).afterAll operations).registry.Idle ∧
      ((start options loader data).afterAll operations).registry.options = options := by
  have steady := lawful_steady.afterAll (start options loader data) operations
  exact ⟨⟨steady.loading, steady.depth, steady.activeLoads⟩, steady.options⟩

end Session

theorem Registry.Idle.allowance_eq {r : Registry} (idle : r.Idle) :
    r.allowance = r.options.maxLoadDepth := by
  obtain ⟨_, _, active⟩ := idle
  rw [Registry.allowance, active, Nat.sub_zero]

def Allows (allowance : Nat) (s : Session σ) : Prop :=
  allowance + s.registry.activeLoads = s.registry.options.maxLoadDepth

theorem Allows.of_steady {allowance : Nat} {s t : Session σ} (h : s.Steady t)
    (allows : Allows allowance s) : Allows allowance t := by
  rw [Allows, h.activeLoads, h.options]
  exact allows

theorem Allows.allowance_eq {allowance : Nat} {s : Session σ} (h : Allows allowance s) :
    s.registry.allowance = allowance := by
  rw [Registry.allowance, ← h, Nat.add_sub_cancel]

/-- The allowance agrees with the tables at every moment of a run that it agrees with at the start
of. -/
theorem Within.allows {m m' : Moment σ} (h : Within m m')
    (allows : Allows m.allowance m.session) : Allows m'.allowance m'.session := by
  refine Within.preserves (P := Allows) Session.lawful_steady Allows.of_steady (fun h => h)
    (fun _ h => h) ?_ h allows
  intro n s name _ h
  have before : n + 1 + s.registry.activeLoads = s.registry.options.maxLoadDepth := h
  change n + (s.registry.activeLoads + 1) = s.registry.options.maxLoadDepth
  omega

theorem Observable.allows {s : Session σ} (h : Observable s) : Allows s.registry.allowance s := by
  obtain ⟨options, loader, data, script, m, hm, rfl⟩ := h
  have allows : Allows m.allowance m.session := hm.allows rfl
  rw [allows.allowance_eq]
  exact allows

/-! ## Operations as scripts -/

/-- The script that does what an operation does, before another script, where these modules are to
be loaded ahead. -/
def Operation.script (ahead : List String) (next : Script σ) : Operation σ → Script σ
  | call (.resolve imports) => .resolve imports fun _ => next
  | call (.resolveFrom requester imports) => .resolveFrom requester imports fun _ => next
  | call (.load name) => .load name fun _ => next
  | preload => .loadAll ahead fun _ => next
  | publish m => .publish m fun _ => next
  | build b body => .build b body fun _ => next
  | setLoader loader => .setLoader loader next
  | define script => script.andThen fun _ => next

theorem Operation.run_script (allowance : Nat) (s : Session σ) (operation : Operation σ)
    (next : Script σ) :
    Linking.run (Linking.fetch allowance) (operation.script s.registry.options.preload next) s =
      Linking.run (Linking.fetch allowance) next (operation.perform allowance s) := by
  cases operation with
  | call c => cases c <;> rfl
  | preload => exact Linking.run_loadAll ..
  | publish m => rfl
  | build b body => exact Linking.run_build _ b body (fun _ => next) s
  | setLoader loader => rfl
  | define script => exact Linking.run_andThen ..

theorem run_scripts (s : Session σ) (operations : List (Operation σ)) :
    (s.run (operations.foldr (fun operation next =>
      operation.script s.registry.options.preload next) .succeed)).2 = s.afterAll operations := by
  induction operations generalizing s with
  | nil => rfl
  | cons operation rest ih =>
      have steady := Session.lawful_steady.operation s.registry.allowance s operation
      have later := ih (operation.perform s.registry.allowance s)
      rw [Session.run, Session.fetch, steady.allowance_eq, steady.options] at later
      rw [List.foldr_cons, Session.run, Session.fetch, Operation.run_script, later]
      rfl

/-- A client may come to see what operations in turn leave. -/
theorem observable_afterAll (options : Options) (loader : Option (Loader σ)) (data : σ)
    (operations : List (Operation σ)) :
    Observable ((Session.start options loader data).afterAll operations) := by
  rw [← run_scripts]
  exact observable_run options loader data _

end MibLinker
