import Mathlib.Data.List.Nodup
import MibLinker.Proofs.Paths
import MibLinker.Proofs.Plan.Failure
import MibLinker.Proofs.Retry

/-!
# What errors blame

The error of a load that fails names a defect of the table of plans, and one that stands in the way
of the module that was asked for.
-/

namespace MibLinker.Plans

variable {σ : Type} {P : Plans σ} {s t : Session σ} {name : String} {n : Nat}

/-! ## What an error blames -/

/-- Whether an error names a defect of a table that stands in the way of a module. A registry tells
the exports, which the table does not. -/
inductive Defect (P : Plans σ) (r : Registry) (name : String) : LinkError → Prop
  | undefined {m} : m ∉ P → (m = name ∨ ∃ other, P.Reaches name other ∧ P.Needs other m) →
      Defect P r name (.moduleNotFound m)
  | missing {other p i m} : P.Reaches name other → P[other]? = some p → i ∈ p.imports →
      i.module ∈ P → r.module? i.module = some m → i.symbol ∉ m.value.exports →
      Defect P r name (.unresolvedSymbol i.module i.symbol)
  | cycle {path} : Circuit P.Needs path → (∀ other ∈ path, P.Reaches name other) →
      Defect P r name (.circularDependency path)

/-- The load stack is a path of imports from the module that was asked for, so the error at its end
is about modules that this one reaches. -/
theorem defect_of_loadFails {stack roots : List String} {e : LinkError} {root : String}
    (layered : t.Layered P.discipline)
    (h : LoadFails P.imports? (fun other => t.registry.isLoaded other = true) t.Finds stack name e
      roots)
    (nodup : stack.Nodup) (chain : (stack ++ [name]).IsChain P.Needs)
    (reached : ∀ other ∈ stack ++ [name], P.Reaches root other) :
    P.Defect t.registry root e := by
  induction h with
  | @cycle stack name stacked =>
      apply Defect.cycle (.of_stack nodup chain stacked)
      intro other ho
      rcases List.mem_append.mp ho with ho | ho
      · exact reached other (List.mem_append_left _ ((List.dropWhile_suffix _).subset ho))
      · exact reached other (List.mem_append_right _ ho)
  | @undefined stack name _ unplanned =>
      have asked : P.Reaches root name := reached name (by simp)
      apply Defect.undefined
      · intro defined
        obtain ⟨p, hp⟩ := NameMap.mem_iff.mp defined
        simp [imports?, hp] at unplanned
      · exact asked.cases_tail
  | @missing stack name before i rest _ imports _ published unfound =>
      obtain ⟨p, hp, split⟩ := Option.map_eq_some_iff.mp imports
      obtain ⟨m, hm⟩ := Registry.isLoaded_iff.mp published
      obtain ⟨p', hp', _⟩ := layered.made hm
      apply Defect.missing (reached name (by simp)) hp (by simp [split])
        (NameMap.mem_iff.mpr ⟨p', hp'⟩) hm
      intro exported
      exact unfound ⟨m, hm, NameMap.mem_iff.mp exported⟩
  | @inside stack name before i rest e roots offStack imports _ _ _ ih =>
      obtain ⟨p, hp, split⟩ := Option.map_eq_some_iff.mp imports
      have needs : P.Needs name i.module := needs_of_import hp (by simp [split])
      apply ih
      · rw [← List.concat_eq_append]
        exact List.Nodup.concat offStack nodup
      · rw [List.append_assoc]
        exact List.isChain_append_cons_cons.mpr ⟨chain, needs, .singleton _⟩
      · intro other ho
        rcases List.mem_append.mp ho with ho | ho
        · exact reached other ho
        · rw [List.mem_singleton.mp ho]
          exact (reached name (by simp)).tail needs

/-! ## Loads from outside -/

structure Resting (P : Plans σ) (s : Session σ) : Prop where
  layered : s.Layered P.discipline
  loader : s.loader = some P.loader
  dated : s.registry.Dated
  idle : s.registry.Idle

namespace Resting

theorem start (P : Plans σ) (options : Options) (data : σ) :
    P.Resting (.start options (some P.loader) data) where
  layered := by
    apply Session.Layered.start
    intro l hl
    obtain rfl := Option.some.inj hl
    exact P.follows_loader
  loader := rfl
  dated := Session.dated_start options (some P.loader) data
  idle := ⟨rfl, rfl, rfl⟩

theorem afterAll (resting : P.Resting s) (history : List Call) :
    P.Resting (s.afterAll (history.map .call)) where
  layered := (resting.layered.afterAll history).layered
  loader := (resting.layered.afterAll history).loader.trans resting.loader
  dated := lawful_dated.afterAll s _ resting.dated
  idle := by
    obtain ⟨stack, depth, active⟩ := resting.idle
    have steady := Session.lawful_steady.afterAll s (history.map .call)
    exact ⟨steady.loading.trans stack, steady.depth.trans depth, steady.activeLoads.trans active⟩

theorem ready (resting : P.Resting s) (room : P.size < n) : P.Ready n (s.change .enter) := by
  obtain ⟨empty, outside, _⟩ := resting.idle
  have stack : (s.change .enter).registry.loading = [] := empty
  have calm : P.Calm (s.change .enter) :=
    ⟨resting.layered.of_same ⟨rfl, rfl, rfl, rfl⟩, resting.loader, Nat.succ_pos _,
      resting.dated.freshFailure?_enter outside⟩
  refine ⟨calm, ?_, ?_, ?_⟩ <;> rw [stack]
  · exact fun other ho => (List.not_mem_nil ho).elim
  · exact List.nodup_nil
  · exact room

/-- A load that fails is remembered with its error. -/
theorem failed_of_load (resting : P.Resting s) (room : P.size < s.registry.options.maxLoadDepth)
    {e : LinkError} (h : (s.load name).1 = .error e) :
    (∃ roots, P.Failed s name e roots (s.load name).2) ∧
      (s.load name).2.registry.lastFailure? name = some e := by
  have fetch : s.fetch = Linking.fetch s.registry.options.maxLoadDepth := by
    rw [Session.fetch, resting.idle.allowance_eq]
  obtain ⟨k, hk⟩ := Nat.exists_eq_succ_of_ne_zero (Nat.ne_zero_of_lt room)
  rw [hk] at room
  have ready := resting.ready room
  have loaded : s.load name = Linking.load (Linking.fetch (k + 1)) name s := by
    rw [Session.load, fetch, hk]
  rw [loaded] at h ⊢
  have fetched : Linking.fetch (k + 1) name (s.change .enter) = (.error e, _) := Prod.ext h rfl
  obtain ⟨roots, failed⟩ := fetch_failed ready fetched
  refine ⟨⟨roots, failed.fails, failed.published⟩, ?_⟩
  rcases ready.calm.cycle_or_vacant fetched with ⟨stacked, _⟩ | ⟨_, attempted⟩
  · have empty : (s.change .enter).registry.loading = [] := resting.idle.1
    simp [empty] at stacked
  · have remembered := Linking.lastFailure?_of_attempt attempted
    exact remembered

end Resting

/-- If a load fails, its error names a defect of the table that stands in the way of the module: one
that it reaches has no plan, imports what is not exported, or is on a cycle of imports. There are no
other errors, whatever was loaded and resolved before, and this one is remembered. -/
theorem load_error_names_defect (P : Plans σ) (options : Options) (data : σ) (history : List Call)
    (room : P.size < options.maxLoadDepth) (name : String) (e : LinkError) :
    let s := (Session.start options (some P.loader) data).afterAll (history.map .call)
    let t := (s.load name).2
    (s.load name).1 = .error e →
      P.Defect t.registry name e ∧ t.registry.lastFailure? name = some e := by
  intro s t h
  have resting : P.Resting s := (Resting.start P options data).afterAll history
  have limit : s.registry.options = options :=
    (Session.idle_afterAll options (some P.loader) data (history.map .call)).2
  obtain ⟨⟨roots, failed⟩, remembered⟩ := resting.failed_of_load (limit ▸ room) h
  have layered : t.Layered P.discipline := (resting.layered.load _ name).layered
  have stack : s.registry.loading = [] := resting.idle.1
  have fails := failed.fails
  rw [stack] at fails
  refine ⟨defect_of_loadFails layered fails List.nodup_nil (.singleton name) ?_, remembered⟩
  intro other ho
  rw [List.mem_singleton.mp ho]

def faulty : Plans Unit :=
  let importing (imports : List Import) : Plan Unit := ⟨imports, fun _ => pure .single⟩
  (((((∅ : Plans Unit).insert "A" (importing [⟨"B", "x"⟩])).insert "B"
    (importing [⟨"C", "x"⟩, ⟨"A", "x"⟩])).insert "C" (importing [])).insert "D"
    (importing [⟨"C", "y"⟩])).insert "E" (importing [⟨"C", "x"⟩, ⟨"F", "x"⟩])

/-- The load of one module meets the cycle after those of two others have met other defects. -/
theorem load_error_names_defect_of_faulty :
    let s := (Session.start {} (some faulty.loader) ()).afterAll
      [.call (.load "D"), .call (.resolve [⟨"E", "x"⟩])]
    s.registry.lastFailure? "D" = some (.unresolvedSymbol "C" "y") ∧
      s.registry.lastFailure? "E" = some (.moduleNotFound "F") ∧
      Circuit faulty.Needs ["A", "B", "A"] ∧
      (s.load "A").2.registry.lastFailure? "A" = some (.circularDependency ["A", "B", "A"]) := by
  intro s
  obtain ⟨defect, remembered⟩ := load_error_names_defect faulty {} ()
    [.load "D", .resolve [⟨"E", "x"⟩]] (by decide) "A" (.circularDependency ["A", "B", "A"]) rfl
  refine ⟨by decide, by decide, ?_, remembered⟩
  cases defect with
  | cycle circuit _ => exact circuit

end MibLinker.Plans
