import MibLinker.Registry.Linking

/-!
# Composite scripts

A script made of several requests does what the request of the same name does at once: running two
scripts one after the other (`run_andThen`), building a module (`run_build`), loading modules in
turn (`run_loadAll`).
-/

namespace MibLinker.Linking

variable {σ α : Type}

theorem run_andThen (fetch : Fetch σ) (first : Script σ)
    (next : Except LinkError Unit → Script σ) (s : Session σ) :
    run fetch (first.andThen next) s =
      run fetch (next (run fetch first s).1) (run fetch first s).2 := by
  induction first generalizing s with
  | done result => rfl
  | resolve imports k ih => exact ih _ _
  | resolveFrom requester imports k ih => exact ih _ _
  | load name k ih => exact ih _ _
  | publish m k ih => exact ih _ _
  | replaceLoader offers definition k _ ih => exact ih _
  | work change k ih => exact ih _ _

theorem run_perform (fetch : Fetch σ) (task : StateM (Desk σ) α) (next : α → Script σ)
    (s : Session σ) :
    run fetch (Script.perform task next) s =
      run fetch (next (task s.desk).1) (s.withDesk (task s.desk).2) := rfl

theorem run_build (fetch : Fetch σ) (b : Builder) (body : Body σ)
    (next : Except LinkError (Shared Module) → Script σ) (s : Session σ) :
    run fetch (Script.build b body next) s =
      run fetch (next (build fetch b body s).1) (build fetch b body s).2 := by
  simp only [Script.build, run, build]
  rcases resolveFrom fetch b.name b.imports s with ⟨e | symbols, t⟩
  · rfl
  · simp only [run_perform]
    rcases (body (b.resolved symbols)).run t.desk with ⟨e | exports, desk⟩ <;> rfl

theorem run_loadAll (fetch : Fetch σ) (names : List String)
    (next : Except LinkError Unit → Script σ) (s : Session σ) :
    run fetch (Script.loadAll names next) s =
      run fetch (next (loadAll fetch names s).1) (loadAll fetch names s).2 := by
  induction names generalizing s with
  | nil => rfl
  | cons name rest ih =>
      simp only [Script.loadAll, run, loadAll]
      rcases load fetch name s with ⟨e | m, t⟩
      · rfl
      · exact ih t

end MibLinker.Linking
