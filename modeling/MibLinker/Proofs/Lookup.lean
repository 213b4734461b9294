import Mathlib.Logic.Function.Iterate
import MibLinker.Proofs.Resolution
import MibLinker.Proofs.States

/-!
# Looking up what is published

Requests for symbols of published modules are answered by looking the symbols up. Nothing else comes
of them, wherever they are made: neither the failures nor the load stack nor the depth limit are
asked. So a list of requests that has been answered is answered the same way again, for nothing, as
long as the modules it found are not published anew.
-/

namespace MibLinker

variable {σ : Type}

/-! ## Looking up in turn -/

namespace Registry

def lookupEach (r : Registry) : List Import → Except LinkError (List Symbol)
  | [] => .ok []
  | i :: rest =>
      match r.lookup? i with
      | none => .error (.unresolvedSymbol i.module i.symbol)
      | some symbol => (r.lookupEach rest).map (symbol :: ·)

variable {r : Registry} {imports : List Import}

theorem lookupEach_congr {r' : Registry} (same : r'.modules = r.modules) (imports : List Import) :
    r'.lookupEach imports = r.lookupEach imports := by
  have lookup : ∀ i, r'.lookup? i = r.lookup? i := by
    intro i
    rw [lookup?, module?, same, lookup?, module?]
  induction imports with
  | nil => rfl
  | cons i rest ih => rw [lookupEach, lookupEach, lookup, ih]

theorem lookupEach_eq_ok_iff {symbols : List Symbol} :
    r.lookupEach imports = .ok symbols ↔ imports.map r.lookup? = symbols.map some := by
  induction imports generalizing symbols with
  | nil => cases symbols <;> simp [lookupEach]
  | cons i rest ih =>
      cases hs : r.lookup? i with
      | none => cases symbols <;> simp [lookupEach, hs]
      | some symbol =>
          have others : r.lookupEach (i :: rest) = (r.lookupEach rest).map (symbol :: ·) := by
            simp only [lookupEach, hs]
          rw [others, List.map_cons, hs]
          cases symbols with
          | nil => cases r.lookupEach rest <;> simp [Except.map]
          | cons first later =>
              rw [List.map_cons, List.cons.injEq, ← ih]
              cases r.lookupEach rest <;> simp [Except.map]

theorem lookupEach_eq_error_iff {e : LinkError} :
    r.lookupEach imports = .error e ↔
      ∃ i, imports.find? (fun i => (r.lookup? i).isNone) = some i ∧
        e = .unresolvedSymbol i.module i.symbol := by
  induction imports with
  | nil => simp [lookupEach]
  | cons i rest ih =>
      cases hs : r.lookup? i with
      | none => simp [lookupEach, hs, eq_comm]
      | some symbol =>
          rw [List.find?_cons_of_neg (by simp [hs]), ← ih]
          simp only [lookupEach, hs]
          cases r.lookupEach rest <;> simp [Except.map]

/-- What is looked up with success is published. -/
theorem isLoaded_of_lookupEach {symbols : List Symbol} (h : r.lookupEach imports = .ok symbols)
    {i : Import} (hi : i ∈ imports) : r.isLoaded i.module = true := by
  have looked : r.lookup? i ∈ symbols.map some :=
    lookupEach_eq_ok_iff.mp h ▸ List.mem_map_of_mem hi
  obtain ⟨symbol, -, found⟩ := List.mem_map.mp looked
  obtain ⟨m, hm, -⟩ := Option.bind_eq_some_iff.mp found.symm
  exact isLoaded_iff.mpr ⟨m, hm⟩

end Registry

/-! ## Nothing but reports -/

namespace Session

/-- Whether nothing has happened since an earlier session but that requests were counted, and found
symbols reported. -/
structure OnlyReports (s t : Session σ) : Prop where
  registry : t.registry = { s.registry with generation := t.registry.generation }
  loader : t.loader = s.loader
  desk : t.desk = s.desk
  grows : s.Grows t
  reports : ∀ e ∈ t.since s, ∃ module symbol kind, e = .event (.resolved module symbol kind)

namespace OnlyReports

variable {s t u : Session σ}

theorem refl (s : Session σ) : s.OnlyReports s where
  registry := rfl
  loader := rfl
  desk := rfl
  grows := .refl s
  reports e he := by
    rw [since_eq [] rfl] at he
    exact (List.not_mem_nil he).elim

theorem trans (first : s.OnlyReports t) (second : t.OnlyReports u) : s.OnlyReports u where
  registry := by
    rw [second.registry, first.registry]
  loader := second.loader.trans first.loader
  desk := second.desk.trans first.desk
  grows := first.grows.trans second.grows
  reports e he := by
    rw [since_trans first.grows second.grows, List.mem_append] at he
    exact he.elim (second.reports e) (first.reports e)

theorem found (s : Session σ) (i : Import) (kind : String) :
    s.OnlyReports (s.log (.resolved i.module i.symbol kind)) where
  registry := rfl
  loader := rfl
  desk := rfl
  grows := grows_log s _
  reports e he := by
    rw [since_log, List.mem_singleton] at he
    exact ⟨_, _, _, he⟩

theorem frame (inside : (s.change .enter).OnlyReports t) : s.OnlyReports (t.change .leave) where
  registry := by
    change t.registry.leave = { s.registry with generation := t.registry.generation }
    rw [inside.registry]
    rfl
  loader := inside.loader
  desk := inside.desk
  grows := inside.grows
  reports := inside.reports

theorem pop {name : String} (inside : (s.change (·.push name)).OnlyReports t) :
    s.OnlyReports (t.change .pop) where
  registry := by
    change t.registry.pop = { s.registry with generation := t.registry.generation }
    rw [inside.registry]
    simp only [change, Registry.pop, Registry.push, List.dropLast_concat]
  loader := inside.loader
  desk := inside.desk
  grows := inside.grows
  reports := inside.reports

theorem modules_eq (h : s.OnlyReports t) : t.registry.modules = s.registry.modules := by
  rw [h.registry]

theorem loaderCalls_eq (h : s.OnlyReports t) (name : String) : t.loaderCalls s name = 0 := by
  refine List.countP_eq_zero.mpr fun e he called => ?_
  obtain ⟨module, symbol, kind, rfl⟩ := h.reports e he
  cases called

end OnlyReports

/-- Whether requests have been looked up. The answer is the symbol of each, or else the first that
has none, and nothing but reports has come of them. A generation begins just if they were made from
outside. -/
structure LooksUp (s : Session σ) (imports : List Import)
    (step : Except LinkError (List Symbol) × Session σ) : Prop where
  found : ∀ symbols, step.1 = .ok symbols ↔ imports.map s.registry.lookup? = symbols.map some
  missed : ∀ e, step.1 = .error e ↔
    ∃ i, imports.find? (fun i => (s.registry.lookup? i).isNone) = some i ∧
      e = .unresolvedSymbol i.module i.symbol
  onlyReports : s.OnlyReports step.2
  generation : step.2.registry.generation = s.registry.enter.generation
  uncalled : ∀ name, step.2.loaderCalls s name = 0

theorem LooksUp.of_lookupEach {s : Session σ} {imports : List Import}
    {step : Except LinkError (List Symbol) × Session σ}
    (answer : step.1 = s.registry.lookupEach imports) (reports : s.OnlyReports step.2)
    (counted : step.2.registry.generation = s.registry.enter.generation) :
    s.LooksUp imports step where
  found _ := answer ▸ Registry.lookupEach_eq_ok_iff
  missed _ := answer ▸ Registry.lookupEach_eq_error_iff
  onlyReports := reports
  generation := counted
  uncalled := reports.loaderCalls_eq

end Session

/-! ## Requests for published modules -/

namespace Linking

variable {s t : Session σ} {imports : List Import} {symbols : List Symbol}

theorem resolveEach_of_loaded (n : Nat)
    (loaded : ∀ i ∈ imports, s.registry.isLoaded i.module = true) :
    ∃ t, resolveEach (fetch n) imports s = (s.registry.lookupEach imports, t) ∧
      s.OnlyReports t := by
  induction imports generalizing s with
  | nil => exact ⟨s, rfl, .refl s⟩
  | cons i rest ih =>
      obtain ⟨m, hm⟩ := Registry.isLoaded_iff.mp (loaded i (.head _))
      have looked : s.registry.lookup? i = m.value.lookup? i.symbol := by
        rw [Registry.lookup?, hm, Option.bind_some]
      simp only [resolveEach, resolveOne, fetch_of_published n hm, Registry.lookupEach, looked]
      cases m.value.lookup? i.symbol with
      | none => exact ⟨s, rfl, .refl s⟩
      | some symbol =>
          obtain ⟨t, others, reports⟩ := ih
            (s := s.log (.resolved i.module i.symbol symbol.kindName))
            fun j hj => loaded j (.tail _ hj)
          have same : (s.log (.resolved i.module i.symbol symbol.kindName)).registry.lookupEach rest
            = s.registry.lookupEach rest := rfl
          rw [same] at others
          refine ⟨t, ?_, (Session.OnlyReports.found s i symbol.kindName).trans reports⟩
          simp only [others]
          cases s.registry.lookupEach rest <;> rfl

/-- Requests for symbols of published modules are looked up, at any depth. -/
theorem resolve_of_loaded (n : Nat)
    (loaded : ∀ i ∈ imports, s.registry.isLoaded i.module = true) :
    s.LooksUp imports (resolve (fetch n) imports s) := by
  obtain ⟨t, looked, reports⟩ := resolveEach_of_loaded n (s := s.change .enter) loaded
  have entered : (s.change .enter).registry.modules = s.registry.modules := rfl
  have steady := Session.lawful_steady.resolveEach (Session.lawful_steady.fetch n) imports
    (s.change .enter)
  rw [looked] at steady
  simp only [resolve, inFrame, looked]
  exact .of_lookupEach (Registry.lookupEach_congr entered imports) reports.frame
    (steady.generation (Nat.succ_pos _))

/-- They are looked up for a module under construction too, which may be one of those requested. -/
theorem resolveFrom_of_loaded (n : Nat) (requester : String)
    (loaded : ∀ i ∈ imports, s.registry.isLoaded i.module = true) :
    s.LooksUp imports (resolveFrom (fetch n) requester imports s) := by
  unfold resolveFrom
  split
  · exact resolve_of_loaded n loaded
  · have pushed : (s.change (·.push requester)).LooksUp imports
        (resolve (fetch n) imports (s.change (·.push requester))) := resolve_of_loaded n loaded
    exact ⟨pushed.found, pushed.missed, pushed.onlyReports.pop, pushed.generation,
      pushed.uncalled⟩

/-! ## Requests that have been answered -/

/-- Whether nothing has been published under the name of a requested module since its request was
answered. What has been found is published, so that would have been done anew. -/
def Unreplaced (fetch : Fetch σ) (imports : List Import) (inside after : Session σ) : Prop :=
  ∀ {i : Nat} {request : Import}, imports[i]? = some request →
    ∀ e ∈ after.since (reached fetch imports (i + 1) inside), e.publishes request.module = false

/-- What has been found is what looking it up gives. -/
theorem lookupEach_of_resolve {n : Nat} (h : resolve (fetch n) imports s = (.ok symbols, t))
    (unreplaced : Unreplaced (fetch n) imports (s.change .enter) t) :
    t.registry.lookupEach imports = .ok symbols := by
  have inOrder : InOrder (fetch n) imports (s.change .enter) ((Call.resolve imports).finish s)
      (resolve (fetch n) imports s) :=
    inOrder_of_finish n imports (s.change .enter) ((Call.resolve imports).keeps_finish s)
  rw [h] at inOrder
  obtain ⟨length, -, -, lookup⟩ := inOrder
  refine Registry.lookupEach_eq_ok_iff.mpr (List.ext_getElem ?_ fun i hi hs => ?_)
  · rw [List.length_map, List.length_map, length]
  · rw [List.length_map] at hi hs
    rw [List.getElem_map, List.getElem_map]
    have requested := List.getElem?_eq_getElem hi
    exact lookup requested (List.getElem?_eq_getElem hs) (unreplaced requested)

/-- Where looking up finds everything, so do all requests from then on, as often as they are made. -/
theorem again_of_lookupEach (n : Nat) (looked : s.registry.lookupEach imports = .ok symbols)
    (count : Nat) :
    let again := resolve (fetch n) imports
    let u := (fun u => (again u).2)^[count] s
    (again u).1 = .ok symbols ∧ s.OnlyReports (again u).2 := by
  have once : ∀ {u : Session σ}, s.OnlyReports u →
      (resolve (fetch n) imports u).1 = .ok symbols ∧
        s.OnlyReports (resolve (fetch n) imports u).2 := by
    intro u reports
    have there : u.registry.lookupEach imports = .ok symbols := by
      rw [Registry.lookupEach_congr reports.modules_eq, looked]
    have looksUp := resolve_of_loaded n (s := u) fun i hi => Registry.isLoaded_of_lookupEach there hi
    exact ⟨(looksUp.found symbols).mpr (Registry.lookupEach_eq_ok_iff.mp there),
      reports.trans looksUp.onlyReports⟩
  refine once ?_
  induction count with
  | zero => exact .refl s
  | succ count ih =>
      rw [Function.iterate_succ_apply']
      exact (once ih).2

end Linking

/-- Requests for symbols of published modules are looked up, wherever they are made: at any depth,
with nothing left of the allowance, and while the modules are still on the load stack. So requests
that have been answered are answered with the same symbols again, for nothing, as often as they are
made, if no module has been replaced since it was found. -/
theorem resolve_of_loaded_looksUp :
    (∀ (n : Nat) (s : Session σ) (imports : List Import),
      (∀ i ∈ imports, s.registry.isLoaded i.module = true) →
        s.LooksUp imports (Linking.resolve (Linking.fetch n) imports s) ∧
          ∀ requester,
            s.LooksUp imports (Linking.resolveFrom (Linking.fetch n) requester imports s)) ∧
    ∀ (n : Nat) (s t : Session σ) (imports : List Import) (symbols : List Symbol),
      Linking.resolve (Linking.fetch n) imports s = (.ok symbols, t) →
        Linking.Unreplaced (Linking.fetch n) imports (s.change .enter) t →
          ∀ m count : Nat,
            let again := Linking.resolve (Linking.fetch m) imports
            let u := (fun u => (again u).2)^[count] t
            (again u).1 = .ok symbols ∧ t.OnlyReports (again u).2 ∧
              ∀ name, (again u).2.loaderCalls t name = 0 := by
  refine ⟨fun n s imports loaded => ?_, fun n s t imports symbols h unreplaced m count => ?_⟩
  · exact ⟨Linking.resolve_of_loaded n loaded,
      fun requester => Linking.resolveFrom_of_loaded n requester loaded⟩
  · have looked := Linking.lookupEach_of_resolve h unreplaced
    obtain ⟨answer, reports⟩ := Linking.again_of_lookupEach m looked count
    exact ⟨answer, reports, reports.loaderCalls_eq⟩

/-- A module that is published while its load goes on, with nothing left of the allowance, after the
load of another one has failed. -/
def Session.revisited : Session Unit :=
  (((((start { maxLoadDepth := 1 } (some .watching) ()).load "X").2.change .enter).opened
    "Y").publish (.ofExports "Y" .single)).2

/-- Neither the load stack nor the limit stands in the way of its symbols, of which one is missing.
Symbols that a loader was called for are found twice more without it. -/
theorem resolve_of_loaded_looksUp_of_revisited :
    let s := Session.revisited
    let loaded := (Session.start {} (some .watching) ()).resolve [⟨"Y", "x"⟩]
    "Y" ∈ s.registry.loading ∧ s.registry.allowance = 0 ∧
      (s.resolve [⟨"Y", "x"⟩, ⟨"Y", "x"⟩]).1 = .ok [.factory .typed, .factory .typed] ∧
      (s.resolve [⟨"Y", "x"⟩, ⟨"Y", "z"⟩]).1 = .error (.unresolvedSymbol "Y" "z") ∧
      (∀ name, (s.resolve [⟨"Y", "z"⟩]).2.loaderCalls s name = 0) ∧
      loaded.2.loaderCalls (.start {} (some .watching) ()) "Y" = 1 ∧
      ((loaded.2.resolve [⟨"Y", "x"⟩]).2.resolve [⟨"Y", "x"⟩]).1 = .ok [.factory .typed] := by
  intro s loaded
  have looksUp := (resolve_of_loaded_looksUp (σ := Unit)).1 0 s
  have found := (looksUp [⟨"Y", "x"⟩, ⟨"Y", "x"⟩] (by decide)).1.found
  have missed := (looksUp [⟨"Y", "x"⟩, ⟨"Y", "z"⟩] (by decide)).1.missed
  have again := (resolve_of_loaded_looksUp (σ := Unit)).2 64 (.start {} (some .watching) ())
    loaded.2 [⟨"Y", "x"⟩] [.factory .typed] rfl (by
      rintro (- | i) request requested
      · obtain rfl := Option.some.inj requested
        decide
      · cases requested) 64 1
  exact ⟨by decide, by decide, (found _).mpr (by decide),
    (missed _).mpr ⟨⟨"Y", "z"⟩, by decide, rfl⟩,
    (looksUp [⟨"Y", "z"⟩] (by decide)).1.uncalled, by decide, again.1⟩

end MibLinker
