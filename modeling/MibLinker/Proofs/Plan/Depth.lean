import MibLinker.Proofs.Plan.Basic
import MibLinker.Proofs.States

/-!
# How deep loads may nest

Modules in a row, each of which imports from the next one, are loaded one inside the other, down to
the first that is published. Each loader call takes one of the allowance, so a row is loaded just if
no more of it is missing than the limit. Otherwise the load ends at the module for which nothing is
left. That one is not attempted, and every attempt above it fails with the same error.
-/

namespace MibLinker

variable {σ : Type}

theorem Registry.lastFailure?_recordFailure (r : Registry) (failed : String) (e : LinkError)
    (name : String) : (r.recordFailure failed e).lastFailure? name =
      if failed = name then some e else r.lastFailure? name := by
  rw [lastFailure?, failures_recordFailure]
  split <;> rfl

theorem Registry.not_mem_loading_push {r : Registry} {name other : String}
    (h : other ∉ r.loading) (different : other ≠ name) : other ∉ (r.push name).loading := by
  intro stacked
  rcases List.mem_append.mp stacked with before | last
  · exact h before
  · exact different (List.mem_singleton.mp last)

/-! ## Modules in a row -/

/-- Whether a plan imports a symbol from the next module, if there is one, and always exports a
symbol of that name itself. -/
structure Plan.Passes (p : Plan σ) (symbol : String) (next : Option String) : Prop where
  imports : p.imports = (next.map fun module => ⟨module, symbol⟩).toList
  exports : ∀ imported desk, symbol ∈ (p.body imported desk).1

/-- Whether modules are planned in a row, each of which passes a symbol on from the next one. -/
def Plans.Row (P : Plans σ) (symbol : String) : List String → Prop
  | [] => True
  | name :: rest => (∃ p, P[name]? = some p ∧ p.Passes symbol rest.head?) ∧ P.Row symbol rest

namespace Session

/-- Whether a registry can load modules in a row, the upper ones of which are vacant, and the lower
ones published. -/
structure Poised (s : Session σ) (P : Plans σ) (symbol : String) (upper lower : List String) :
    Prop where
  loader : s.loader = some P.loader
  row : P.Row symbol (upper ++ lower)
  distinct : upper.Nodup
  unpublished : ∀ name ∈ upper, s.registry.module? name = none
  unfailed : ∀ name ∈ upper, s.registry.failures[name]? = none
  offStack : ∀ name ∈ upper, name ∉ s.registry.loading
  published : ∀ name ∈ lower, ∃ m, s.registry.module? name = some m ∧ symbol ∈ m.value.exports

/-- What a failed request leaves when some attempts have failed with its error, and nothing has been
published. -/
structure Foundered (s : Session σ) (failed : List String) (e : LinkError) (t : Session σ) :
    Prop where
  modules : t.registry.modules = s.registry.modules
  lastFailure? : ∀ name, t.registry.lastFailure? name =
    if name ∈ failed then some e else s.registry.lastFailure? name

/-- One more attempt fails around the others. -/
theorem Foundered.recordFailure {s t : Session σ} {failed : List String} {e : LinkError}
    (h : s.Foundered failed e t) {name : String} (other : String) :
    (t.recordFailure name e).registry.lastFailure? other =
      if other ∈ name :: failed then some e else s.registry.lastFailure? other := by
  refine (t.registry.lastFailure?_recordFailure name e other).trans ?_
  by_cases ho : name = other
  · simp [ho]
  · have different : ¬ other = name := fun heq => ho heq.symm
    simp only [if_neg ho, h.lastFailure?, List.mem_cons, different, false_or]

namespace Poised

variable {P : Plans σ} {s : Session σ} {symbol name : String} {upper lower : List String}

theorem entered (poised : s.Poised P symbol upper lower) :
    (s.change .enter).Poised P symbol upper lower :=
  ⟨poised.loader, poised.row, poised.distinct, poised.unpublished, poised.unfailed, poised.offStack,
    poised.published⟩

theorem vacant (poised : s.Poised P symbol upper lower) (hn : name ∈ upper) : s.Vacant name where
  unpublished := poised.unpublished name hn
  unfailed := by rw [Registry.freshFailure?, poised.unfailed name hn]
  offStack := poised.offStack name hn

/-- The script of the first module of a row finds the rest of it as the first one was found. -/
theorem opened (poised : s.Poised P symbol (name :: upper) lower) :
    ((s.opened name).change .enter).Poised P symbol upper lower where
  loader := poised.loader
  row := poised.row.2
  distinct := (List.nodup_cons.mp poised.distinct).2
  unpublished other ho := poised.unpublished other (.tail _ ho)
  unfailed other ho := poised.unfailed other (.tail _ ho)
  offStack other ho := by
    refine Registry.not_mem_loading_push (poised.offStack other (.tail _ ho)) ?_
    rintro rfl
    exact (List.nodup_cons.mp poised.distinct).1 ho
  published := poised.published

end Poised

end Session

/-! ## Down the row -/

namespace Linking

variable {P : Plans σ} {s : Session σ} {symbol name : String} {upper lower : List String} {n : Nat}

/-- A symbol is found if the fetched module exports it. -/
theorem resolveEach_of_fetch {fetch : Fetch σ} {t : Session σ} {m : Shared Module}
    (fetched : fetch name s = (.ok m, t)) (exported : symbol ∈ m.value.exports) :
    ∃ symbols u, resolveEach fetch [⟨name, symbol⟩] s = (.ok symbols, u) := by
  obtain ⟨found, hs⟩ := NameMap.mem_iff.mp exported
  simp only [resolveEach, resolveOne, fetched, Module.lookup?, hs]
  exact ⟨_, _, rfl⟩

/-- With an allowance for all that is missing of a row, the row is loaded. -/
theorem fetch_of_room (poised : s.Poised P symbol upper lower) (room : upper.length ≤ n)
    (hn : (upper ++ lower).head? = some name) :
    ∃ m t, fetch n name s = (.ok m, t) ∧ symbol ∈ m.value.exports := by
  induction upper generalizing n s name with
  | nil =>
      obtain ⟨m, hm, exported⟩ := poised.published name (List.mem_of_mem_head? hn)
      exact ⟨m, s, fetch_of_published n hm, exported⟩
  | cons first rest ih =>
      obtain rfl : first = name := Option.some.inj hn
      cases n with
      | zero => exact (Nat.not_succ_le_zero _ room).elim
      | succ n =>
          obtain ⟨p, hp, passes⟩ := poised.row.1
          have attempted := attempt_of_plan (fetch n) poised.loader hp
          rw [fetch, fetchBy_of_vacant _ (poised.vacant (.head _)), attempted, passes.imports]
          cases next : (rest ++ lower).head? with
          | none => exact ⟨_, _, rfl, passes.exports _ _⟩
          | some module =>
              obtain ⟨m, t, fetched, exported⟩ := ih poised.opened (Nat.le_of_succ_le_succ room) next
              obtain ⟨symbols, u, found⟩ := resolveEach_of_fetch fetched exported
              simp only [Option.map_some, Option.toList_some, found]
              exact ⟨_, _, rfl, passes.exports _ _⟩

/-- With a smaller allowance the load ends at the first module that it is not enough for, and fails
all the way up. -/
theorem fetch_of_shallow {module : String} (poised : s.Poised P symbol upper lower)
    (deep : upper[n]? = some module) (hn : (upper ++ lower).head? = some name) :
    let e := LinkError.loadDepthExceeded module s.registry.options.maxLoadDepth
    ∃ t, fetch n name s = (.error e, t) ∧ s.Foundered (upper.take n) e t := by
  induction n generalizing upper s name with
  | zero =>
      cases upper with
      | nil => cases deep
      | cons first rest =>
          obtain rfl : first = name := Option.some.inj hn
          obtain rfl : first = module := Option.some.inj deep
          refine ⟨s, ?_, rfl, fun _ => rfl⟩
          rw [fetch, fetchBy_of_vacant _ (poised.vacant (.head _))]
          rfl
  | succ n ih =>
      rcases upper with _ | ⟨first, _ | ⟨next, rest⟩⟩
      · cases deep
      · cases deep
      · obtain rfl : first = name := Option.some.inj hn
        have vacant := poised.vacant (.head _)
        obtain ⟨p, hp, passes⟩ := poised.row.1
        have imports : p.imports = [⟨next, symbol⟩] := passes.imports
        have attempted := attempt_of_plan (fetch n) poised.loader hp
        obtain ⟨t, fetched, foundered⟩ := ih poised.opened deep rfl
        rw [fetch, fetchBy_of_vacant _ vacant, attempted, imports]
        simp only [resolveEach, resolveOne, fetched]
        refine ⟨_, rfl, ?_⟩
        have unpublished : (t.change .leave).closed.registry.module? first = none := by
          show t.registry.modules[first]? = none
          rw [foundered.modules]
          exact vacant.unpublished
        rw [Session.discard_of_unpublished unpublished]
        exact ⟨foundered.modules, foundered.recordFailure⟩

/-- A request for the first symbol of a row is answered if the allowance is enough for all that is
missing. -/
theorem resolve_of_room (poised : s.Poised P symbol upper lower) (room : upper.length ≤ n)
    (hn : (upper ++ lower).head? = some name) :
    ∃ symbols, (resolve (fetch n) [⟨name, symbol⟩] s).1 = .ok symbols := by
  obtain ⟨m, t, fetched, exported⟩ := fetch_of_room poised.entered room hn
  obtain ⟨symbols, u, found⟩ := resolveEach_of_fetch fetched exported
  exact ⟨symbols, congrArg Prod.fst found⟩

theorem resolve_of_shallow {module : String} (poised : s.Poised P symbol upper lower)
    (deep : upper[n]? = some module) (hn : (upper ++ lower).head? = some name) :
    let e := LinkError.loadDepthExceeded module s.registry.options.maxLoadDepth
    (resolve (fetch n) [⟨name, symbol⟩] s).1 = .error e ∧
      s.Foundered (upper.take n) e (resolve (fetch n) [⟨name, symbol⟩] s).2 := by
  obtain ⟨t, fetched, foundered⟩ := fetch_of_shallow poised.entered deep hn
  simp only [resolve, inFrame, resolveEach, resolveOne, fetched]
  exact ⟨rfl, foundered.modules, foundered.lastFailure?⟩

/-! A build finds its imports first. -/

theorem resolveFrom_of_offStack {requester : String} (fetch : Fetch σ) (imports : List Import)
    (offStack : requester ∉ s.registry.loading) :
    resolveFrom fetch requester imports s =
      let step := resolve fetch imports (s.change (·.push requester))
      (step.1, step.2.change .pop) := if_neg offStack

theorem build_of_refused {fetch : Fetch σ} {b : Builder} (body : Body σ) {t : Session σ}
    {e : LinkError} (refused : resolveFrom fetch b.name b.imports s = (.error e, t)) :
    build fetch b body s = (.error e, t) := by
  simp only [build, refused]

/-- A build succeeds with a body that never fails. -/
theorem build_of_found {fetch : Fetch σ} {b : Builder} {body : Body σ} {symbols : List Symbol}
    (works : ∀ imported desk, ∃ exports, ((body imported).run desk).1 = .ok exports)
    (found : (resolveFrom fetch b.name b.imports s).1 = .ok symbols) :
    ∃ m, (build fetch b body s).1 = .ok m := by
  rcases build_cases fetch b body s with
    ⟨e, t, hr, -⟩ | ⟨found', t, -, ⟨e, desk, failed, -⟩ | ⟨exports, desk, -, hb⟩⟩
  · cases found.symm.trans (congrArg Prod.fst hr)
  · obtain ⟨exports, made⟩ := works (b.resolved found') t.desk
    cases made.symm.trans (congrArg Prod.fst failed)
  · exact ⟨_, congrArg Prod.fst hb⟩

end Linking

/-! ## Requests from outside -/

namespace Session

/-- Whether no request is being made to a registry whose loader has plans in a row, of which just the
modules from number `k` on are published, and no other; nothing has failed. -/
structure AtRow (s : Session σ) (P : Plans σ) (symbol : String) (names : List String) (k : Nat) :
    Prop where
  loader : s.loader = some P.loader
  row : P.Row symbol names
  distinct : names.Nodup
  idle : s.registry.Idle
  unfailed : ∀ name, s.registry.lastFailure? name = none
  published : ∀ name, s.registry.isLoaded name = true ↔ name ∈ names.drop k
  exported : ∀ {name m}, s.registry.module? name = some m → symbol ∈ m.value.exports

/-- Whether a request has ended at the depth limit. Of the first `k` modules of a row, which have not
been published, those above the limit have failed with the error of the request, and the others have
not been tried. Nothing has been published. -/
structure EndedAt (s : Session σ) (names : List String) (k : Nat) (e : LinkError) (t : Session σ) :
    Prop where
  failed : ∀ {i name}, names[i]? = some name → i < s.registry.options.maxLoadDepth →
    t.registry.state name = .failed ∧ t.registry.lastFailure? name = some e
  untried : ∀ {i name}, names[i]? = some name → s.registry.options.maxLoadDepth ≤ i → i < k →
    t.registry.state name = .unloaded
  unpublished : t.registry.modules = s.registry.modules

/-- Whether a request for the first module of a row, of which `k` have not been published, has the
answer that the depth limit allows: it succeeds just if no more than that are missing, and otherwise
the error names the first one beyond the limit. -/
structure Limited {α : Type} (s : Session σ) (names : List String) (k : Nat)
    (step : Except LinkError α × Session σ) : Prop where
  succeeds : (∃ answer, step.1 = .ok answer) ↔ k ≤ s.registry.options.maxLoadDepth
  exceeded : s.registry.options.maxLoadDepth < k →
    ∃ module, names[s.registry.options.maxLoadDepth]? = some module ∧
      step.1 = .error (.loadDepthExceeded module s.registry.options.maxLoadDepth) ∧
      s.EndedAt names k (.loadDepthExceeded module s.registry.options.maxLoadDepth) step.2

variable {P : Plans σ} {s : Session σ} {symbol : String} {names : List String} {k : Nat}

theorem AtRow.unpublished (h : s.AtRow P symbol names k) {name : String}
    (hn : name ∈ names.take k) : s.registry.isLoaded name = false := by
  rw [← Bool.not_eq_true, h.published]
  exact List.disjoint_take_drop h.distinct (Nat.le_refl k) hn

theorem AtRow.poised (h : s.AtRow P symbol names k) :
    s.Poised P symbol (names.take k) (names.drop k) where
  loader := h.loader
  row := by
    rw [List.take_append_drop]
    exact h.row
  distinct := h.distinct.sublist (List.take_sublist k names)
  unpublished name hn := Registry.isLoaded_eq_false_iff.mp (h.unpublished hn)
  unfailed name _ := Option.map_eq_none_iff.mp (h.unfailed name)
  offStack name _ := by
    rw [h.idle.1]
    exact List.not_mem_nil
  published name hn := by
    obtain ⟨m, hm⟩ := Registry.isLoaded_iff.mp ((h.published name).mpr hn)
    exact ⟨m, hm, h.exported hm⟩

/-- The row is still there for a module under construction that is not of the row. -/
theorem AtRow.poised_for (h : s.AtRow P symbol names k) {requester : String}
    (other : requester ∉ names) :
    (s.change (·.push requester)).Poised P symbol (names.take k) (names.drop k) :=
  { h.poised with
    offStack := fun name hn => by
      refine Registry.not_mem_loading_push (h.poised.offStack name hn) ?_
      rintro rfl
      exact other (List.mem_of_mem_take hn) }

/-- Where attempts have failed and the nesting is as before, each module of the row is in the state
that its place tells. -/
theorem AtRow.endedAt (h : s.AtRow P symbol names k) {t : Session σ} {e : LinkError}
    (beyond : s.registry.options.maxLoadDepth < k)
    (foundered : s.Foundered ((names.take k).take s.registry.options.maxLoadDepth) e t)
    (steady : s.Steady t) : s.EndedAt names k e t := by
  rw [List.take_take, Nat.min_eq_left (Nat.le_of_lt beyond)] at foundered
  have missing : ∀ {i name}, names[i]? = some name → i < k →
      t.registry.isLoaded name = false := by
    intro i name hi within
    rw [Registry.isLoaded, foundered.modules]
    exact h.unpublished (List.mem_of_getElem? ((List.getElem?_take_of_lt within).trans hi))
  have offStack : ∀ name, name ∉ t.registry.loading := by
    rw [steady.loading, h.idle.1]
    exact fun _ => List.not_mem_nil
  refine ⟨fun {i name} hi above => ?failed, fun {i name} hi limit within => ?untried,
    foundered.modules⟩
  case failed =>
    have tried : name ∈ names.take s.registry.options.maxLoadDepth :=
      List.mem_of_getElem? ((List.getElem?_take_of_lt above).trans hi)
    have failure : t.registry.lastFailure? name = some e := by
      rw [foundered.lastFailure?, if_pos tried]
    exact ⟨Registry.state_eq_failed_iff.mpr
      ⟨missing hi (Nat.lt_trans above beyond), offStack name, e, failure⟩, failure⟩
  case untried =>
    have below : name ∈ names.drop s.registry.options.maxLoadDepth := by
      have place : (names.drop s.registry.options.maxLoadDepth)[
          i - s.registry.options.maxLoadDepth]? = some name := by
        rw [List.getElem?_drop, Nat.add_sub_cancel' limit, hi]
      exact List.mem_of_getElem? place
    have untried : name ∉ names.take s.registry.options.maxLoadDepth := fun tried =>
      List.disjoint_take_drop h.distinct (Nat.le_refl _) tried below
    refine Registry.state_eq_unloaded_iff.mpr ⟨missing hi within, offStack name, ?_⟩
    rw [foundered.lastFailure?, if_neg untried, h.unfailed]

/-- A request keeps to the limit if it is answered within it and founders beyond it. -/
theorem AtRow.limited (h : s.AtRow P symbol names k) (within : k ≤ names.length) {α : Type}
    {step : Except LinkError α × Session σ} (steady : s.Steady step.2)
    (room : k ≤ s.registry.options.maxLoadDepth → ∃ answer, step.1 = .ok answer)
    (shallow : ∀ module, (names.take k)[s.registry.options.maxLoadDepth]? = some module →
      let e := LinkError.loadDepthExceeded module s.registry.options.maxLoadDepth
      step.1 = .error e ∧
        s.Foundered ((names.take k).take s.registry.options.maxLoadDepth) e step.2) :
    s.Limited names k step := by
  have beyond : s.registry.options.maxLoadDepth < k →
      ∃ module, names[s.registry.options.maxLoadDepth]? = some module ∧
        step.1 = .error (.loadDepthExceeded module s.registry.options.maxLoadDepth) ∧
        s.EndedAt names k (.loadDepthExceeded module s.registry.options.maxLoadDepth) step.2 := by
    intro deep
    have hm := List.getElem?_eq_getElem (Nat.lt_of_lt_of_le deep within)
    obtain ⟨answer, foundered⟩ := shallow _ ((List.getElem?_take_of_lt deep).trans hm)
    exact ⟨_, hm, answer, h.endedAt deep foundered steady⟩
  refine ⟨⟨fun ⟨answer, succeeded⟩ => ?_, room⟩, beyond⟩
  by_contra deep
  obtain ⟨module, -, failed, -⟩ := beyond (Nat.lt_of_not_le deep)
  cases succeeded.symm.trans failed

end Session

/-- The depth limit is exact. Modules in a row, the last of which are published, are loaded for a
request from outside just if no more are missing than the limit. Otherwise the error names the first
module beyond the limit; those above it have failed with that error, and those from it on have not
been tried. A module under construction that imports from the row does not count. -/
theorem loadDepth_limit_exact {P : Plans σ} {s : Session σ} {symbol first : String}
    {others : List String} {k : Nat} (within : k ≤ (first :: others).length)
    (h : s.AtRow P symbol (first :: others) k) :
    s.Limited (first :: others) k (s.resolve [⟨first, symbol⟩]) ∧
      ∀ (requester : String) (body : Body σ), requester ∉ first :: others →
        (∀ imported desk, ∃ exports, ((body imported).run desk).1 = .ok exports) →
          s.Limited (first :: others) k (s.build ⟨requester, [⟨first, symbol⟩]⟩ body) := by
  have limit : s.fetch = Linking.fetch s.registry.options.maxLoadDepth := by
    rw [Session.fetch, h.idle.allowance_eq]
  have kept := Session.lawful_steady (σ := σ).fetch s.registry.options.maxLoadDepth
  have head : ((first :: others).take k ++ (first :: others).drop k).head? = some first := by
    rw [List.take_append_drop, List.head?_cons]
  have missing : ((first :: others).take k).length = k := List.length_take_of_le within
  unfold Session.resolve Session.build
  rw [limit]
  refine ⟨?resolved, fun requester body other works => ?built⟩
  case resolved =>
    refine h.limited within (Session.lawful_steady.resolve kept _ s) (fun room => ?_)
      fun module deep => ?_
    · exact Linking.resolve_of_room h.poised (missing.symm ▸ room) head
    · exact Linking.resolve_of_shallow h.poised deep head
  case built =>
    have poised := h.poised_for other
    have offStack : requester ∉ s.registry.loading := by
      rw [h.idle.1]
      exact List.not_mem_nil
    have begun := Linking.resolveFrom_of_offStack
      (Linking.fetch s.registry.options.maxLoadDepth) [⟨first, symbol⟩] offStack
    refine h.limited within (Session.lawful_steady.build kept _ body s) (fun room => ?_)
      fun module deep => ?_
    · obtain ⟨symbols, found⟩ := Linking.resolve_of_room poised (missing.symm ▸ room) head
      exact Linking.build_of_found works ((congrArg Prod.fst begun).trans found)
    · have outcome := Linking.resolve_of_shallow poised deep head
      rcases hr : Linking.resolve (Linking.fetch s.registry.options.maxLoadDepth)
        [⟨first, symbol⟩] (s.change (·.push requester)) with ⟨answer, t⟩
      rw [hr] at outcome begun
      obtain ⟨rfl, foundered⟩ := outcome
      rw [Linking.build_of_refused body begun]
      exact ⟨rfl, foundered.modules, foundered.lastFailure?⟩

def Plans.queue : Plans Unit :=
  let passing (imports : List Import) : Plan Unit := ⟨imports, fun _ => pure .single⟩
  ((((∅ : Plans Unit).insert "A" (passing [⟨"B", "x"⟩])).insert "B"
    (passing [⟨"C", "x"⟩])).insert "C" (passing [⟨"D", "x"⟩])).insert "D" (passing [])

/-- The last module of the queue is published, and one more is missing than the limit allows. -/
def Session.queued : Session Unit :=
  ((Session.start { maxLoadDepth := 2 } (some Plans.queue.loader) ()).publish
    (.ofExports "D" .single)).2

theorem Session.atRow_queued : queued.AtRow Plans.queue "x" ["A", "B", "C", "D"] 3 where
  loader := rfl
  row := by
    have exported : "x" ∈ ExportTable.single := by decide
    exact ⟨⟨_, rfl, rfl, fun _ _ => exported⟩, ⟨_, rfl, rfl, fun _ _ => exported⟩,
      ⟨_, rfl, rfl, fun _ _ => exported⟩, ⟨_, rfl, rfl, fun _ _ => exported⟩, trivial⟩
  distinct := by decide
  idle := ⟨rfl, rfl, rfl⟩
  unfailed _ := rfl
  published name := by
    refine (isLoaded_publish _ (.ofExports "D" .single) name).trans ?_
    change (none : Option (Shared Module)).isSome = true ∨ name = "D" ↔ name ∈ ["D"]
    simp
  exported := by
    intro name m hm
    rw [queued, module?_publish] at hm
    split at hm
    · obtain rfl := Option.some.inj hm
      decide
    · cases hm

/-- The third module of the row is the first beyond the limit, for a request as well as for a build.
-/
theorem loadDepth_limit_exact_of_queued :
    let s := Session.queued
    let e := LinkError.loadDepthExceeded "C" 2
    (s.resolve [⟨"A", "x"⟩]).1 = .error e ∧
      (s.resolve [⟨"A", "x"⟩]).2.registry.state "C" = .unloaded ∧
      (s.build ⟨"R", [⟨"A", "x"⟩]⟩ fun _ => pure .single).1 = .error e ∧
      (s.build ⟨"R", [⟨"A", "x"⟩]⟩ fun _ => pure .single).2.registry.lastFailure? "B" = some e := by
  have limited := loadDepth_limit_exact (by decide) Session.atRow_queued
  obtain ⟨module, hm, failed, ended⟩ := limited.1.exceeded (by decide)
  obtain rfl : "C" = module := Option.some.inj hm
  obtain ⟨module, hm, failed', ended'⟩ :=
    (limited.2 "R" (fun _ => pure .single) (by decide) fun _ _ => ⟨_, rfl⟩).exceeded (by decide)
  obtain rfl : "C" = module := Option.some.inj hm
  exact ⟨failed, ended.untried (i := 2) rfl (by decide) (by decide), failed',
    (ended'.failed (i := 1) rfl (by decide)).2⟩

end MibLinker
