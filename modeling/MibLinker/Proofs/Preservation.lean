import MibLinker.Registry.Composition

/-!
# What linking preserves

A relation between sessions that every part of linking respects holds between the session before a
request and the session after it, whatever the scripts are. `Lawful` lists the parts. `Lawful.fetch`
goes down the allowance, and the other requests follow from it.
-/

namespace MibLinker

variable {σ α : Type}

namespace Session

/-- Whether a request for a name gets as far as the loader: the module is not published, no load of
it has failed within the request that is running, and it is not on the load stack. -/
structure Vacant (s : Session σ) (name : String) : Prop where
  unpublished : s.registry.module? name = none
  unfailed : s.registry.freshFailure? name = none
  offStack : name ∉ s.registry.loading

def opened (s : Session σ) (name : String) : Session σ :=
  (s.log (.loading name s.registry.activeLoads)).change (·.beginLoad name)

def closed (s : Session σ) : Session σ := s.change .endLoad

def constructing (s : Session σ) (requester : String) : Session σ :=
  if requester ∈ s.registry.loading then s else s.change (·.push requester)

theorem discard_of_unpublished {s : Session σ} {name : String}
    (h : s.registry.module? name = none) : s.discard name = s := by
  have hl : ¬ s.registry.isLoaded name = true := by
    simpa [Registry.isLoaded, Registry.module?] using h
  simp only [discard, if_neg hl]

end Session

namespace Linking

/-! ## Where a request for a module ends -/

theorem fetchBy_of_vacant (onward : Fetch σ) {s : Session σ} {name : String}
    (h : s.Vacant name) : fetchBy onward name s = onward name s := by
  simp only [fetchBy, h.unpublished, h.unfailed, if_neg h.offStack]

/-- A request that does not get as far as the loader leaves the session as it is. -/
theorem fetchBy_of_not_vacant (onward : Fetch σ) {s : Session σ} {name : String}
    (h : ¬ s.Vacant name) : (fetchBy onward name s).2 = s := by
  cases hm : s.registry.module? name with
  | some m => simp only [fetchBy, hm]
  | none =>
      cases hf : s.registry.freshFailure? name with
      | some e => simp only [fetchBy, hm, hf]
      | none =>
          by_cases hl : name ∈ s.registry.loading
          · simp only [fetchBy, hm, hf, if_pos hl]
          · exact (h ⟨hm, hf, hl⟩).elim

theorem fetch_of_published (allowance : Nat) {s : Session σ} {name : String} {m : Shared Module}
    (h : s.registry.module? name = some m) : fetch allowance name s = (.ok m, s) := by
  cases allowance <;> simp only [fetch, fetchBy, h]

theorem callLoader_eq (fetch : Fetch σ) (loader : Loader σ) (name : String) (s : Session σ) :
    callLoader fetch loader name s =
      match run fetch (loader.definition name) (s.opened name) with
      | (.error e, t) => (.error e, t.closed.discard name)
      | (.ok _, t) =>
          match t.closed.registry.module? name with
          | none => (.error (.notPublished name), t.closed)
          | some m => (.ok m, t.closed.log (.loaded name)) := by
  have hopen : (s.log (.loading name s.registry.activeLoads)).change (·.beginLoad name) =
      s.opened name := rfl
  simp only [callLoader, hopen]
  rcases run fetch (loader.definition name) (s.opened name) with ⟨e | u, t⟩ <;> rfl

/-- The three ways in which an attempt ends: there is no loader, the load fails, or the module has
been published. -/
theorem attempt_cases (fetch : Fetch σ) (name : String) (s : Session σ) :
    (s.loader = none ∧ attempt fetch name s =
      (.error (.moduleNotFound name), s.recordFailure name (.moduleNotFound name))) ∨
    ∃ loader, s.loader = some loader ∧
      ((∃ e t, (run fetch (loader.definition name) (s.opened name)).2 = t ∧
          attempt fetch name s = (.error e, (t.closed.discard name).recordFailure name e)) ∨
        ∃ m t, run fetch (loader.definition name) (s.opened name) = (.ok (), t) ∧
          t.registry.module? name = some m ∧
          attempt fetch name s = (.ok m, t.closed.log (.loaded name))) := by
  cases hl : s.loader with
  | none => exact .inl ⟨rfl, by simp only [attempt, callAnyLoader, hl]⟩
  | some loader =>
      refine .inr ⟨loader, rfl, ?_⟩
      simp only [attempt, callAnyLoader, hl, callLoader_eq]
      rcases run fetch (loader.definition name) (s.opened name) with ⟨e | u, t⟩
      · exact .inl ⟨e, t, rfl, rfl⟩
      · cases hm : t.closed.registry.module? name with
        | none =>
            refine .inl ⟨.notPublished name, t, rfl, ?_⟩
            rw [Session.discard_of_unpublished hm]
            simp only [hm]
        | some m => exact .inr ⟨m, t, rfl, hm, by simp only [hm]⟩

end Linking

/-! ## Lawful relations -/

/-- A relation between earlier and later sessions that every part of linking respects. -/
structure Lawful (R : Session σ → Session σ → Prop) : Prop where
  refl : ∀ s, R s s
  trans : ∀ {s t u}, R s t → R t u → R s u
  find : ∀ s module symbol kind, R s (s.log (.resolved module symbol kind))
  frame : ∀ {s t}, R (s.change .enter) t → R s (t.change .leave)
  construct : ∀ {s t requester}, requester ∉ s.registry.loading →
    R (s.change (·.push requester)) t → R s (t.change .pop)
  publish : ∀ s m, R s (s.publish m).2
  replace : ∀ s loader, R s (s.withLoader loader)
  desk : ∀ s desk, R s (s.withDesk desk)
  absent : ∀ {s name}, s.Vacant name → s.loader = none →
    R s (s.recordFailure name (.moduleNotFound name))
  failed : ∀ {s t name} e, s.Vacant name → R (s.opened name) t →
    R s ((t.closed.discard name).recordFailure name e)
  loaded : ∀ {s t name m}, s.Vacant name → R (s.opened name) t →
    t.registry.module? name = some m → R s (t.closed.log (.loaded name))

namespace Lawful

variable {R : Session σ → Session σ → Prop}

def Kept (R : Session σ → Session σ → Prop) (fetch : Linking.Fetch σ) : Prop :=
  ∀ name s, R s (fetch name s).2

section Given

variable {fetch : Linking.Fetch σ} (h : Lawful R) (hf : Kept R fetch)

include h

theorem inFrame {act : Request σ α} (hact : ∀ s, R s (act s).2) (s : Session σ) :
    R s (Linking.inFrame act s).2 := h.frame (hact _)

include hf

theorem resolveOne (i : Import) (s : Session σ) : R s (Linking.resolveOne fetch i s).2 := by
  have fetched := hf i.module s
  unfold Linking.resolveOne
  rcases hr : fetch i.module s with ⟨e | m, t⟩ <;> rw [hr] at fetched
  · exact fetched
  · cases hs : m.value.lookup? i.symbol with
    | none => simpa only [hs] using fetched
    | some symbol => simpa only [hs] using h.trans fetched (h.find ..)

theorem resolveEach (imports : List Import) (s : Session σ) :
    R s (Linking.resolveEach fetch imports s).2 := by
  induction imports generalizing s with
  | nil => exact h.refl s
  | cons i rest ih =>
      have first := h.resolveOne hf i s
      unfold Linking.resolveEach
      rcases hr : Linking.resolveOne fetch i s with ⟨e | symbol, t⟩ <;> rw [hr] at first
      · exact first
      · have later := h.trans first (ih t)
        rcases he : Linking.resolveEach fetch rest t with ⟨e | symbols, u⟩ <;>
          simpa only [he] using later

theorem resolve (imports : List Import) (s : Session σ) :
    R s (Linking.resolve fetch imports s).2 := h.inFrame (h.resolveEach hf imports) s

theorem resolveFrom (requester : String) (imports : List Import) (s : Session σ) :
    R s (Linking.resolveFrom fetch requester imports s).2 := by
  unfold Linking.resolveFrom
  split
  · exact h.resolve hf imports s
  · next hl => exact h.construct hl (h.resolve hf imports _)

theorem load (name : String) (s : Session σ) : R s (Linking.load fetch name s).2 :=
  h.inFrame (hf name) s

theorem loadAll (names : List String) (s : Session σ) :
    R s (Linking.loadAll fetch names s).2 := by
  induction names generalizing s with
  | nil => exact h.refl s
  | cons name rest ih =>
      have first := h.load hf name s
      unfold Linking.loadAll
      rcases hr : Linking.load fetch name s with ⟨e | m, t⟩ <;> rw [hr] at first
      · exact first
      · exact h.trans first (ih t)

theorem build (b : Builder) (body : Body σ) (s : Session σ) :
    R s (Linking.build fetch b body s).2 := by
  have resolved := h.resolveFrom hf b.name b.imports s
  unfold Linking.build
  rcases hr : Linking.resolveFrom fetch b.name b.imports s with ⟨e | symbols, t⟩ <;>
    rw [hr] at resolved
  · exact resolved
  · have worked := h.trans resolved (h.desk t ((body (b.resolved symbols)).run t.desk).2)
    rcases hb : (body (b.resolved symbols)).run t.desk with ⟨e | exports, desk⟩ <;>
      simp only [hb] at worked ⊢
    · exact worked
    · exact h.trans worked (h.publish _ _)

theorem run (script : Script σ) (s : Session σ) : R s (Linking.run fetch script s).2 := by
  induction script generalizing s with
  | done result => exact h.refl s
  | resolve imports next ih => exact h.trans (h.resolve hf imports s) (ih _ _)
  | resolveFrom requester imports next ih =>
      exact h.trans (h.resolveFrom hf requester imports s) (ih _ _)
  | load name next ih => exact h.trans (h.load hf name s) (ih _ _)
  | publish m next ih => exact h.trans (h.publish s m) (ih _ _)
  | replaceLoader offers definition next _ ih => exact h.trans (h.replace s _) (ih _)
  | work change next ih => exact h.trans (h.desk s _) (ih _ _)

theorem attempt {name : String} {s : Session σ} (hv : s.Vacant name) :
    R s (Linking.attempt fetch name s).2 := by
  rcases Linking.attempt_cases fetch name s with
    ⟨hl, heq⟩ | ⟨loader, _, ⟨e, t, hrun, heq⟩ | ⟨m, t, hrun, hm, heq⟩⟩
  · rw [heq]
    exact h.absent hv hl
  · rw [heq, ← hrun]
    exact h.failed e hv (h.run hf _ _)
  · rw [heq]
    have inside := h.run hf (loader.definition name) (s.opened name)
    rw [hrun] at inside
    exact h.loaded hv inside hm

end Given

/-- What every part of linking respects, fetching a module respects at any allowance. -/
theorem fetch (h : Lawful R) (allowance : Nat) : Kept R (Linking.fetch allowance) := by
  induction allowance with
  | zero =>
      intro name s
      by_cases hv : s.Vacant name
      · rw [Linking.fetch, Linking.fetchBy_of_vacant _ hv]
        exact h.refl s
      · rw [Linking.fetch, Linking.fetchBy_of_not_vacant _ hv]
        exact h.refl s
  | succ allowance ih =>
      intro name s
      by_cases hv : s.Vacant name
      · rw [Linking.fetch, Linking.fetchBy_of_vacant _ hv]
        exact h.attempt ih hv
      · rw [Linking.fetch, Linking.fetchBy_of_not_vacant _ hv]
        exact h.refl s

end Lawful

end MibLinker
