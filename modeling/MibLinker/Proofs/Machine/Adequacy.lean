import MibLinker.Proofs.Machine.Basic
import MibLinker.Proofs.Steadiness

/-!
# The machine comes to an answer

Whatever a machine begins, it comes to the answer that linking gives, and to the session that linking
leaves. Nothing in a script gets smaller from a loader call to the ones inside it: the induction is on
the allowance that the tables tell. That goes down with each call that begins inside another, and is
back where it was when the call ends.
-/

namespace MibLinker

variable {σ : Type} {j k : JobKind}

def Job.link (fetch : Linking.Fetch σ) : Job σ k → Session σ → k.Answer × Session σ
  | .fetch name, s => fetch name s
  | .find imports, s => Linking.resolveEach fetch imports s
  | .resolve imports, s => Linking.resolve fetch imports s
  | .resolveFrom requester imports, s => Linking.resolveFrom fetch requester imports s
  | .load name, s => Linking.load fetch name s
  | .loadAll names, s => Linking.loadAll fetch names s
  | .build b body, s => Linking.build fetch b body s
  | .script rest, s => Linking.run fetch rest s

namespace Machine

/-! ## Asking for a module -/

/-- A request is answered at once and changes nothing, or fails for want of a loader, or has the
loader called while fewer calls are running than the options allow. -/
theorem beginFetch_cases (name : String) (stack : Stack σ .module k) (s : Session σ) :
    (∃ answer : JobKind.module.Answer, beginFetch name stack s = .answering answer stack s) ∨
    (s.loader = none ∧
      beginFetch name stack s = .answering (j := .module) (.error (.moduleNotFound name)) stack
        (s.recordFailure name (.moduleNotFound name))) ∨
    ∃ loader, s.loader = some loader ∧
      ¬ s.registry.options.maxLoadDepth ≤ s.registry.activeLoads ∧
      beginFetch name stack s = .working (.script (loader.definition name))
        (.cons (.calling name) stack) (s.opened name) := by
  unfold beginFetch
  split
  · exact .inl ⟨_, rfl⟩
  · split
    · exact .inl ⟨_, rfl⟩
    · split
      · exact .inl ⟨_, rfl⟩
      · split
        · exact .inl ⟨_, rfl⟩
        next room =>
          cases hl : s.loader with
          | none => exact .inr (.inl ⟨rfl, rfl⟩)
          | some loader => exact .inr (.inr ⟨loader, rfl, room, rfl⟩)

theorem beginFetch_of_not_vacant (onward : Linking.Fetch σ) {name : String} {s : Session σ}
    (stack : Stack σ .module k) (h : ¬ s.Vacant name) :
    beginFetch name stack s =
      .answering (j := .module) (Linking.fetchBy onward name s).1 stack
        (Linking.fetchBy onward name s).2 := by
  cases hm : s.registry.module? name with
  | some m => simp only [beginFetch, Linking.fetchBy, hm]
  | none =>
      cases hf : s.registry.freshFailure? name with
      | some e => simp only [beginFetch, Linking.fetchBy, hm, hf]
      | none =>
          by_cases hl : name ∈ s.registry.loading
          · simp only [beginFetch, Linking.fetchBy, hm, hf, if_pos hl]
          · exact (h ⟨hm, hf, hl⟩).elim

theorem beginFetch_of_exhausted {name : String} {s : Session σ} (stack : Stack σ .module k)
    (vacant : s.Vacant name) (spent : s.registry.allowance = 0) :
    beginFetch name stack s =
      .answering (j := .module) (Linking.tooDeep name s).1 stack (Linking.tooDeep name s).2 := by
  have full : s.registry.options.maxLoadDepth ≤ s.registry.activeLoads :=
    Nat.sub_eq_zero_iff_le.mp spent
  simp only [beginFetch, vacant.unpublished, vacant.unfailed, if_neg vacant.offStack, if_pos full,
    Linking.tooDeep]

theorem beginFetch_of_vacant {name : String} {s : Session σ} {n : Nat} (stack : Stack σ .module k)
    (vacant : s.Vacant name) (left : s.registry.allowance = n + 1) :
    beginFetch name stack s =
      match s.loader with
      | none =>
          .answering (.error (.moduleNotFound name)) stack
            (s.recordFailure name (.moduleNotFound name))
      | some loader =>
          .working (.script (loader.definition name)) (.cons (.calling name) stack)
            (s.opened name) := by
  have room : ¬ s.registry.options.maxLoadDepth ≤ s.registry.activeLoads := by
    unfold Registry.allowance at left
    omega
  cases hl : s.loader <;>
    simp only [beginFetch, vacant.unpublished, vacant.unfailed, if_neg vacant.offStack,
      if_neg room, hl]

end Machine

/-! ## Jobs, given that modules can be fetched -/

namespace Job

open Machine

def Fetches (σ : Type) (n : Nat) : Prop :=
  ∀ name (s : Session σ), s.registry.allowance = n →
    (Job.fetch name).Returns s (Linking.fetch n name s)

section Given

variable {n : Nat} {s : Session σ} (hf : Fetches σ n) (hn : s.registry.allowance = n)

include hf hn

theorem find_returns (imports : List Import) :
    (Job.find imports).Returns s (Linking.resolveEach (Linking.fetch n) imports s) := by
  induction imports generalizing s with
  | nil => exact fun k stack => .single rfl
  | cons i rest ih =>
      intro k stack
      have steady := Session.lawful_steady.fetch n i.module s
      have fetched := hf i.module s hn (.cons (.finding i rest) stack)
      refine .head rfl (fetched.trans ?_)
      rw [Linking.resolveEach, Linking.resolveOne]
      rcases hr : Linking.fetch n i.module s with ⟨e | m, t⟩ <;> rw [hr] at steady
      · exact .single rfl
      · cases hs : m.value.lookup? i.symbol with
        | none =>
            simp only [hs]
            exact .single (by simp only [step, Frame.resume, hs])
        | some symbol =>
            simp only [hs]
            have later : (t.log (.resolved i.module i.symbol symbol.kindName)).registry.allowance =
                n := steady.allowance_eq.trans hn
            have resumed : (answering (.ok m) (.cons (.finding i rest) stack) t).step =
                some (working (.find rest) (.cons (.found symbol) stack)
                  (t.log (.resolved i.module i.symbol symbol.kindName))) := by
              simp only [step, Frame.resume, hs]
            refine .head resumed ((ih later (.cons (.found symbol) stack)).trans ?_)
            rcases Linking.resolveEach (Linking.fetch n) rest _ with ⟨e | symbols, u⟩ <;>
              exact .single rfl

theorem resolve_returns (imports : List Import) :
    (Job.resolve imports).Returns s (Linking.resolve (Linking.fetch n) imports s) := by
  intro k stack
  have inside := find_returns (s := s.change .enter) hf hn imports (.cons .leaving stack)
  exact .head rfl (inside.trans (.single rfl))

theorem resolveFrom_returns (requester : String) (imports : List Import) :
    (Job.resolveFrom requester imports).Returns s
      (Linking.resolveFrom (Linking.fetch n) requester imports s) := by
  intro k stack
  by_cases stacked : requester ∈ s.registry.loading
  · simp only [Linking.resolveFrom, if_pos stacked]
    refine .head ?_ (resolve_returns hf hn imports stack)
    simp only [step, begin, if_pos stacked]
  · simp only [Linking.resolveFrom, if_neg stacked]
    have inside := resolve_returns (s := s.change (·.push requester)) hf hn imports
      (.cons (.constructing requester) stack)
    refine .head ?_ (inside.trans (.single rfl))
    simp only [step, begin, if_neg stacked]

theorem load_returns (name : String) :
    (Job.load name).Returns s (Linking.load (Linking.fetch n) name s) := by
  intro k stack
  have inside := hf name (s.change .enter) hn (.cons .leaving stack)
  exact .head rfl (inside.trans (.single rfl))

theorem loadAll_returns (names : List String) :
    (Job.loadAll names).Returns s (Linking.loadAll (Linking.fetch n) names s) := by
  induction names generalizing s with
  | nil => exact fun k stack => .single rfl
  | cons name rest ih =>
      intro k stack
      have steady := Session.lawful_steady.load (Session.lawful_steady.fetch n) name s
      refine .head rfl ((load_returns hf hn name (.cons (.loadingAll rest) stack)).trans ?_)
      rw [Linking.loadAll]
      rcases hr : Linking.load (Linking.fetch n) name s with ⟨e | m, t⟩ <;> rw [hr] at steady
      · exact .single rfl
      · exact .head rfl (ih (steady.allowance_eq.trans hn) stack)

theorem build_returns (b : Builder) (body : Body σ) :
    (Job.build b body).Returns s (Linking.build (Linking.fetch n) b body s) := by
  intro k stack
  have resolved := resolveFrom_returns hf hn b.name b.imports (.cons (.building b body) stack)
  refine .head rfl (resolved.trans ?_)
  rw [Linking.build]
  rcases Linking.resolveFrom (Linking.fetch n) b.name b.imports s with ⟨e | symbols, t⟩
  · exact .single rfl
  · refine .single ?_
    rcases hb : (body (b.resolved symbols)).run t.desk with ⟨e | exports, desk⟩ <;>
      simp only [step, Frame.resume, hb]

theorem script_returns (script : Script σ) :
    (Job.script script).Returns s (Linking.run (Linking.fetch n) script s) := by
  induction script generalizing s with
  | done result => exact fun k stack => .single rfl
  | resolve imports next ih =>
      intro k stack
      have steady := Session.lawful_steady.resolve (Session.lawful_steady.fetch n) imports s
      have asked := resolve_returns hf hn imports (.cons (.asking next) stack)
      exact .head rfl (asked.trans (.head rfl (ih _ (steady.allowance_eq.trans hn) stack)))
  | resolveFrom requester imports next ih =>
      intro k stack
      have steady :=
        Session.lawful_steady.resolveFrom (Session.lawful_steady.fetch n) requester imports s
      have asked := resolveFrom_returns hf hn requester imports (.cons (.asking next) stack)
      exact .head rfl (asked.trans (.head rfl (ih _ (steady.allowance_eq.trans hn) stack)))
  | load name next ih =>
      intro k stack
      have steady := Session.lawful_steady.load (Session.lawful_steady.fetch n) name s
      have asked := load_returns hf hn name (.cons (.asking next) stack)
      exact .head rfl (asked.trans (.head rfl (ih _ (steady.allowance_eq.trans hn) stack)))
  | publish m next ih =>
      intro k stack
      exact .head rfl (ih (s.publish m).1 (s := (s.publish m).2) hn stack)
  | replaceLoader offers definition next _ ih =>
      intro k stack
      exact .head rfl (ih (s := s.withLoader ⟨offers, definition⟩) hn stack)
  | work change next ih =>
      intro k stack
      exact .head rfl (ih s.view (s := s.withDesk (change s.view)) hn stack)

end Given

/-! ## Fetching a module -/

/-- A loader call returns when modules can be fetched inside it. -/
theorem call_returns {n : Nat} (hf : Fetches σ n) {name : String} {s : Session σ}
    (vacant : s.Vacant name) (hn : s.registry.allowance = n + 1) :
    (Job.fetch name).Returns s (Linking.attempt (Linking.fetch n) name s) := by
  intro k stack
  have begun : (working (.fetch name) stack s).step = some (beginFetch name stack s) := rfl
  rw [beginFetch_of_vacant stack vacant hn] at begun
  cases hl : s.loader with
  | none =>
      simp only [hl] at begun
      simp only [Linking.attempt, Linking.callAnyLoader, hl]
      exact .single begun
  | some loader =>
      simp only [hl] at begun
      have inner : (s.opened name).registry.allowance = n := by
        change s.registry.options.maxLoadDepth - (s.registry.activeLoads + 1) = n
        unfold Registry.allowance at hn
        omega
      have ran := script_returns hf inner (loader.definition name) (.cons (.calling name) stack)
      refine .head begun (ran.trans (.single ?_))
      simp only [Linking.attempt, Linking.callAnyLoader, hl, Linking.callLoader_eq]
      rcases Linking.run (Linking.fetch n) (loader.definition name) (s.opened name) with
        ⟨e | u, t⟩
      · rfl
      · cases hm : t.closed.registry.module? name with
        | none => simp only [step, Frame.resume, hm]
        | some m => simp only [step, Frame.resume, hm]

theorem fetches (n : Nat) : Fetches σ n := by
  -- A loader call leaves one allowance less to its script, however large the script is.
  induction n with
  | zero =>
      intro name s hn k stack
      refine .single (congrArg some ?_)
      by_cases vacant : s.Vacant name
      · rw [Linking.fetch, Linking.fetchBy_of_vacant _ vacant]
        exact beginFetch_of_exhausted stack vacant hn
      · exact beginFetch_of_not_vacant _ stack vacant
  | succ n ih =>
      intro name s hn k stack
      rw [Linking.fetch]
      by_cases vacant : s.Vacant name
      · rw [Linking.fetchBy_of_vacant _ vacant]
        exact call_returns ih vacant hn stack
      · exact .single (congrArg some (beginFetch_of_not_vacant _ stack vacant))

/-- Whatever a machine begins, it comes to what linking makes of it. -/
theorem returns (job : Job σ j) (s : Session σ) : job.Returns s (job.link s.fetch s) := by
  have hf : Fetches σ s.registry.allowance := fetches _
  cases job with
  | fetch name => exact hf name s rfl
  | find imports => exact find_returns hf rfl imports
  | resolve imports => exact resolve_returns hf rfl imports
  | resolveFrom requester imports => exact resolveFrom_returns hf rfl requester imports
  | load name => exact load_returns hf rfl name
  | loadAll names => exact loadAll_returns hf rfl names
  | build b body => exact build_returns hf rfl b body
  | script rest => exact script_returns hf rfl rest

end Job

end MibLinker
