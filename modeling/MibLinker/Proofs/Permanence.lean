import MibLinker.Proofs.Chronicle
import MibLinker.Proofs.Tables

/-!
# Permanence of publications

A failed load withdraws what its script has published under its name. That can never be a module
which was there before: a load begins only while its name is not published. So what has been
published stays, and stays the same object until its name is published again.
-/

namespace MibLinker

variable {σ : Type}

/-- Whether all that was published in an earlier session still is, as the same objects where nothing
has been published under their names since. -/
structure Session.Keeps (earlier later : Session σ) : Prop where
  grows : earlier.Grows later
  published : ∀ {name m}, earlier.registry.module? name = some m →
    ∃ m', later.registry.module? name = some m' ∧
      ((∀ e ∈ later.since earlier, e.publishes name = false) → m' = m)

namespace Session

theorem Keeps.refl (s : Session σ) : s.Keeps s :=
  ⟨.refl s, fun h => ⟨_, h, fun _ => rfl⟩⟩

theorem Keeps.trans {s t u : Session σ} (first : s.Keeps t) (second : t.Keeps u) : s.Keeps u := by
  refine ⟨first.grows.trans second.grows, fun h => ?_⟩
  obtain ⟨m, hm, same⟩ := first.published h
  obtain ⟨m', hm', same'⟩ := second.published hm
  refine ⟨m', hm', fun quiet => ?_⟩
  rw [since_trans first.grows second.grows] at quiet
  rw [same' fun e he => quiet e (List.mem_append_left _ he),
    same fun e he => quiet e (List.mem_append_right _ he)]

theorem Keeps.isLoaded {s t : Session σ} (h : s.Keeps t) {name : String}
    (published : s.registry.isLoaded name = true) : t.registry.isLoaded name = true := by
  obtain ⟨m, hm⟩ := Registry.isLoaded_iff.mp published
  obtain ⟨m', hm', -⟩ := h.published hm
  exact Registry.isLoaded_iff.mpr ⟨m', hm'⟩

theorem Keeps.of_modules_eq {s t : Session σ} (grows : s.Grows t)
    (same : t.registry.modules = s.registry.modules) : s.Keeps t := by
  refine ⟨grows, fun {name m} h => ⟨m, ?_, fun _ => rfl⟩⟩
  unfold Registry.module? at h ⊢
  rw [same, h]

theorem keeps_publish (s : Session σ) (m : Module) : s.Keeps (s.publish m).2 := by
  refine ⟨grows_publish s m, fun {name m'} h => ?_⟩
  have after := module?_publish s m name
  by_cases hn : m.name = name
  · rw [if_pos hn] at after
    refine ⟨_, after, fun quiet => ?_⟩
    have told := quiet _ (since_publish s m ▸ List.mem_singleton_self _)
    rw [← hn, Registry.publishes_publishEvent] at told
    cases told
  · rw [if_neg hn] at after
    exact ⟨m', after.trans h, fun _ => rfl⟩

theorem module?_withdraw (t : Session σ) {failed name : String} (e : LinkError)
    (h : failed ≠ name) :
    ((t.closed.discard failed).recordFailure failed e).registry.module? name =
      t.registry.module? name := by
  have withdrawn := module?_discard t.closed failed name
  rw [if_neg h] at withdrawn
  exact withdrawn

theorem lawful_keeps : Lawful (Keeps (σ := σ)) where
  refl := .refl
  trans := .trans
  find s _ _ _ := .of_modules_eq (grows_log s _) rfl
  frame inside := ⟨inside.grows, inside.published⟩
  construct _ inside := ⟨inside.grows, inside.published⟩
  publish := keeps_publish
  replace s _ := .of_modules_eq (.refl s) rfl
  desk s desk := .of_modules_eq (grows_withDesk s desk) rfl
  absent _ _ := .of_modules_eq (grows_recordFailure _ _ _) rfl
  failed := by
    intro s t failed e vacant inside
    refine ⟨lawful_grows.failed e vacant inside.grows, fun {name m} h => ?_⟩
    -- The name was vacant when its load began, so it is none of those that were published.
    have hne : failed ≠ name := by
      rintro rfl
      rw [vacant.unpublished] at h
      cases h
    obtain ⟨m', hm', same⟩ := inside.published h
    refine ⟨m', (module?_withdraw t e hne).trans hm', fun quiet => same fun entry he => ?_⟩
    exact quiet entry (mem_since (grows_opened s failed) inside.grows (grows_withdraw t failed e) he)
  loaded := by
    intro s t name m _ inside _
    have opened : s.Keeps (s.opened name) := .of_modules_eq (grows_opened s name) rfl
    exact (opened.trans inside).trans (.of_modules_eq (grows_log t _) rfl)

end Session

/-! ## Requests for a published module -/

namespace Linking

/-- Requests for symbols that are there are answered with them, and do no more than report it. -/
theorem resolveEach_of_exported (allowance : Nat) {imports : List Import} {s : Session σ}
    (exported : ∀ i ∈ imports, ∃ symbol, s.registry.lookup? i = some symbol) :
    ∃ symbols t, resolveEach (fetch allowance) imports s = (.ok symbols, t) ∧
      symbols.map some = imports.map s.registry.lookup? ∧ t.registry = s.registry ∧
      ∀ e ∈ t.since s, ∀ name, e.calls name = false := by
  induction imports generalizing s with
  | nil =>
      have nothing : s.since s = [] := Session.since_eq [] rfl
      refine ⟨[], s, rfl, rfl, rfl, fun e he => ?_⟩
      rw [nothing] at he
      exact (List.not_mem_nil he).elim
  | cons i rest ih =>
      obtain ⟨symbol, there⟩ := exported i (.head _)
      obtain ⟨m, hm, hs⟩ := Option.bind_eq_some_iff.mp there
      let found := s.log (.resolved i.module i.symbol symbol.kindName)
      have first : resolveOne (fetch allowance) i s = (.ok symbol, found) := by
        simp only [resolveOne, fetch_of_published allowance hm, hs, found]
      obtain ⟨symbols, t, others, listed, same, quiet⟩ :=
        ih (s := found) fun j hj => exported j (.tail _ hj)
      have grows : found.Grows t := by
        have grown := Session.lawful_grows.fetch (σ := σ) allowance
        have kept := Session.lawful_grows.resolveEach grown rest found
        rwa [others] at kept
      refine ⟨symbol :: symbols, t, ?_, ?_, same, fun e he => ?_⟩
      · simp only [resolveEach, first, others]
      · rw [List.map_cons, List.map_cons, listed, there]
        rfl
      · rw [Session.since_trans (Session.grows_log s _) grows, Session.since_log, List.mem_append,
          List.mem_singleton] at he
        rcases he with later | rfl
        · exact quiet e later
        · exact fun _ => rfl

/-- A request for a symbol of a published module looks it up, and does no more than report it. -/
theorem resolve_of_published (allowance : Nat) {s : Session σ} {i : Import} {m : Shared Module}
    (h : s.registry.module? i.module = some m) :
    ∃ t, resolve (fetch allowance) [i] s =
        ((match m.value.lookup? i.symbol with
          | some symbol => .ok [symbol]
          | none => .error (.unresolvedSymbol i.module i.symbol)), t) ∧
      ∀ e ∈ t.since s, ∀ name, e.calls name = false := by
  have entered : (s.change .enter).registry.module? i.module = some m := h
  simp only [resolve, inFrame, resolveEach, resolveOne, fetch_of_published allowance entered]
  cases hs : m.value.lookup? i.symbol with
  | none =>
      have nothing : ((s.change .enter).change .leave).since s = [] := Session.since_eq [] rfl
      refine ⟨(s.change .enter).change .leave, rfl, fun e he => ?_⟩
      rw [nothing] at he
      exact (List.not_mem_nil he).elim
  | some symbol =>
      let found := (s.change .enter).log (.resolved i.module i.symbol symbol.kindName)
      have report : (found.change .leave).since s =
          [.event (.resolved i.module i.symbol symbol.kindName)] := Session.since_eq _ rfl
      refine ⟨found.change .leave, rfl, fun e he name => ?_⟩
      rw [report] at he
      rw [List.mem_singleton.mp he]
      rfl

end Linking

/-- Whatever a registry is asked to do, at whatever depth, and however it ends, what was published
before is published after, as the same object unless its name was published again meanwhile. So a
symbol of a module is what the last publication under its name says, and takes no loader to find. -/
theorem publications_permanent :
    (∀ (allowance : Nat) (s : Session σ) (operation : Operation σ) (name : String)
        (m : Shared Module), s.registry.module? name = some m →
      let t := operation.perform allowance s
      t.registry.isLoaded name = true ∧
        ((∀ e ∈ t.since s, e.publishes name = false) → t.registry.module? name = some m)) ∧
    ∀ (s : Session σ) (name : String) (exports : ExportTable) (operations : List (Operation σ))
        (symbol : String),
      let published := (s.publish (.ofExports name exports)).2
      let t := published.afterAll operations
      (∀ e ∈ t.since published, e.publishes name = false) →
        (t.resolve [⟨name, symbol⟩]).1 =
            (match exports[symbol]? with
              | some object => .ok [object]
              | none => .error (.unresolvedSymbol name symbol)) ∧
          ∀ e ∈ (t.resolve [⟨name, symbol⟩]).2.since t, ∀ other, e.calls other = false := by
  refine ⟨fun allowance s operation name m h => ?_, fun s name exports operations symbol => ?_⟩
  · obtain ⟨m', hm', same⟩ :=
      (Session.lawful_keeps.operation allowance s operation).published h
    exact ⟨Registry.isLoaded_iff.mpr ⟨m', hm'⟩, fun quiet => same quiet ▸ hm'⟩
  · intro published t quiet
    have now : published.registry.module? name =
        some ⟨s.registry.publications, .ofExports name exports⟩ :=
      (Session.module?_publish s (.ofExports name exports) name).trans (if_pos rfl)
    obtain ⟨m, hm, same⟩ := (Session.lawful_keeps.afterAll published operations).published now
    obtain rfl := same quiet
    obtain ⟨u, hu, calm⟩ :=
      Linking.resolve_of_published (i := ⟨name, symbol⟩) t.registry.allowance hm
    have resolved : t.resolve [⟨name, symbol⟩] = _ := hu
    rw [resolved]
    exact ⟨rfl, calm⟩

def ExportTable.single : ExportTable := (∅ : ExportTable).insert "x" (.factory .typed)

def Session.withPublication : Session Unit :=
  ((Session.start {} (some .failingLate) ()).publish (.ofExports "B" .single)).2

/-- The load of another module fails after its publication, which alone is withdrawn. -/
theorem publications_permanent_past_failure :
    let t := Session.withPublication.afterAll [.call (.load "A")]
    (t.since .withPublication).any (·.publishes "A") = true ∧
      t.registry.isLoaded "A" = false ∧
      t.registry.module? "B" = some ⟨0, .ofExports "B" .single⟩ ∧
      (t.resolve [⟨"B", "x"⟩]).1 = .ok [.factory .typed] := by
  have kept := (publications_permanent (σ := Unit)).1 64 .withPublication (.call (.load "A")) "B"
    ⟨0, .ofExports "B" .single⟩ rfl
  have found := ((publications_permanent (σ := Unit)).2 (.start {} (some .failingLate) ()) "B" .single
    [.call (.load "A")] "x" (by decide)).1
  exact ⟨by decide, by decide, kept.2 (by decide), found⟩

end MibLinker
