import MibLinker.Proofs.Permanence
import MibLinker.Proofs.Steadiness

/-!
# Loads that have succeeded

A loader is called for a name only while the name is neither published nor on the load stack. A load
that has succeeded leaves its module published, and its name off the stack of any load that could
withdraw the module. So no loader is called for that name again: not later in the same request, not
within the definitions that are still running, and not afterwards. A module that a load publishes
ahead is another matter, as that load may still fail.
-/

namespace MibLinker

variable {σ : Type}

/-- Whether an entry may come after an older one: no loader is called for a name once a load of it has
succeeded. -/
def Entry.Follows (newer older : Entry) : Prop :=
  ∀ name, older = .event (.loaded name) → newer.calls name = false

namespace Session

structure Settles (earlier later : Session σ) : Prop where
  keeps : earlier.Keeps later
  steady : earlier.Steady later
  uncalled : ∀ {name}, earlier.registry.isLoaded name = true ∨ name ∈ earlier.registry.loading →
    later.loaderCalls earlier name = 0
  called : ∀ {name}, .event (.loaded name) ∈ later.since earlier →
    0 < later.loaderCalls earlier name
  published : ∀ {name}, .event (.loaded name) ∈ later.since earlier →
    later.registry.isLoaded name = true
  ordered : (later.since earlier).Pairwise Entry.Follows

theorem calls_eq_false_of_loaderCalls {s t : Session σ} {name : String}
    (none : t.loaderCalls s name = 0) {e : Entry} (he : e ∈ t.since s) : e.calls name = false :=
  Bool.eq_false_iff.mpr (List.countP_eq_zero.mp none e he)

namespace Settles

variable {s t u : Session σ} {name : String}

/-- A step in which no loader is called and no load succeeds. -/
theorem of_quiet (keeps : s.Keeps t) (steady : s.Steady t)
    (uncalled : ∀ name, t.loaderCalls s name = 0)
    (quiet : ∀ name, .event (.loaded name) ∉ t.since s) : s.Settles t := by
  refine ⟨keeps, steady, fun _ => uncalled _, fun he => (quiet _ he).elim,
    fun he => (quiet _ he).elim, ?_⟩
  refine List.pairwise_of_forall_mem_list fun newer hn older ho name loaded => ?_
  exact (quiet name (loaded ▸ ho)).elim

/-- A step that reports nothing. -/
theorem of_silent (keeps : s.Keeps t) (steady : s.Steady t) (silent : t.journal = s.journal) :
    s.Settles t := by
  have nothing : t.since s = [] := since_eq [] silent
  refine of_quiet keeps steady (fun name => ?_) fun name => ?_
  · rw [loaderCalls, nothing, List.countP_nil]
  · rw [nothing]
    exact List.not_mem_nil

theorem refl (s : Session σ) : s.Settles s := of_silent (.refl s) (.refl s) rfl

theorem trans (first : s.Settles t) (second : t.Settles u) : s.Settles u where
  keeps := first.keeps.trans second.keeps
  steady := first.steady.trans second.steady
  uncalled {name} h := by
    have still : t.registry.isLoaded name = true ∨ name ∈ t.registry.loading := by
      rw [first.steady.loading]
      exact h.imp_left first.keeps.isLoaded
    rw [loaderCalls_trans first.keeps.grows second.keeps.grows, first.uncalled h,
      second.uncalled still]
  called {name} he := by
    rw [since_trans first.keeps.grows second.keeps.grows, List.mem_append] at he
    rw [loaderCalls_trans first.keeps.grows second.keeps.grows]
    rcases he with late | early
    · exact Nat.add_pos_left (second.called late) _
    · exact Nat.add_pos_right _ (first.called early)
  published {name} he := by
    rw [since_trans first.keeps.grows second.keeps.grows, List.mem_append] at he
    exact he.elim second.published fun early => second.keeps.isLoaded (first.published early)
  ordered := by
    rw [since_trans first.keeps.grows second.keeps.grows]
    refine List.pairwise_append.mpr ⟨second.ordered, first.ordered, ?_⟩
    rintro newer hn older ho name rfl
    exact calls_eq_false_of_loaderCalls (second.uncalled (.inl (first.published ho))) hn

/-! ## A load that has ended -/

/-- What a load does when it ends: it calls no loader, reports at most that it has succeeded itself,
and withdraws at most its own module. -/
structure Closing (name : String) (t u : Session σ) : Prop where
  grows : t.Grows u
  uncalled : ∀ other, u.loaderCalls t other = 0
  succeeded : ∀ {other}, .event (.loaded other) ∈ u.since t →
    other = name ∧ u.registry.isLoaded name = true
  kept : ∀ {other}, name ≠ other → t.registry.isLoaded other = true →
    u.registry.isLoaded other = true

theorem since_ended (h : (s.opened name).Settles t) (closing : Closing name t u) :
    u.since s = u.since t ++
      (t.since (s.opened name) ++ [.event (.loading name s.registry.activeLoads)]) := by
  rw [since_trans ((grows_opened s name).trans h.keeps.grows) closing.grows,
    since_trans (grows_opened s name) h.keeps.grows, since_opened]

theorem loaderCalls_ended (h : (s.opened name).Settles t) (closing : Closing name t u)
    (other : String) : u.loaderCalls s other =
      t.loaderCalls (s.opened name) other + if name = other then 1 else 0 := by
  rw [loaderCalls_trans ((grows_opened s name).trans h.keeps.grows) closing.grows,
    loaderCalls_trans (grows_opened s name) h.keeps.grows, closing.uncalled, loaderCalls_opened,
    Nat.zero_add]

/-- A load that succeeds within the load of a name is one of another name: this one is on the load
stack until its own load ends. -/
theorem ne_of_loaded (h : (s.opened name).Settles t) {other : String}
    (he : .event (.loaded other) ∈ t.since (s.opened name)) : name ≠ other := by
  rintro rfl
  have stacked : name ∈ (s.opened name).registry.loading :=
    List.mem_append_right _ (List.mem_singleton_self name)
  have none : t.loaderCalls (s.opened name) name = 0 := h.uncalled (.inr stacked)
  exact Nat.ne_of_gt (h.called he) none

theorem ended (vacant : s.Vacant name) (h : (s.opened name).Settles t) (keeps : s.Keeps u)
    (steady : s.Steady u) (closing : Closing name t u) : s.Settles u where
  keeps := keeps
  steady := steady
  uncalled {other} before := by
    have hne : name ≠ other := by
      rintro rfl
      rcases before with published | stacked
      · rw [Registry.isLoaded_eq_false_iff.mpr vacant.unpublished] at published
        cases published
      · exact vacant.offStack stacked
    have inside : t.loaderCalls (s.opened name) other = 0 :=
      h.uncalled (before.imp_right (List.mem_append_left [name]))
    rw [loaderCalls_ended h closing, inside, if_neg hne]
  called {other} he := by
    rw [since_ended h closing, List.mem_append, List.mem_append, List.mem_singleton] at he
    rw [loaderCalls_ended h closing]
    rcases he with last | inside | begun
    · rw [if_pos (closing.succeeded last).1.symm]
      exact Nat.succ_pos _
    · exact Nat.add_pos_left (h.called inside) _
    · cases begun
  published {other} he := by
    rw [since_ended h closing, List.mem_append, List.mem_append, List.mem_singleton] at he
    rcases he with last | inside | begun
    · obtain ⟨rfl, published⟩ := closing.succeeded last
      exact published
    · exact closing.kept (ne_of_loaded h inside) (h.published inside)
    · cases begun
  ordered := by
    -- Newest first: what the end of the load reports, what its script did, and its own call.
    rw [since_ended h closing]
    have called : ∀ newer ∈ u.since t, ∀ older, newer.Follows older := fun newer hn _ other _ =>
      calls_eq_false_of_loaderCalls (closing.uncalled other) hn
    refine List.pairwise_append.mpr ⟨?_, List.pairwise_append.mpr ⟨h.ordered, ?_, ?_⟩, ?_⟩
    · exact List.pairwise_of_forall_mem_list fun newer hn older _ => called newer hn older
    · exact List.pairwise_singleton _ _
    · intro newer _ older ho other loaded
      rw [List.mem_singleton.mp ho] at loaded
      cases loaded
    · exact fun newer hn older _ => called newer hn older

end Settles

/-! ## Every run settles -/

theorem closing_withdraw (t : Session σ) (name : String) (e : LinkError) :
    Settles.Closing name t ((t.closed.discard name).recordFailure name e) where
  grows := grows_withdraw t name e
  uncalled := loaderCalls_withdraw t name e
  succeeded he := by rcases mem_since_withdraw he with h | h <;> cases h
  kept {other} hne published := by
    obtain ⟨m, hm⟩ := Registry.isLoaded_iff.mp published
    exact Registry.isLoaded_iff.mpr ⟨m, (module?_withdraw t e hne).trans hm⟩

theorem closing_loaded {t : Session σ} {name : String} {m : Shared Module}
    (hm : t.registry.module? name = some m) :
    Settles.Closing name t (t.closed.log (.loaded name)) where
  grows := grows_log t _
  uncalled _ := loaderCalls_log rfl
  succeeded he := by
    have only : (t.closed.log (.loaded name)).since t = [.event (.loaded name)] := since_eq _ rfl
    rw [only, List.mem_singleton] at he
    cases he
    exact ⟨rfl, Registry.isLoaded_iff.mpr ⟨m, hm⟩⟩
  kept _ published := published

theorem settles_log {s : Session σ} {e : Event}
    (uncalled : ∀ name, (Entry.event e).calls name = false)
    (quiet : ∀ name, e ≠ .loaded name) : s.Settles (s.log e) := by
  refine .of_quiet (.of_modules_eq (grows_log s e) rfl) ⟨rfl, rfl, rfl, rfl, fun _ => rfl⟩
    (fun name => loaderCalls_log (uncalled name)) fun name he => ?_
  rw [since_log, List.mem_singleton] at he
  exact quiet name (Entry.event.inj he).symm

theorem lawful_settles : Lawful (Settles (σ := σ)) where
  refl := .refl
  trans := .trans
  find s _ _ _ := settles_log (fun _ => rfl) nofun
  frame h := ⟨lawful_keeps.frame h.keeps, lawful_steady.frame h.steady, h.uncalled, h.called,
    h.published, h.ordered⟩
  construct offStack h := ⟨lawful_keeps.construct offStack h.keeps, h.steady.pop,
    fun before => h.uncalled (before.imp_right (List.mem_append_left _)), h.called, h.published,
    h.ordered⟩
  publish s m := by
    refine .of_quiet (keeps_publish s m) (lawful_steady.publish s m) (loaderCalls_publish s m) ?_
    intro name he
    rw [since_publish, List.mem_singleton, Registry.publishEvent] at he
    split at he <;> cases he
  replace s loader :=
    .of_silent (lawful_keeps.replace s loader) (lawful_steady.replace s loader) rfl
  desk s desk := by
    refine .of_quiet (lawful_keeps.desk s desk) (lawful_steady.desk s desk)
      (loaderCalls_withDesk s desk) fun name he => ?_
    rw [since_withDesk, List.mem_map] at he
    obtain ⟨_, _, impossible⟩ := he
    cases impossible
  absent {s name} vacant hl := by
    refine .of_quiet (lawful_keeps.absent vacant hl) (lawful_steady.absent vacant hl)
      (fun _ => loaderCalls_log rfl) fun other he => ?_
    rw [since_recordFailure, List.mem_singleton] at he
    cases he
  failed {_ t name} e vacant h := h.ended vacant (lawful_keeps.failed e vacant h.keeps)
    (lawful_steady.failed e vacant h.steady) (closing_withdraw t name e)
  loaded vacant h hm := h.ended vacant (lawful_keeps.loaded vacant h.keeps hm)
    (lawful_steady.loaded vacant h.steady hm) (closing_loaded hm)

end Session

end MibLinker
