import MibLinker.Proofs.Permanence
import MibLinker.Proofs.Steadiness

/-!
# Attempts to load

Within one request from outside, the registry attempts to load a name at most once, however often it
is asked for. `Tries` says what a run inside a request does about attempts: a name that is settled,
because it is published or a load of it has failed, stays settled and is not attempted again; and an
attempt that ends settles its name.
-/

namespace MibLinker

variable {σ : Type}

namespace Registry

theorem isLoaded_eq (r : Registry) (name : String) : r.isLoaded name = (r.module? name).isSome :=
  Std.ExtTreeMap.contains_eq_isSome_getElem?

theorem freshFailure?_eq_some_iff {r : Registry} {name : String} {e : LinkError} :
    r.freshFailure? name = some e ↔ r.failures[name]? = some ⟨r.generation, e⟩ := by
  unfold freshFailure?
  cases r.failures[name]? with
  | none => simp
  | some failure =>
      obtain ⟨generation, error⟩ := failure
      by_cases hg : generation = r.generation <;> simp [hg]

theorem freshFailure?_recordFailure (r : Registry) (failed name : String) (e : LinkError) :
    (r.recordFailure failed e).freshFailure? name =
      if failed = name then some e else r.freshFailure? name := by
  unfold freshFailure?
  rw [failures_recordFailure]
  by_cases hn : failed = name
  · rw [if_pos hn, if_pos hn]
    exact if_pos rfl
  · rw [if_neg hn, if_neg hn]
    rfl

theorem freshFailure?_publish (r : Registry) (m : Module) (name : String) :
    (r.publish m).2.freshFailure? name =
      if m.name = name then none else r.freshFailure? name := by
  unfold freshFailure?
  rw [failures_publish]
  by_cases hn : m.name = name
  · rw [if_pos hn, if_pos hn]
  · rw [if_neg hn, if_neg hn]
    rfl

end Registry

namespace Session

theorem freshFailure?_enter {s : Session σ} (inside : 0 < s.registry.depth) (name : String) :
    (s.change .enter).registry.freshFailure? name = s.registry.freshFailure? name := by
  unfold Registry.freshFailure?
  rw [generation_enter inside]
  rfl

def Settled (s : Session σ) (name : String) (e : LinkError) : Prop :=
  s.registry.isLoaded name = true ∨ s.registry.freshFailure? name = some e

theorem Vacant.not_loaded {s : Session σ} {name : String} (h : s.Vacant name) :
    s.registry.isLoaded name = false := Registry.isLoaded_eq_false_iff.mpr h.unpublished

theorem Vacant.not_settled {s : Session σ} {name : String} (h : s.Vacant name) (e : LinkError) :
    ¬ s.Settled name e := by
  rintro (hl | hf)
  · simp [h.not_loaded] at hl
  · simp [h.unfailed] at hf

/-! ## Counting attempts -/

theorem tries_pos_of_failed {s t : Session σ} {name : String} {e : LinkError}
    (h : .event (.loadFailed name e) ∈ t.since s) : 0 < t.tries s name :=
  List.countP_pos_iff.mpr ⟨_, h, beq_self_eq_true name⟩

theorem tries_pos_of_loaded {s t : Session σ} {name : String}
    (h : .event (.loaded name) ∈ t.since s) : 0 < t.tries s name :=
  List.countP_pos_iff.mpr ⟨_, h, beq_self_eq_true name⟩

theorem failed_or_loaded_of_tries_pos {s t : Session σ} {name : String}
    (h : 0 < t.tries s name) :
    (∃ e, .event (.loadFailed name e) ∈ t.since s) ∨ .event (.loaded name) ∈ t.since s := by
  obtain ⟨entry, he, ha⟩ := List.countP_pos_iff.mp h
  unfold Entry.attempts at ha
  split at ha
  · exact .inr (beq_iff_eq.mp ha ▸ he)
  · exact .inl ⟨_, beq_iff_eq.mp ha ▸ he⟩
  · cases ha

/-! ## What a run does about attempts -/

structure Tries (earlier later : Session σ) : Prop where
  published : ∀ {name}, earlier.registry.isLoaded name = true →
    later.registry.isLoaded name = true
  settled : ∀ {name e}, earlier.Settled name e → later.Settled name e
  failed : ∀ {name e}, .event (.loadFailed name e) ∈ later.since earlier → later.Settled name e
  loaded : ∀ {name}, .event (.loaded name) ∈ later.since earlier →
    later.registry.isLoaded name = true
  fresh : ∀ {name e}, later.registry.freshFailure? name = some e →
    earlier.registry.freshFailure? name = some e ∨
      .event (.loadFailed name e) ∈ later.since earlier
  busy : ∀ {name}, name ∈ earlier.registry.loading → later.tries earlier name = 0
  done : ∀ {name e}, earlier.Settled name e → later.tries earlier name = 0
  once : ∀ name, later.tries earlier name ≤ 1

/-- A run without an end of an attempt, which may publish modules. -/
theorem Tries.of_quiet {s t : Session σ} (quiet : ∀ name, t.tries s name = 0)
    (published : ∀ {name}, s.registry.isLoaded name = true → t.registry.isLoaded name = true)
    (settled : ∀ {name e}, s.Settled name e → t.Settled name e)
    (fresh : ∀ {name e}, t.registry.freshFailure? name = some e →
      s.registry.freshFailure? name = some e) : Tries s t where
  published := published
  settled := settled
  failed h := by
    have := tries_pos_of_failed h
    simp [quiet] at this
  loaded h := by
    have := tries_pos_of_loaded h
    simp [quiet] at this
  fresh h := .inl (fresh h)
  busy _ := quiet _
  done _ := quiet _
  once name := by simp [quiet name]

theorem Tries.refl (s : Session σ) : s.Tries s :=
  .of_quiet (tries_self s) (fun h => h) (fun h => h) (fun h => h)

/-- A second part of a run attempts nothing that the first part has attempted. -/
theorem Tries.trans {s t u : Session σ} (g₁ : Grows s t) (g₂ : Grows t u) (steady : s.Steady t)
    (first : s.Tries t) (second : t.Tries u) : s.Tries u where
  published h := second.published (first.published h)
  settled h := second.settled (first.settled h)
  failed h := by
    rw [since_trans g₁ g₂, List.mem_append] at h
    exact h.elim second.failed fun h => second.settled (first.failed h)
  loaded h := by
    rw [since_trans g₁ g₂, List.mem_append] at h
    exact h.elim second.loaded fun h => second.published (first.loaded h)
  fresh h := by
    rw [since_trans g₁ g₂, List.mem_append]
    rcases second.fresh h with h | h
    · exact (first.fresh h).imp_right .inr
    · exact .inr (.inl h)
  busy h := by
    rw [tries_trans g₁ g₂, first.busy h, second.busy (steady.loading ▸ h)]
  done h := by
    rw [tries_trans g₁ g₂, first.done h, second.done (first.settled h)]
  once name := by
    rw [tries_trans g₁ g₂]
    have h₁ := first.once name
    have h₂ := second.once name
    -- An attempt that ended in the first part has settled the name.
    by_cases ended : 0 < t.tries s name
    · have settled : ∃ e, t.Settled name e := by
        rcases failed_or_loaded_of_tries_pos ended with ⟨e, he⟩ | hl
        · exact ⟨e, first.failed he⟩
        · exact ⟨.moduleNotFound name, .inl (first.loaded hl)⟩
      obtain ⟨e, he⟩ := settled
      rw [second.done he]
      omega
    · omega

/-! ## The parts of linking -/

theorem settled_enter {s : Session σ} {name : String} {e : LinkError}
    (inside : 0 < s.registry.depth) : (s.change .enter).Settled name e ↔ s.Settled name e := by
  rw [Settled, Settled, freshFailure?_enter inside]
  rfl

theorem Tries.frame {s t : Session σ} (inside : 0 < s.registry.depth)
    (h : (s.change .enter).Tries t) : s.Tries (t.change .leave) where
  published := h.published
  settled hs := h.settled ((settled_enter inside).mpr hs)
  failed := h.failed
  loaded := h.loaded
  fresh hf := (h.fresh hf).imp_left fun before => freshFailure?_enter inside _ ▸ before
  busy := h.busy
  done hs := h.done ((settled_enter inside).mpr hs)
  once := h.once

theorem Tries.pop {s t : Session σ} {requester : String}
    (h : (s.change (·.push requester)).Tries t) : s.Tries (t.change .pop) where
  published := h.published
  settled := h.settled
  failed := h.failed
  loaded := h.loaded
  fresh := h.fresh
  busy hl := h.busy (List.mem_append_left _ hl)
  done := h.done
  once := h.once

theorem Tries.publish (s : Session σ) (m : Module) : s.Tries (s.publish m).2 := by
  have loaded : ∀ {name}, s.registry.isLoaded name = true →
      (s.publish m).2.registry.isLoaded name = true := by
    intro name h
    obtain ⟨m', hm'⟩ := Registry.isLoaded_iff.mp h
    rw [Registry.isLoaded_iff, module?_publish]
    split
    · exact ⟨_, rfl⟩
    · exact ⟨m', hm'⟩
  have fresh : ∀ name, (s.publish m).2.registry.freshFailure? name =
      if m.name = name then none else s.registry.freshFailure? name :=
    s.registry.freshFailure?_publish m
  refine .of_quiet (fun name => ?_) loaded ?_ (fun {name e} hf => ?_)
  · rw [tries, since_publish, List.countP_singleton, Registry.attempts_publishEvent]
    rfl
  · rintro name e (hl | hf)
    · exact .inl (loaded hl)
    · by_cases hn : m.name = name
      · refine .inl (Registry.isLoaded_iff.mpr ?_)
        rw [module?_publish, if_pos hn]
        exact ⟨_, rfl⟩
      · exact .inr ((fresh name).trans (if_neg hn) ▸ hf)
  · rw [fresh] at hf
    split at hf
    · cases hf
    · exact hf

theorem tries_of_opened {s t : Session σ} {name : String} (g : Grows (s.opened name) t)
    (other : String) : t.tries s other = t.tries (s.opened name) other := by
  have began : (s.opened name).tries s other = 0 := by
    rw [tries, since_opened]
    rfl
  rw [tries_trans (grows_opened s name) g, began, Nat.add_zero]

/-- While the loader is called for a name, no attempt to load it can end. -/
theorem untried_of_opened {s t : Session σ} {name : String} (g : Grows (s.opened name) t)
    (h : (s.opened name).Tries t) : t.tries s name = 0 := by
  rw [tries_of_opened g]
  exact h.busy (List.mem_append_right _ (List.mem_singleton_self _))

theorem Tries.of_opened {s t : Session σ} {name : String} (g : Grows (s.opened name) t)
    (h : (s.opened name).Tries t) : s.Tries t where
  published := h.published
  settled := h.settled
  failed he := by
    rw [since_trans (grows_opened s name) g, since_opened] at he
    exact h.failed (by simpa using he)
  loaded he := by
    rw [since_trans (grows_opened s name) g, since_opened] at he
    exact h.loaded (by simpa using he)
  fresh hf := by
    rw [since_trans (grows_opened s name) g]
    exact (h.fresh hf).imp_right (List.mem_append_left _)
  busy hl := (tries_of_opened g _).trans (h.busy (List.mem_append_left _ hl))
  done hs := (tries_of_opened g _).trans (h.done hs)
  once other := (tries_of_opened g other).symm ▸ h.once other

structure Ends (name : String) (earlier later : Session σ) : Prop where
  grows : earlier.Grows later
  tries : ∀ other, later.tries earlier other = if name = other then 1 else 0
  others : ∀ {other}, name ≠ other →
    later.registry.isLoaded other = earlier.registry.isLoaded other ∧
      later.registry.freshFailure? other = earlier.registry.freshFailure? other
  failed : ∀ {e}, .event (.loadFailed name e) ∈ later.since earlier → later.Settled name e
  loaded : .event (.loaded name) ∈ later.since earlier → later.registry.isLoaded name = true
  fresh : ∀ {e}, later.registry.freshFailure? name = some e →
    earlier.registry.freshFailure? name = some e ∨
      .event (.loadFailed name e) ∈ later.since earlier

theorem freshFailure?_discard (s : Session σ) (discarded name : String) :
    (s.discard discarded).registry.freshFailure? name = s.registry.freshFailure? name := by
  unfold discard
  split <;> rfl

theorem tries_discard (s : Session σ) (discarded name : String) :
    (s.discard discarded).tries s name = 0 := by
  refine List.countP_eq_zero.mpr fun e he => ?_
  rw [eq_of_mem_since_discard he]
  exact Bool.false_ne_true

theorem tries_recordFailure (s : Session σ) (failed name : String) (e : LinkError) :
    (s.recordFailure failed e).tries s name = if failed = name then 1 else 0 := by
  rw [tries, since_recordFailure, List.countP_singleton]
  simp only [Entry.attempts, beq_iff_eq]

theorem ends_absent (s : Session σ) (name : String) (e : LinkError) :
    s.Ends name (s.recordFailure name e) where
  grows := grows_recordFailure s name e
  tries other := tries_recordFailure s name other e
  others hne := ⟨rfl, (Registry.freshFailure?_recordFailure ..).trans (if_neg hne)⟩
  failed he := by
    rw [since_recordFailure, List.mem_singleton, Entry.event.injEq, Event.loadFailed.injEq] at he
    rw [he.2]
    exact .inr ((Registry.freshFailure?_recordFailure ..).trans (if_pos rfl))
  loaded he := by
    rw [since_recordFailure, List.mem_singleton, Entry.event.injEq] at he
    cases he
  fresh hf := by
    have recorded : (s.recordFailure name e).registry.freshFailure? name = some e :=
      (Registry.freshFailure?_recordFailure ..).trans (if_pos rfl)
    rw [recorded, Option.some.injEq] at hf
    rw [hf, since_recordFailure]
    exact .inr (List.mem_singleton_self _)

/-- A failed load ends like one without a loader, after the module has been withdrawn. -/
theorem ends_failed (t : Session σ) (name : String) (e : LinkError) :
    t.Ends name ((t.closed.discard name).recordFailure name e) := by
  have recorded := ends_absent (t.closed.discard name) name e
  have withdrawn : Grows t (t.closed.discard name) := grows_discard t.closed name
  constructor
  case grows => exact grows_withdraw t name e
  case tries =>
    intro other
    have quiet : (t.closed.discard name).tries t other = 0 := tries_discard t.closed name other
    rw [tries_trans withdrawn recorded.grows, recorded.tries, quiet, Nat.add_zero]
  case others =>
    intro other hne
    refine ⟨?_, ?_⟩
    · rw [Registry.isLoaded_eq, Registry.isLoaded_eq, module?_withdraw t e hne]
    · exact (recorded.others hne).2.trans (freshFailure?_discard t.closed name other)
  case failed =>
    intro e' he
    rcases mem_since_withdraw he with heq | heq
    · refine recorded.failed ?_
      rw [heq, since_recordFailure]
      exact List.mem_singleton_self _
    · cases heq
  case loaded =>
    intro he
    rcases mem_since_withdraw he with heq | heq <;> cases heq
  case fresh =>
    intro e' hf
    rw [since_trans withdrawn recorded.grows, List.mem_append]
    rcases recorded.fresh hf with hf | he
    · rw [freshFailure?_discard] at hf
      exact .inl hf
    · exact .inr (.inl he)

theorem ends_loaded {t : Session σ} {name : String} {m : Shared Module}
    (h : t.registry.module? name = some m) : t.Ends name (t.closed.log (.loaded name)) := by
  have since : (t.closed.log (.loaded name)).since t = [.event (.loaded name)] := since_eq _ rfl
  refine ⟨grows_log t (.loaded name), fun other => ?_, fun _ => ⟨rfl, rfl⟩, fun he => ?_,
    fun _ => Registry.isLoaded_iff.mpr ⟨m, h⟩, fun hf => .inl hf⟩
  · rw [tries, since, List.countP_singleton]
    simp only [Entry.attempts, beq_iff_eq]
  · rw [since, List.mem_singleton, Entry.event.injEq] at he
    cases he

namespace Ends

variable {s t : Session σ} {name other : String} {e : LinkError}

theorem eq_of_tries_pos (h : s.Ends name t) (pos : 0 < t.tries s other) : name = other := by
  by_contra hne
  rw [h.tries, if_neg hne] at pos
  exact Nat.lt_irrefl _ pos

theorem settled (h : s.Ends name t) (hne : name ≠ other) (hs : s.Settled other e) :
    t.Settled other e := by
  rw [Settled, (h.others hne).1, (h.others hne).2]
  exact hs

theorem fresh_or_failed (h : s.Ends name t) (hf : t.registry.freshFailure? other = some e) :
    s.registry.freshFailure? other = some e ∨ .event (.loadFailed other e) ∈ t.since s := by
  by_cases hne : name = other
  · subst hne
    exact h.fresh hf
  · rw [(h.others hne).2] at hf
    exact .inl hf

end Ends

/-- An attempt begins while its name is not settled, and makes no other attempt of that name, so it
is the only one. -/
theorem Tries.ended {s t u : Session σ} {name : String} (vacant : s.Vacant name) (g : Grows s t)
    (h : s.Tries t) (untried : t.tries s name = 0) (ends : t.Ends name u) : s.Tries u := by
  have ne_of_settled : ∀ {other e}, s.Settled other e → name ≠ other := by
    rintro other e hs rfl
    exact vacant.not_settled e hs
  have ne_of_tried : ∀ {other}, 0 < t.tries s other → name ≠ other := by
    rintro other pos rfl
    rw [untried] at pos
    exact Nat.lt_irrefl _ pos
  constructor
  case published =>
    intro other hl
    have hne := ne_of_settled (e := .moduleNotFound other) (.inl hl)
    rw [(ends.others hne).1]
    exact h.published hl
  case settled =>
    intro other e hs
    exact ends.settled (ne_of_settled hs) (h.settled hs)
  case failed =>
    intro other e he
    rw [since_trans g ends.grows, List.mem_append] at he
    rcases he with he | he
    · obtain rfl := ends.eq_of_tries_pos (tries_pos_of_failed he)
      exact ends.failed he
    · exact ends.settled (ne_of_tried (tries_pos_of_failed he)) (h.failed he)
  case loaded =>
    intro other he
    rw [since_trans g ends.grows, List.mem_append] at he
    rcases he with he | he
    · obtain rfl := ends.eq_of_tries_pos (tries_pos_of_loaded he)
      exact ends.loaded he
    · rw [(ends.others (ne_of_tried (tries_pos_of_loaded he))).1]
      exact h.loaded he
  case fresh =>
    intro other e hf
    rw [since_trans g ends.grows, List.mem_append]
    rcases ends.fresh_or_failed hf with hf | he
    · exact (h.fresh hf).imp_right .inr
    · exact .inr (.inl he)
  case busy =>
    intro other hl
    have hne : name ≠ other := by
      rintro rfl
      exact vacant.offStack hl
    rw [tries_trans g ends.grows, ends.tries, if_neg hne, h.busy hl]
  case done =>
    intro other e hs
    rw [tries_trans g ends.grows, ends.tries, if_neg (ne_of_settled hs), h.done hs]
  case once =>
    intro other
    rw [tries_trans g ends.grows, ends.tries]
    split
    · next heq =>
        rw [← heq]
        omega
    · rw [Nat.zero_add]
      exact h.once other

structure Attempting (earlier later : Session σ) : Prop where
  grows : earlier.Grows later
  steady : earlier.Steady later
  tries : 0 < earlier.registry.depth → earlier.Tries later

theorem Attempting.trans {s t u : Session σ} (first : s.Attempting t) (second : t.Attempting u) :
    s.Attempting u where
  grows := first.grows.trans second.grows
  steady := first.steady.trans second.steady
  tries inside := .trans first.grows second.grows first.steady (first.tries inside)
    (second.tries (first.steady.depth ▸ inside))

theorem lawful_attempting : Lawful (Attempting (σ := σ)) where
  refl s := ⟨.refl s, .refl s, fun _ => .refl s⟩
  trans := .trans
  find s module symbol kind :=
    ⟨lawful_grows.find s module symbol kind, lawful_steady.find s module symbol kind, fun _ =>
      .of_quiet (fun _ => by rw [tries, since_log]; rfl) (fun h => h) (fun h => h) (fun h => h)⟩
  frame h := ⟨lawful_grows.frame h.grows, .frame h.steady, fun inside =>
    .frame inside (h.tries (Nat.succ_pos _))⟩
  construct hl h := ⟨lawful_grows.construct hl h.grows, .pop h.steady, fun inside =>
    .pop (h.tries inside)⟩
  publish s m := ⟨grows_publish s m, lawful_steady.publish s m, fun _ => .publish s m⟩
  replace s loader := ⟨.refl s, lawful_steady.replace s loader, fun _ =>
    .of_quiet (tries_self s) (fun h => h) (fun h => h) (fun h => h)⟩
  desk s desk := ⟨grows_withDesk s desk, lawful_steady.desk s desk, fun _ =>
    .of_quiet (fun _ => by rw [tries, since_withDesk, List.countP_eq_zero]; simp [Entry.attempts])
      (fun h => h) (fun h => h) (fun h => h)⟩
  absent := by
    intro s name vacant hl
    refine ⟨lawful_grows.absent vacant hl, lawful_steady.absent vacant hl, fun _ => ?_⟩
    exact Tries.ended vacant (.refl s) (.refl s) (tries_self s name) (ends_absent s name _)
  failed := by
    intro s t name e vacant h
    refine ⟨lawful_grows.failed e vacant h.grows, lawful_steady.failed e vacant h.steady,
      fun inside => ?_⟩
    have ran := h.tries inside
    exact .ended vacant ((grows_opened s name).trans h.grows) (.of_opened h.grows ran)
      (untried_of_opened h.grows ran) (ends_failed t name e)
  loaded := by
    intro s t name m vacant h hm
    refine ⟨lawful_grows.loaded vacant h.grows hm, lawful_steady.loaded vacant h.steady hm,
      fun inside => ?_⟩
    have ran := h.tries inside
    exact .ended vacant ((grows_opened s name).trans h.grows) (.of_opened h.grows ran)
      (untried_of_opened h.grows ran) (ends_loaded hm)

end Session

end MibLinker
