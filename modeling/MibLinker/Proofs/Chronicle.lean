import MibLinker.Proofs.Moment

/-!
# What the journal tells

Only the registry makes the entries that are events, and it never takes one back. So the entries that
a session has made since an earlier one tell what went on in between, in the scripts that were run
too: what was published, for which names a loader was called, and how each attempt to load ended.
-/

namespace MibLinker

variable {σ : Type}

namespace Entry

def publishes (name : String) : Entry → Bool
  | event (.publishing module _) => module == name
  | event (.republishing module) => module == name
  | _ => false

def calls (name : String) : Entry → Bool
  | event (.loading module _) => module == name
  | _ => false

/-- Whether an entry tells that an attempt to load a name has ended, with or without success. -/
def attempts (name : String) : Entry → Bool
  | event (.loaded module) => module == name
  | event (.loadFailed module _) => module == name
  | _ => false

end Entry

/-! The entry of a publication tells of that and of nothing else. -/

namespace Registry

theorem publishes_publishEvent (r : Registry) (m : Module) :
    (Entry.event (r.publishEvent m)).publishes m.name = true := by
  unfold publishEvent
  split <;> exact beq_self_eq_true _

theorem calls_publishEvent (r : Registry) (m : Module) (name : String) :
    (Entry.event (r.publishEvent m)).calls name = false := by
  unfold publishEvent
  split <;> rfl

theorem attempts_publishEvent (r : Registry) (m : Module) (name : String) :
    (Entry.event (r.publishEvent m)).attempts name = false := by
  unfold publishEvent
  split <;> rfl

end Registry

namespace Session

/-- The entries that a session has made since an earlier one, the last one first. -/
def since (later earlier : Session σ) : List Entry :=
  later.journal.take (later.journal.length - earlier.journal.length)

theorem since_eq {later earlier : Session σ} (entries : List Entry)
    (h : later.journal = entries ++ earlier.journal) : later.since earlier = entries := by
  rw [since, h, List.length_append, Nat.add_sub_cancel, List.take_left]

def Grows (earlier later : Session σ) : Prop :=
  later.journal = later.since earlier ++ earlier.journal

theorem Grows.of_append {earlier later : Session σ} (entries : List Entry)
    (h : later.journal = entries ++ earlier.journal) : Grows earlier later := by
  rw [Grows, since_eq entries h, h]

theorem Grows.refl (s : Session σ) : Grows s s := .of_append [] rfl

theorem Grows.trans {s t u : Session σ} (first : Grows s t) (second : Grows t u) : Grows s u := by
  refine .of_append (u.since t ++ t.since s) ?_
  rw [second, first, List.append_assoc]

theorem since_trans {s t u : Session σ} (first : Grows s t) (second : Grows t u) :
    u.since s = u.since t ++ t.since s := by
  refine since_eq _ ?_
  rw [second, first, List.append_assoc]

theorem mem_since {s t u v : Session σ} {e : Entry} (before : Grows s t) (inside : Grows t u)
    (after : Grows u v) (h : e ∈ u.since t) : e ∈ v.since s := by
  rw [since_trans (before.trans inside) after, since_trans before inside]
  exact List.mem_append_right _ (List.mem_append_left _ h)

/-! ## Counting -/

def tries (later earlier : Session σ) (name : String) : Nat :=
  (later.since earlier).countP (Entry.attempts name)

def loaderCalls (later earlier : Session σ) (name : String) : Nat :=
  (later.since earlier).countP (Entry.calls name)

theorem tries_self (s : Session σ) (name : String) : s.tries s name = 0 := by
  rw [tries, since_eq [] rfl, List.countP_nil]

theorem loaderCalls_self (s : Session σ) (name : String) : s.loaderCalls s name = 0 := by
  rw [loaderCalls, since_eq [] rfl, List.countP_nil]

theorem tries_trans {s t u : Session σ} (first : Grows s t) (second : Grows t u) (name : String) :
    u.tries s name = u.tries t name + t.tries s name := by
  rw [tries, since_trans first second, List.countP_append]
  rfl

theorem loaderCalls_trans {s t u : Session σ} (first : Grows s t) (second : Grows t u)
    (name : String) : u.loaderCalls s name = u.loaderCalls t name + t.loaderCalls s name := by
  rw [loaderCalls, since_trans first second, List.countP_append]
  rfl

/-! ## One entry -/

theorem since_log (s : Session σ) (e : Event) : (s.log e).since s = [.event e] := since_eq _ rfl

theorem grows_log (s : Session σ) (e : Event) : Grows s (s.log e) :=
  .of_append [.event e] rfl

theorem mem_since_log {s t : Session σ} (before : Grows s t) (e : Event) :
    .event e ∈ (t.log e).since s := by
  rw [since_trans before (grows_log t e), since_log]
  exact .head _

theorem since_withDesk (s : Session σ) (desk : Desk σ) :
    (s.withDesk desk).since s = desk.remarks.map .remark := since_eq _ rfl

theorem grows_withDesk (s : Session σ) (desk : Desk σ) : Grows s (s.withDesk desk) :=
  .of_append (desk.remarks.map .remark) rfl

theorem since_publish (s : Session σ) (m : Module) :
    (s.publish m).2.since s = [.event (s.registry.publishEvent m)] := since_eq _ rfl

theorem grows_publish (s : Session σ) (m : Module) : Grows s (s.publish m).2 :=
  .of_append [.event (s.registry.publishEvent m)] rfl

theorem since_opened (s : Session σ) (name : String) :
    (s.opened name).since s = [.event (.loading name s.registry.activeLoads)] := since_eq _ rfl

theorem loaderCalls_opened (s : Session σ) (name other : String) :
    (s.opened name).loaderCalls s other = if name = other then 1 else 0 := by
  rw [loaderCalls, since_opened, List.countP_singleton]
  simp only [Entry.calls, beq_iff_eq]

theorem grows_opened (s : Session σ) (name : String) : Grows s (s.opened name) :=
  .of_append [.event (.loading name s.registry.activeLoads)] rfl

theorem grows_discard (s : Session σ) (name : String) : Grows s (s.discard name) := by
  unfold discard
  split
  · exact grows_log s (.discarding name)
  · exact .refl s

theorem eq_of_mem_since_discard {s : Session σ} {name : String} {e : Entry}
    (h : e ∈ (s.discard name).since s) : e = .event (.discarding name) := by
  unfold discard at h
  split at h
  · have logged : ((s.log (.discarding name)).change (·.discard name)).since s =
        [.event (.discarding name)] := since_eq _ rfl
    rw [logged] at h
    exact List.mem_singleton.mp h
  · rw [since_eq [] rfl] at h
    exact (List.not_mem_nil h).elim

theorem since_recordFailure (s : Session σ) (name : String) (e : LinkError) :
    (s.recordFailure name e).since s = [.event (.loadFailed name e)] := since_eq _ rfl

theorem grows_recordFailure (s : Session σ) (name : String) (e : LinkError) :
    Grows s (s.recordFailure name e) := grows_log s (.loadFailed name e)

theorem grows_withdraw (t : Session σ) (name : String) (e : LinkError) :
    Grows t ((t.closed.discard name).recordFailure name e) :=
  Grows.trans (t := t.closed.discard name) (grows_discard t.closed name) (grows_recordFailure _ _ _)

theorem mem_since_withdraw {t : Session σ} {name : String} {e : LinkError} {entry : Entry}
    (h : entry ∈ ((t.closed.discard name).recordFailure name e).since t) :
    entry = .event (.loadFailed name e) ∨ entry = .event (.discarding name) := by
  have split := since_trans (t := t.closed.discard name) (grows_discard t.closed name)
    (grows_recordFailure _ name e)
  change entry ∈ ((t.closed.discard name).recordFailure name e).since t.closed at h
  rw [split, since_recordFailure, List.mem_append, List.mem_singleton] at h
  exact h.imp_right eq_of_mem_since_discard

/-! ## Without a loader call -/

theorem loaderCalls_log {s : Session σ} {e : Event} {name : String}
    (quiet : (Entry.event e).calls name = false) : (s.log e).loaderCalls s name = 0 := by
  rw [loaderCalls, since_log, List.countP_singleton, quiet]
  rfl

theorem loaderCalls_publish (s : Session σ) (m : Module) (name : String) :
    (s.publish m).2.loaderCalls s name = 0 :=
  loaderCalls_log (Registry.calls_publishEvent s.registry m name)

theorem loaderCalls_withDesk (s : Session σ) (desk : Desk σ) (name : String) :
    (s.withDesk desk).loaderCalls s name = 0 := by
  rw [loaderCalls, since_withDesk, List.countP_eq_zero]
  simp [Entry.calls]

theorem loaderCalls_withdraw (t : Session σ) (failed : String) (e : LinkError) (name : String) :
    ((t.closed.discard failed).recordFailure failed e).loaderCalls t name = 0 := by
  refine List.countP_eq_zero.mpr fun entry he => ?_
  rcases mem_since_withdraw he with rfl | rfl <;> exact Bool.false_ne_true

theorem lawful_grows : Lawful (Grows (σ := σ)) where
  refl := .refl
  trans := .trans
  find s _ _ _ := grows_log s _
  frame inside := inside
  construct _ inside := inside
  publish := grows_publish
  replace s _ := .refl s
  desk := grows_withDesk
  absent _ _ := grows_recordFailure _ _ _
  failed e _ inside := ((grows_opened _ _).trans inside).trans (grows_withdraw _ _ e)
  loaded _ inside _ := ((grows_opened _ _).trans inside).trans (grows_log _ _)

end Session

end MibLinker
