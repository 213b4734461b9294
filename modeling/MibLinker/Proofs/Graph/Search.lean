import MibLinker.Graph.Cycle
import MibLinker.Proofs.Paths

/-!
# What the search for cycles finds

The path of a search is a chain of dependencies, so a dependency that is on it closes a circuit. A
search that finds none leaves its stack as it was. So an acyclic graph is found to be one.
-/

namespace MibLinker.Graph

def DependsOn (g : Graph) (module dependency : String) : Prop := dependency ∈ g.successors module

instance (g : Graph) (module dependency : String) : Decidable (g.DependsOn module dependency) :=
  inferInstanceAs (Decidable (dependency ∈ g.successors module))

def Acyclic (g : Graph) : Prop := ∀ name, ¬ Relation.TransGen g.DependsOn name name

namespace Trail

/-- Whether a trail is that of a search that has gone down a chain of dependencies, none of them
twice. -/
structure Sound (g : Graph) (t : Trail) : Prop where
  chain : t.path.IsChain g.DependsOn
  nodup : t.path.Nodup
  onStack : ∀ name, name ∈ t.onStack ↔ name ∈ t.path

structure SameStack (t u : Trail) : Prop where
  onStack : u.onStack = t.onStack
  path : u.path = t.path

variable {g : Graph} {t u : Trail} {name : String}

theorem sound_start : start.Sound g :=
  ⟨.nil, List.nodup_nil, fun name => by simp [start]⟩

theorem Sound.of_same (h : t.Sound g) (same : t.SameStack u) : u.Sound g where
  chain := same.path ▸ h.chain
  nodup := same.path ▸ h.nodup
  onStack := by
    rw [same.onStack, same.path]
    exact h.onStack

theorem Sound.enter (h : t.Sound g) (leads : (t.path ++ [name]).IsChain g.DependsOn)
    (new : name ∉ t.onStack) : (t.enter name).Sound g where
  chain := leads
  nodup := by
    have absent : name ∉ t.path := fun hp => new ((h.onStack name).mpr hp)
    have reversed : (name :: t.path).Nodup := List.nodup_cons.mpr ⟨absent, h.nodup⟩
    exact (List.perm_append_singleton name t.path).nodup_iff.mpr reversed
  onStack other := by
    simp only [Trail.enter, Std.ExtTreeSet.mem_insert, Std.compare_eq_iff_eq, h.onStack other,
      List.mem_append, List.mem_singleton]
    rw [or_comm, eq_comm]

theorem SameStack.leave (new : name ∉ t.onStack) (h : (t.enter name).SameStack u) :
    t.SameStack (u.leave name) where
  onStack := by
    apply Std.ExtTreeSet.ext_mem
    intro other
    simp only [Trail.leave, h.onStack, Trail.enter, Std.ExtTreeSet.mem_erase,
      Std.ExtTreeSet.mem_insert, Std.compare_eq_iff_eq]
    by_cases heq : name = other
    · simp [← heq, new]
    · simp [heq]
  path := by
    show u.path.dropLast = t.path
    rw [h.path, Trail.enter, List.dropLast_concat]

theorem drop_idxOf? {names : List String} (h : name ∈ names) :
    names.drop ((names.idxOf? name).getD 0) = names.dropWhile (· != name) := by
  induction names with
  | nil => cases h
  | cons first rest ih =>
      by_cases heq : first = name
      · simp [List.idxOf?_cons, heq]
      · have later : name ∈ rest := (List.mem_cons.mp h).resolve_left (Ne.symm heq)
        obtain ⟨k, hk⟩ := Option.isSome_iff_exists.mp (List.isSome_idxOf?.mpr later)
        have inner := ih later
        rw [hk, Option.getD_some] at inner
        simp [List.idxOf?_cons, heq, hk, inner]

theorem Sound.circuit (h : t.Sound g) (leads : (t.path ++ [name]).IsChain g.DependsOn)
    (stacked : name ∈ t.onStack) : Circuit g.DependsOn (t.cycle name) := by
  have met : name ∈ t.path := (h.onStack name).mp stacked
  rw [cycle, drop_idxOf? met]
  exact .of_stack h.nodup leads met

end Trail

def Searched (g : Graph) (t : Trail) (result : Option (List String) × Trail) : Prop :=
  match result.1 with
  | some path => Circuit g.DependsOn path
  | none => t.SameStack result.2

variable {g : Graph}

theorem visitAll_searched {visit : String → Trail → Option (List String) × Trail}
    (visited : ∀ {name t}, t.Sound g → (t.path ++ [name]).IsChain g.DependsOn → name ∉ t.onStack →
      g.Searched t (visit name t))
    {names : List String} {t : Trail} (sound : t.Sound g)
    (leads : ∀ name ∈ names, (t.path ++ [name]).IsChain g.DependsOn) :
    g.Searched t (visitAll visit names t) := by
  induction names generalizing t with
  | nil => exact ⟨rfl, rfl⟩
  | cons name rest ih =>
      have first := leads name (.head _)
      have later : ∀ {u : Trail}, t.SameStack u →
          ∀ other ∈ rest, (u.path ++ [other]).IsChain g.DependsOn := fun same other ho =>
        same.path ▸ leads other (.tail _ ho)
      rw [visitAll]
      split
      · next stacked => exact sound.circuit first stacked
      · next new =>
          split
          · exact ih sound (later ⟨rfl, rfl⟩)
          · have inner := visited sound first new
            rcases hv : visit name t with ⟨_ | path, u⟩ <;> rw [hv] at inner
            · have same : t.SameStack u := inner
              have outer := ih (sound.of_same same) (later same)
              show g.Searched t (visitAll visit rest u)
              unfold Searched at outer ⊢
              split at outer
              · exact outer
              · exact ⟨outer.onStack.trans same.onStack, outer.path.trans same.path⟩
            · exact inner

theorem search_searched (room : Nat) {name : String} {t : Trail} (sound : t.Sound g)
    (leads : (t.path ++ [name]).IsChain g.DependsOn) (new : name ∉ t.onStack) :
    g.Searched t (g.search room name t) := by
  induction room generalizing name t with
  | zero => exact ⟨rfl, rfl⟩
  | succ room ih =>
      have onward : ∀ other ∈ g.successors name,
          ((t.enter name).path ++ [other]).IsChain g.DependsOn := by
        intro other ho
        rw [Trail.enter, List.append_assoc]
        exact List.isChain_append_cons_cons.mpr ⟨leads, ho, .singleton _⟩
      have inner := visitAll_searched ih (sound.enter leads new) onward
      rw [search]
      rcases hv : visitAll (g.search room) (g.successors name) (t.enter name) with ⟨_ | path, u⟩ <;>
        rw [hv] at inner
      · exact Trail.SameStack.leave new inner
      · exact inner

theorem circuit_of_detectCycle {path : List String} (h : g.detectCycle = some path) :
    Circuit g.DependsOn path := by
  have searched : g.Searched .start (visitAll (g.search g.names.length) g.modules .start) :=
    visitAll_searched (search_searched g.names.length) Trail.sound_start fun _ _ => .singleton _
  unfold Searched at searched
  rw [show (visitAll (g.search g.names.length) g.modules .start).1 = some path from h] at searched
  exact searched

theorem detectCycle_eq_none (acyclic : g.Acyclic) : g.detectCycle = none := by
  rcases h : g.detectCycle with _ | path
  · rfl
  · obtain ⟨name, back⟩ := (circuit_of_detectCycle h).exists_transGen
    exact (acyclic name back).elim

end MibLinker.Graph
