import Mathlib.Order.RelClasses
import MibLinker.Proofs.Graph.Placement

/-!
# What the search for cycles leaves behind

A search leaves a name only after it has entered and left all its dependencies, so going on from
there to dependencies comes to an end. It has room for all names of the graph. Hence where it finds
no cycle there is none, and a graph that has a dependency order has no cycle.
-/

namespace MibLinker.Graph

variable {g : Graph}

namespace Trail

variable {t u v : Trail} {name : String}

def unvisited (g : Graph) (t : Trail) : Nat := g.names.countP fun name => name ∉ t.visited

/-- What holds of a trail as long as no cycle has been found: what is on the stack has been visited,
and from a name that has been left, going on to dependencies comes to an end. -/
structure Tidy (g : Graph) (t : Trail) : Prop where
  stacked : ∀ name ∈ t.onStack, name ∈ t.visited
  finished : ∀ name ∈ t.visited, name ∉ t.onStack →
    Acc (fun dependency name => g.DependsOn name dependency) name

structure Explored (g : Graph) (t : Trail) (names : List String) (u : Trail) : Prop where
  tidy : u.Tidy g
  same : t.SameStack u
  grown : ∀ name ∈ t.visited, name ∈ u.visited
  left : ∀ name ∈ names, name ∈ u.visited ∧ name ∉ u.onStack

theorem mem_visited_enter {other : String} :
    other ∈ (t.enter name).visited ↔ name = other ∨ other ∈ t.visited := by
  simp [enter]

theorem mem_onStack_enter {other : String} :
    other ∈ (t.enter name).onStack ↔ name = other ∨ other ∈ t.onStack := by
  simp [enter]

theorem mem_onStack_leave {other : String} :
    other ∈ (t.leave name).onStack ↔ name ≠ other ∧ other ∈ t.onStack := by
  simp [leave]

theorem tidy_start : start.Tidy g where
  stacked name h := by simp [start] at h
  finished name h := by simp [start] at h

theorem Tidy.enter (h : t.Tidy g) (name : String) : (t.enter name).Tidy g where
  stacked other stacked := by
    rw [mem_onStack_enter] at stacked
    rw [mem_visited_enter]
    exact stacked.imp_right (h.stacked other)
  finished other visited left := by
    rw [mem_onStack_enter, not_or] at left
    rw [mem_visited_enter] at visited
    exact h.finished other (visited.resolve_left left.1) left.2

/-- A name can be left once all its dependencies have been. -/
theorem Tidy.leave (h : u.Tidy g)
    (left : ∀ dependency ∈ g.successors name, dependency ∈ u.visited ∧ dependency ∉ u.onStack) :
    (u.leave name).Tidy g where
  stacked other stacked := h.stacked other (mem_onStack_leave.mp stacked).2
  finished other visited off := by
    rw [mem_onStack_leave, not_and'] at off
    by_cases stacked : other ∈ u.onStack
    · obtain rfl : name = other := not_not.mp (off stacked)
      refine ⟨_, fun dependency dep => ?_⟩
      obtain ⟨seen, gone⟩ := left dependency dep
      exact h.finished dependency seen gone
    · exact h.finished other visited stacked

/-! ## Room for the search -/

theorem unvisited_pos (known : name ∈ g.names) (new : name ∉ t.visited) : 0 < t.unvisited g :=
  List.countP_pos_iff.mpr ⟨name, known, by simpa using new⟩

theorem unvisited_enter (known : name ∈ g.names) (new : name ∉ t.visited) :
    (t.enter name).unvisited g < t.unvisited g := by
  have fewer : ∀ names : List String, names.countP (fun other => other ∉ (t.enter name).visited) ≤
      names.countP fun other => other ∉ t.visited := by
    intro names
    apply List.countP_mono_left
    intro other _ unseen
    simp only [mem_visited_enter, decide_eq_true_eq, not_or] at unseen ⊢
    exact unseen.2
  obtain ⟨before, after, split⟩ := List.append_of_mem known
  have seen : name ∈ (t.enter name).visited := mem_visited_enter.mpr (.inl rfl)
  have first := fewer before
  have last := fewer after
  simp only [unvisited, split, List.countP_append, List.countP_cons, decide_not, seen, new,
    decide_true, decide_false, Bool.not_true, Bool.not_false] at first last ⊢
  simp only [Bool.false_eq_true, if_false, if_true]
  omega

theorem unvisited_le_of_grown (grown : ∀ name ∈ t.visited, name ∈ u.visited) :
    u.unvisited g ≤ t.unvisited g := by
  apply List.countP_mono_left
  intro name _ unseen
  simp only [decide_eq_true_eq] at unseen ⊢
  exact fun seen => unseen (grown name seen)

/-! ## Parts of a search -/

namespace Explored

theorem trans {first rest : List String} (h : t.Explored g first u) (h' : u.Explored g rest v) :
    t.Explored g (first ++ rest) v where
  tidy := h'.tidy
  same := ⟨h'.same.onStack.trans h.same.onStack, h'.same.path.trans h.same.path⟩
  grown name seen := h'.grown name (h.grown name seen)
  left name hn := by
    rcases List.mem_append.mp hn with hn | hn
    · obtain ⟨seen, gone⟩ := h.left name hn
      exact ⟨h'.grown name seen, h'.same.onStack ▸ gone⟩
    · exact h'.left name hn

/-- A name that was left before needs no search. -/
theorem of_left (tidy : t.Tidy g) (seen : name ∈ t.visited) (gone : name ∉ t.onStack) :
    t.Explored g [name] t where
  tidy := tidy
  same := ⟨rfl, rfl⟩
  grown _ seen := seen
  left other hn := by
    obtain rfl := List.mem_singleton.mp hn
    exact ⟨seen, gone⟩

theorem leave (tidy : t.Tidy g) (new : name ∉ t.visited)
    (h : (t.enter name).Explored g (g.successors name) u) : t.Explored g [name] (u.leave name) where
  tidy := h.tidy.leave h.left
  same := .leave (fun stacked => new (tidy.stacked name stacked)) h.same
  grown other seen := h.grown other (mem_visited_enter.mpr (.inr seen))
  left other hn := by
    obtain rfl := List.mem_singleton.mp hn
    exact ⟨h.grown other (mem_visited_enter.mpr (.inl rfl)),
      fun stacked => (mem_onStack_leave.mp stacked).1 rfl⟩

end Explored

end Trail

theorem visitAll_explored {visit : String → Trail → Option (List String) × Trail} {room : Nat}
    (visited : ∀ {name t u}, t.Tidy g → t.unvisited g ≤ room → name ∈ g.names → name ∉ t.visited →
      visit name t = (none, u) → t.Explored g [name] u)
    {names : List String} {t u : Trail} (tidy : t.Tidy g) (enough : t.unvisited g ≤ room)
    (known : ∀ name ∈ names, name ∈ g.names) (h : visitAll visit names t = (none, u)) :
    t.Explored g names u := by
  induction names generalizing t with
  | nil =>
      obtain rfl := (Prod.mk.inj h).2
      exact ⟨tidy, ⟨rfl, rfl⟩, fun _ seen => seen, fun _ hn => (List.not_mem_nil hn).elim⟩
  | cons name rest ih =>
      have others : ∀ other ∈ rest, other ∈ g.names := fun other ho => known other (.tail _ ho)
      rw [visitAll] at h
      by_cases stacked : name ∈ t.onStack
      · rw [if_pos stacked] at h
        cases (Prod.mk.inj h).1
      · rw [if_neg stacked] at h
        by_cases seen : name ∈ t.visited
        · rw [if_pos seen] at h
          exact (Trail.Explored.of_left tidy seen stacked).trans (ih tidy enough others h)
        · rw [if_neg seen] at h
          rcases hv : visit name t with ⟨_ | path, v⟩ <;> rw [hv] at h
          · have first := visited tidy enough (known name (.head _)) seen hv
            have less := Trail.unvisited_le_of_grown (g := g) first.grown
            exact first.trans (ih first.tidy (Nat.le_trans less enough) others h)
          · cases (Prod.mk.inj h).1

/-- A search that has room for the names it has yet to enter, and finds no cycle, has entered and
left the name that it was for. -/
theorem search_explored (room : Nat) {name : String} {t u : Trail} (tidy : t.Tidy g)
    (enough : t.unvisited g ≤ room) (known : name ∈ g.names) (new : name ∉ t.visited)
    (h : g.search room name t = (none, u)) : t.Explored g [name] u := by
  induction room generalizing name t u with
  | zero =>
      have some := Trail.unvisited_pos known new
      omega
  | succ room ih =>
      have fewer := Trail.unvisited_enter known new
      have onward : ∀ dependency ∈ g.successors name, dependency ∈ g.names :=
        fun dependency (dep : g.DependsOn name dependency) => dep.mem_names.2
      rw [search] at h
      rcases hv : visitAll (g.search room) (g.successors name) (t.enter name) with
        ⟨_ | path, v⟩ <;> rw [hv] at h
      · obtain rfl := (Prod.mk.inj h).2
        exact .leave tidy new
          (visitAll_explored ih (tidy.enter name) (by omega) onward hv)
      · cases (Prod.mk.inj h).1

/-- A graph in which the search finds no cycle has none. -/
theorem acyclic_of_detectCycle (h : g.detectCycle = none) : g.Acyclic := by
  rcases hv : visitAll (g.search g.names.length) g.modules Trail.start with ⟨cycle, u⟩
  obtain rfl : cycle = none := by rw [← h, detectCycle, hv]
  have explored := visitAll_explored (search_explored g.names.length) Trail.tidy_start
    List.countP_le_length (fun _ => mem_names_of_mem_modules) hv
  have ends : WellFounded fun dependency name => g.DependsOn name dependency := by
    refine ⟨fun name => ⟨_, fun dependency dep => ?_⟩⟩
    obtain ⟨deps, hd, -⟩ := dependsOn_iff.mp dep
    obtain ⟨seen, gone⟩ := explored.left name (mem_modules.mpr ⟨deps, hd⟩)
    exact (explored.tidy.finished name seen gone).inv dep
  intro name back
  exact ends.transGen.asymmetric name name back.swap back.swap

theorem detectCycle_eq_none_iff : g.detectCycle = none ↔ g.Acyclic :=
  ⟨acyclic_of_detectCycle, detectCycle_eq_none⟩

theorem exists_dependencyOrder_iff :
    (∃ order, g.dependencyOrder = .ok order) ↔ g.Acyclic := by
  rw [← detectCycle_eq_none_iff, dependencyOrder]
  cases g.detectCycle <;> simp

/-- A dependency order is one of the whole graph. -/
theorem orders_of_dependencyOrder (simple : g.Simple) {order : List String}
    (h : g.dependencyOrder = .ok order) : g.Orders order := by
  have acyclic : g.Acyclic := exists_dependencyOrder_iff.mp ⟨order, h⟩
  obtain ⟨order', h', orders⟩ := exists_dependencyOrder simple acyclic
  obtain rfl := Except.ok.inj (h.symm.trans h')
  exact orders

end MibLinker.Graph
