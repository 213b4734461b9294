import Mathlib.Data.Fintype.Card
import Mathlib.Data.Fintype.EquivFin
import Mathlib.Data.Fintype.Sets
import MibLinker.Proofs.Graph.Counts

/-!
# Placing the names of a graph

At every turn of a sort each name waits for those of its dependencies that have not been placed, and
the names that wait for nothing have been placed or are in the queue. So what has been placed is in
dependency order; and in an acyclic graph the queue does not run dry before all names are placed.
-/

namespace MibLinker.Graph

variable {g : Graph} {name : String}

/-- How many dependencies of a name are not among those placed. -/
def pending (g : Graph) (placed : List String) (name : String) : Nat :=
  (g.successors name).countP fun dependency => dependency ∉ placed

/-- Whether no dependency list has a name twice. -/
def Simple (g : Graph) : Prop := ∀ name, (g.successors name).Nodup

theorem pending_eq_zero_iff {placed : List String} :
    g.pending placed name = 0 ↔ ∀ dependency ∈ g.successors name, dependency ∈ placed := by
  simp [pending, List.countP_eq_zero]

theorem pending_nil : g.pending [] name = (g.successors name).length := by
  simp [pending]

theorem pending_concat (simple : g.Simple) {placed : List String} {next : String}
    (new : next ∉ placed) :
    g.pending placed name =
      g.pending (placed ++ [next]) name + if g.DependsOn name next then 1 else 0 := by
  have count : ∀ {deps : List String}, deps.Nodup →
      deps.countP (fun dependency => dependency ∉ placed) =
        deps.countP (fun dependency => dependency ∉ placed ++ [next]) +
          if next ∈ deps then 1 else 0 := by
    intro deps nodup
    induction deps with
    | nil => rfl
    | cons dep rest ih =>
        obtain ⟨absent, nodup⟩ := List.nodup_cons.mp nodup
        have inner := ih nodup
        rw [List.countP_cons, List.countP_cons, inner]
        by_cases heq : dep = next
        · subst heq
          simp [new, absent]
        · have hne : ¬ next = dep := fun h => heq h.symm
          have same : dep ∈ placed ++ [next] ↔ dep ∈ placed := by simp [heq]
          simp only [same, List.mem_cons, hne, false_or]
          omega
  exact count (simple name)

/-- Going from a name to its dependencies comes to an end in an acyclic graph, as it has finitely
many names. -/
theorem Acyclic.wellFounded (h : g.Acyclic) :
    WellFounded fun dependency name => g.DependsOn name dependency := by
  let Below (dependency name : {name // name ∈ g.names}) : Prop :=
    Relation.TransGen g.DependsOn name dependency
  have : IsTrans {name // name ∈ g.names} Below := ⟨fun _ _ _ first second => second.trans first⟩
  have : Std.Irrefl Below := ⟨fun name => h name⟩
  have below : WellFounded Below := Finite.wellFounded_of_trans_of_irrefl Below
  have known : ∀ name : {name // name ∈ g.names},
      Acc (fun dependency name => g.DependsOn name dependency) name.1 := by
    intro name
    induction name using below.induction with
    | _ name ih =>
        refine ⟨_, fun dependency dep => ?_⟩
        exact ih ⟨dependency, dep.mem_names.2⟩ (.single dep)
  exact ⟨fun name => ⟨_, fun dependency dep => known ⟨dependency, dep.mem_names.2⟩⟩⟩

/-! ## One turn -/

namespace Sorting

theorem placed_foldl_release (names : List String) (s : Sorting) :
    (names.foldl release s).placed = s.placed := by
  induction names generalizing s with
  | nil => rfl
  | cons first rest ih =>
      rw [List.foldl_cons, ih, release]
      split <;> rfl

theorem waiting_release (s : Sorting) (released name : String) :
    (s.release released).waiting[name]? =
      if released = name then (s.waiting[name]?).map (· - 1) else s.waiting[name]? := by
  cases h : s.waiting[released]? with
  | none =>
      simp only [release, h]
      split
      · next heq => rw [← heq, h, Option.map_none]
      · rfl
  | some count =>
      simp only [release, h, Std.ExtTreeMap.getElem?_insert, Std.compare_eq_iff_eq]
      split
      · next heq => rw [← heq, h, Option.map_some]
      · rfl

theorem waiting_foldl_release {names : List String} (nodup : names.Nodup) (s : Sorting)
    (name : String) :
    (names.foldl release s).waiting[name]? =
      if name ∈ names then (s.waiting[name]?).map (· - 1) else s.waiting[name]? := by
  induction names generalizing s with
  | nil => rfl
  | cons first rest ih =>
      obtain ⟨absent, nodup⟩ := List.nodup_cons.mp nodup
      rw [List.foldl_cons, ih nodup, waiting_release]
      by_cases heq : first = name
      · subst heq
        simp [absent]
      · have hne : ¬ name = first := fun h => heq h.symm
        simp [heq, hne]

theorem queue_release (s : Sorting) (released : String) :
    (s.release released).queue =
      s.queue ++ [released].filter fun name => (s.waiting[name]?).map (· - 1) = some 0 := by
  cases h : s.waiting[released]? with
  | none => simp [release, h]
  | some count => by_cases hc : count - 1 = 0 <;> simp [release, h, hc]

/-- The names that are released join the queue in turn, if they wait for nothing more. -/
theorem queue_foldl_release {names : List String} (nodup : names.Nodup) (s : Sorting) :
    (names.foldl release s).queue =
      s.queue ++ names.filter fun name => (s.waiting[name]?).map (· - 1) = some 0 := by
  induction names generalizing s with
  | nil => simp
  | cons first rest ih =>
      obtain ⟨absent, nodup⟩ := List.nodup_cons.mp nodup
      have later : (rest.filter fun name =>
            ((s.release first).waiting[name]?).map (· - 1) = some 0) =
          rest.filter fun name => (s.waiting[name]?).map (· - 1) = some 0 := by
        apply List.filter_congr
        intro name hn
        have hne : first ≠ name := fun h => absent (h ▸ hn)
        rw [waiting_release, if_neg hne]
      rw [List.foldl_cons, ih nodup, later, queue_release, List.append_assoc, ← List.filter_append]
      rfl

structure Sound (g : Graph) (s : Sorting) : Prop where
  waiting : ∀ name ∈ g.names, s.waiting[name]? = some (g.pending s.placed name)
  nodup : (s.placed ++ s.queue).Nodup
  ready : ∀ name, name ∈ s.placed ++ s.queue ↔ name ∈ g.names ∧ g.pending s.placed name = 0
  ordered : ∀ before name after, s.placed = before ++ name :: after →
    ∀ dependency ∈ g.successors name, dependency ∈ before

theorem sound_start (g : Graph) : g.sortingAtStart.Sound g where
  waiting name hn := by
    show g.waitingAtStart[name]? = some (g.pending [] name)
    rw [getElem?_waitingAtStart hn, pending_nil]
  nodup := nodup_keys_filter g.waitingAtStart _
  ready name := by
    show name ∈ (g.waitingAtStart.toList.filter fun entry => entry.2 == 0).map Prod.fst ↔
      name ∈ g.names ∧ g.pending [] name = 0
    have queued : name ∈ (g.waitingAtStart.toList.filter fun entry => entry.2 == 0).map Prod.fst ↔
        g.waitingAtStart[name]? = some 0 := by
      simp [Std.ExtTreeMap.mem_toList_iff_getElem?_eq_some]
    rw [queued, pending_nil]
    by_cases hn : name ∈ g.names
    · simp [getElem?_waitingAtStart hn, hn]
    · have absent : name ∉ g.waitingAtStart := fun h => hn (mem_waitingAtStart.mp h)
      simp [Std.ExtTreeMap.getElem?_eq_none absent, hn]
  ordered before name after h := by
    have empty : ([] : List String) = before ++ name :: after := h
    simp at empty

theorem Sound.not_mem_placed {s : Sorting} (h : s.Sound g) (queued : name ∈ s.queue) :
    name ∉ s.placed := fun placed =>
  (List.nodup_append.mp h.nodup).2.2 name placed name queued rfl

theorem Sound.length_le {s : Sorting} (h : s.Sound g) :
    s.placed.length + s.queue.length ≤ g.names.length := by
  have within : s.placed ++ s.queue ⊆ g.names := fun name hn => ((h.ready name).mp hn).1
  rw [← List.length_append]
  exact h.nodup.length_le_of_subset within

/-- Placing the first name of the queue keeps a sort sound. -/
theorem Sound.place {s : Sorting} (h : s.Sound g) (simple : g.Simple) {next : String}
    {rest : List String} (queue : s.queue = next :: rest) : (s.place g next rest).Sound g := by
  have nodup : (s.placed ++ [next] ++ rest).Nodup := by
    simpa [queue] using h.nodup
  have new : next ∉ s.placed := h.not_mem_placed (queue ▸ .head _)
  obtain ⟨known, waitless⟩ := (h.ready next).mp (by simp [queue])
  have released := g.nodup_dependents next
  have placed : (s.place g next rest).placed = s.placed ++ [next] := placed_foldl_release _ _
  have pending : ∀ name, g.pending s.placed name =
      g.pending (s.placed ++ [next]) name + if g.DependsOn name next then 1 else 0 :=
    fun name => pending_concat simple new
  have joined : (s.place g next rest).queue = rest ++ (g.dependents next).filter fun name =>
      (s.waiting[name]?).map (· - 1) = some 0 := queue_foldl_release released _
  -- Those that join the queue are the dependents that wait for nothing but the name placed.
  have joins : ∀ name, name ∈ ((g.dependents next).filter fun name =>
      (s.waiting[name]?).map (· - 1) = some 0) ↔
        g.DependsOn name next ∧ g.pending (s.placed ++ [next]) name = 0 := by
    intro name
    rw [List.mem_filter, mem_dependents]
    refine and_congr_right fun dep => ?_
    have count := pending name
    rw [if_pos dep] at count
    rw [h.waiting name dep.mem_names.1, count]
    simp
  constructor
  case waiting =>
    intro name hn
    have after : (s.place g next rest).waiting[name]? = if name ∈ g.dependents next
        then (s.waiting[name]?).map (· - 1) else s.waiting[name]? :=
      waiting_foldl_release released _ name
    rw [after, placed, h.waiting name hn, pending name]
    by_cases dep : g.DependsOn name next
    · simp [mem_dependents.mpr dep, dep]
    · simp [mem_dependents, dep]
  case ready =>
    intro name
    rw [placed, joined, ← List.append_assoc, List.mem_append, joins]
    have old : name ∈ s.placed ++ [next] ++ rest ↔
        name ∈ g.names ∧ g.pending s.placed name = 0 := by
      rw [← h.ready name, queue]
      simp
    rw [old, pending name]
    by_cases dep : g.DependsOn name next
    · simp [dep, dep.mem_names.1]
    · simp [dep]
  case nodup =>
    rw [placed, joined, ← List.append_assoc]
    refine List.nodup_append.mpr ⟨nodup, released.filter _, ?_⟩
    rintro name old _ joining rfl
    have waits : 0 < g.pending s.placed name := by
      rw [pending name, if_pos ((joins name).mp joining).1]
      omega
    have ready : name ∈ s.placed ++ s.queue := by simpa [queue] using old
    have := ((h.ready name).mp ready).2
    omega
  case ordered =>
    intro before name after split
    rw [placed] at split
    rcases List.eq_nil_or_concat after with rfl | ⟨front, last, rfl⟩
    · obtain ⟨rfl, last⟩ := List.append_inj' split rfl
      obtain rfl : next = name := by simpa using last
      exact pending_eq_zero_iff.mp waitless
    · have shifted : s.placed ++ [next] = (before ++ name :: front) ++ [last] := by
        simpa using split
      exact h.ordered before name front (List.append_inj' shifted rfl).1

/-! ## All turns -/

/-- A sort with enough turns for all names ends with an empty queue. -/
theorem Sound.run {s : Sorting} (h : s.Sound g) (simple : g.Simple) {turns : Nat}
    (enough : g.names.length ≤ turns + s.placed.length) :
    (Sorting.run g turns s).Sound g ∧ (Sorting.run g turns s).queue = [] := by
  induction turns generalizing s with
  | zero =>
      refine ⟨h, List.length_eq_zero_iff.mp ?_⟩
      have fewer := h.length_le
      show s.queue.length = 0
      omega
  | succ turns ih =>
      cases hq : s.queue with
      | nil => simpa [Sorting.run, hq] using h
      | cons next rest =>
          have placed : (s.place g next rest).placed = s.placed ++ [next] :=
            placed_foldl_release _ _
          simp only [Sorting.run, hq]
          apply ih (h.place simple hq)
          rw [placed, List.length_append, List.length_singleton]
          omega

/-- With an empty queue, a name that is not placed waits for another one; this cannot go on for ever
in an acyclic graph. -/
theorem Sound.complete {s : Sorting} (h : s.Sound g) (acyclic : g.Acyclic) (empty : s.queue = [])
    (hn : name ∈ g.names) : name ∈ s.placed := by
  induction name using acyclic.wellFounded.induction with
  | _ name ih =>
      have waitless : g.pending s.placed name = 0 := by
        refine pending_eq_zero_iff.mpr fun dependency hd => ?_
        have dep : g.DependsOn name dependency := hd
        exact ih dependency dep dep.mem_names.2
      simpa [empty] using (h.ready name).mpr ⟨hn, waitless⟩

end Sorting

/-! ## The order -/

/-- Whether a list holds the names of a graph once each, and each after its dependencies. -/
structure Orders (g : Graph) (order : List String) : Prop where
  nodup : order.Nodup
  mem_iff : ∀ name, name ∈ order ↔ name ∈ g.names
  ordered : ∀ before name after, order = before ++ name :: after →
    ∀ dependency ∈ g.successors name, dependency ∈ before

/-- An acyclic graph has a dependency order. -/
theorem exists_dependencyOrder (simple : g.Simple) (acyclic : g.Acyclic) :
    ∃ order, g.dependencyOrder = .ok order ∧ g.Orders order := by
  obtain ⟨sound, empty⟩ := (Sorting.sound_start g).run simple (Nat.le_add_right _ _)
  refine ⟨(Sorting.run g g.names.length g.sortingAtStart).placed, ?_, ?_⟩
  · rw [dependencyOrder, detectCycle_eq_none acyclic]
  · have placed := sound.ready
    rw [empty, List.append_nil] at placed
    constructor
    case nodup => simpa [empty] using sound.nodup
    case mem_iff =>
      exact fun name => ⟨fun h => ((placed name).mp h).1, sound.complete acyclic empty⟩
    case ordered => exact sound.ordered

theorem Orders.idxOf_lt {order : List String} (h : g.Orders order) {dependency : String}
    (dep : g.DependsOn name dependency) : order.idxOf dependency < order.idxOf name := by
  obtain ⟨before, after, rfl⟩ := List.append_of_mem ((h.mem_iff name).mpr dep.mem_names.1)
  have earlier := h.ordered before name after rfl dependency dep
  have absent : name ∉ before := fun hb =>
    (List.nodup_append.mp h.nodup).2.2 name hb name (.head _) rfl
  rw [List.idxOf_append_of_mem earlier, List.idxOf_append_of_notMem absent]
  have := List.idxOf_lt_length_of_mem earlier
  omega

end MibLinker.Graph
