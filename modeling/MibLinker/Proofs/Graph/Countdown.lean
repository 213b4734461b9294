import Mathlib.Logic.Function.Iterate
import MibLinker.Proofs.Graph.Changes

/-!
# Counting down to a place

A name waits for as many others as its dependency list is long, and each of these that is placed
counts one off. The lengths and the lists of those that wait for a name are two ways to count the
same edges, since no dependency list has a name twice. So at every turn of a sort each count tells
how many dependencies have not been placed. No count that is lowered was zero, a name joins the
queue when its count comes to zero and not again, and in an acyclic graph there are as many turns as
names.
-/

namespace MibLinker.Graph

variable {g : Graph} {name : String}

/-! ## Who waits for a name -/

/-- Enters a module into the lists of those that wait, for each name in its dependency list. -/
def enlist (lists : Std.ExtTreeMap String (List String)) (entry : String × List String) :
    Std.ExtTreeMap String (List String) :=
  entry.2.foldl (fun lists dep => lists.insert dep (lists.getD dep [] ++ [entry.1])) lists

/-- For each name the modules that wait for it, made edge by edge from the dependency lists. -/
def waiters (g : Graph) : Std.ExtTreeMap String (List String) := g.edges.toList.foldl enlist ∅

theorem getD_enlist (lists : Std.ExtTreeMap String (List String)) (entry : String × List String) :
    (enlist lists entry).getD name [] =
      lists.getD name [] ++ List.replicate (entry.2.count name) entry.1 := by
  obtain ⟨module, deps⟩ := entry
  unfold enlist
  induction deps generalizing lists with
  | nil => simp
  | cons dep rest ih =>
      rw [List.foldl_cons, ih, Std.ExtTreeMap.getD_insert, List.count_cons]
      by_cases heq : dep = name
      · subst heq
        simp [List.replicate_succ]
      · simp [heq]

/-- A module is entered once for each time that its dependency list holds the name. -/
theorem getD_waiters (g : Graph) (name : String) :
    g.waiters.getD name [] =
      g.edges.toList.flatMap fun entry => List.replicate (entry.2.count name) entry.1 := by
  have entered : ∀ (entries : List (String × List String)) lists,
      (entries.foldl enlist lists).getD name [] = lists.getD name [] ++
        entries.flatMap fun entry => List.replicate (entry.2.count name) entry.1 := by
    intro entries
    induction entries with
    | nil => simp
    | cons entry rest ih =>
        intro lists
        rw [List.foldl_cons, ih, getD_enlist, List.flatMap_cons, List.append_assoc]
  rw [waiters, entered, Std.ExtTreeMap.getD_empty, List.nil_append]

theorem waiters_eq_dependents (simple : g.Simple) (name : String) :
    g.waiters.getD name [] = g.dependents name := by
  have once : ∀ entries : List (String × List String), (∀ entry ∈ entries, entry.2.Nodup) →
      (entries.flatMap fun entry => List.replicate (entry.2.count name) entry.1) =
        (entries.filter fun entry => entry.2.contains name).map Prod.fst := by
    intro entries nodup
    induction entries with
    | nil => rfl
    | cons entry rest ih =>
        obtain ⟨first, others⟩ := List.forall_mem_cons.mp nodup
        rw [List.flatMap_cons, ih others]
        by_cases listed : name ∈ entry.2
        · simp [listed, List.count_eq_one_of_mem first listed]
        · simp [listed, List.count_eq_zero_of_not_mem listed]
  rw [getD_waiters]
  refine once g.edges.toList ?_
  rintro ⟨module, deps⟩ he
  have own : g.successors module = deps := by
    rw [successors, mem_entries.mp he, Option.getD_some]
  exact own ▸ simple module

/-! ## Turn by turn -/

namespace Sorting

variable {s : Sorting}

def turn (g : Graph) (s : Sorting) : Sorting :=
  match s.queue with
  | [] => s
  | next :: rest => s.place g next rest

/-- A sort in the middle of a turn, when the first name of the queue has been placed and some of its
dependents have been released. -/
def releasing (s : Sorting) (next : String) (rest released : List String) : Sorting :=
  released.foldl release { s with queue := rest, placed := s.placed ++ [next] }

/-- The names that join the queue at a turn: what stands in it afterwards behind those that were
waiting there. -/
def joining (g : Graph) (s : Sorting) : List String :=
  (s.turn g).queue.drop (s.queue.length - 1)

theorem turn_of_empty (empty : s.queue = []) : s.turn g = s := by
  rw [turn, empty]

theorem turn_of_queue {next : String} {rest : List String} (queue : s.queue = next :: rest) :
    s.turn g = s.releasing next rest (g.dependents next) := by
  rw [turn, queue]
  rfl

theorem run_of_empty (empty : s.queue = []) (turns : Nat) : run g turns s = s := by
  cases turns with
  | zero => rfl
  | succ turns => rw [run, empty]

theorem run_eq_iterate (turns : Nat) (s : Sorting) : run g turns s = (turn g)^[turns] s := by
  induction turns generalizing s with
  | zero => rfl
  | succ turns ih =>
      rw [Function.iterate_succ_apply, ← ih]
      cases queue : s.queue with
      | nil => rw [turn_of_empty queue, run_of_empty queue, run_of_empty queue]
      | cons next rest => rw [turn_of_queue queue, run, queue]; rfl

theorem Sound.turn (h : s.Sound g) (simple : g.Simple) : (s.turn g).Sound g := by
  cases queue : s.queue with
  | nil => rwa [turn_of_empty queue]
  | cons next rest =>
      rw [turn_of_queue queue]
      exact h.place simple queue

theorem placed_turn {next : String} {rest : List String} (queue : s.queue = next :: rest) :
    (s.turn g).placed = s.placed ++ [next] := by
  rw [turn_of_queue queue]
  exact placed_foldl_release _ _

/-- What has been placed and what is queued are together what was, and what joins at the turn. -/
theorem placed_append_queue_turn (g : Graph) (s : Sorting) :
    (s.turn g).placed ++ (s.turn g).queue = s.placed ++ s.queue ++ s.joining g := by
  cases queue : s.queue with
  | nil => simp [joining, turn_of_empty queue, queue]
  | cons next rest =>
      have behind : ∃ joined, (s.turn g).queue = rest ++ joined := by
        rw [turn_of_queue queue]
        exact ⟨_, queue_foldl_release (g.nodup_dependents next) _⟩
      obtain ⟨joined, behind⟩ := behind
      rw [joining, placed_turn queue, queue, behind]
      simp

/-- A name that is about to be released is counted as waiting, for the name just placed besides
others. -/
theorem Sound.waiting_releasing (h : s.Sound g) (simple : g.Simple) {next : String}
    {rest released others : List String} (queue : s.queue = next :: rest)
    (split : g.dependents next = released ++ name :: others) :
    (s.releasing next rest released).waiting[name]? =
      some (g.pending (s.placed ++ [next]) name + 1) := by
  have nodup := g.nodup_dependents next
  rw [split] at nodup
  have absent : name ∉ released := fun hr =>
    (List.nodup_append.mp nodup).2.2 name hr name (.head _) rfl
  have dep : g.DependsOn name next := mem_dependents.mp (split ▸ by simp)
  have new : next ∉ s.placed := h.not_mem_placed (queue ▸ .head _)
  have count : g.pending s.placed name = g.pending (s.placed ++ [next]) name + 1 := by
    rw [pending_concat simple new, if_pos dep]
  rw [releasing, waiting_foldl_release (List.nodup_append.mp nodup).1, if_neg absent, ← count]
  exact h.waiting name dep.mem_names.1

theorem waiting_turn_of_unknown (unknown : s.waiting[name]? = none) :
    (s.turn g).waiting[name]? = none := by
  cases queue : s.queue with
  | nil => rwa [turn_of_empty queue]
  | cons next rest =>
      rw [turn_of_queue queue, releasing, waiting_foldl_release (g.nodup_dependents next)]
      simp [unknown]

/-- In an acyclic graph the queue does not run dry before all names are placed. -/
theorem Sound.queue_eq_nil_iff (h : s.Sound g) (acyclic : g.Acyclic) :
    s.queue = [] ↔ g.names.length ≤ s.placed.length := by
  constructor
  · intro empty
    exact (nodup_names g).length_le_of_subset fun name hn => h.complete acyclic empty hn
  · intro all
    have fewer := h.length_le
    exact List.length_eq_zero_iff.mp (by omega)

end Sorting

def sortingAt (g : Graph) (turns : Nat) : Sorting := Sorting.run g turns g.sortingAtStart

/-- The names that have entered the queue of the sort before a turn, in order and as often as they
have. -/
def queued (g : Graph) (turns : Nat) : List String :=
  g.sortingAtStart.queue ++ (List.range turns).flatMap fun turn => (g.sortingAt turn).joining g

theorem sortingAt_succ (g : Graph) (turns : Nat) :
    g.sortingAt (turns + 1) = (g.sortingAt turns).turn g := by
  rw [sortingAt, sortingAt, Sorting.run_eq_iterate, Sorting.run_eq_iterate,
    Function.iterate_succ_apply']

theorem sound_sortingAt (simple : g.Simple) (turns : Nat) : (g.sortingAt turns).Sound g := by
  induction turns with
  | zero => exact Sorting.sound_start g
  | succ turns ih => exact sortingAt_succ g turns ▸ ih.turn simple

theorem waiting_sortingAt (simple : g.Simple) (turns : Nat) (name : String) :
    (g.sortingAt turns).waiting[name]? =
      if name ∈ g.names then some (g.pending (g.sortingAt turns).placed name) else none := by
  split
  · next known => exact (sound_sortingAt simple turns).waiting name known
  · next unknown =>
      induction turns with
      | zero => exact Std.ExtTreeMap.getElem?_eq_none fun hn => unknown (mem_waitingAtStart.mp hn)
      | succ turns ih => exact sortingAt_succ g turns ▸ Sorting.waiting_turn_of_unknown ih

/-- Each turn places one name, until all are placed. -/
theorem length_placed_sortingAt (simple : g.Simple) (acyclic : g.Acyclic) (turns : Nat) :
    (g.sortingAt turns).placed.length = min turns g.names.length := by
  induction turns with
  | zero => simp [sortingAt, Sorting.run, sortingAtStart]
  | succ turns ih =>
      have dry := (sound_sortingAt simple turns).queue_eq_nil_iff acyclic
      rw [sortingAt_succ]
      cases queue : (g.sortingAt turns).queue with
      | nil =>
          have all := dry.mp queue
          rw [Sorting.turn_of_empty queue]
          omega
      | cons next rest =>
          have more : ¬ g.names.length ≤ (g.sortingAt turns).placed.length := fun all =>
            List.cons_ne_nil next rest (queue.symm.trans (dry.mpr all))
          rw [Sorting.placed_turn queue, List.length_append, List.length_singleton]
          omega

theorem queued_eq (g : Graph) (turns : Nat) :
    g.queued turns = (g.sortingAt turns).placed ++ (g.sortingAt turns).queue := by
  induction turns with
  | zero => simp [queued, sortingAt, Sorting.run, sortingAtStart]
  | succ turns ih =>
      rw [sortingAt_succ, Sorting.placed_append_queue_turn, ← ih, queued, queued, List.range_succ,
        List.flatMap_append, List.append_assoc]
      simp

/-- However an acyclic graph has been made, the counts of its sort are right at every turn: there is
one for each name, and it tells how many dependencies of the name have not been placed. Those that a
turn releases are entered edge by edge. A count that is lowered is not zero, and what is left tells
how many others are waited for. Every name enters the queue once, and the queue is empty after as
many turns as there are names and not before. -/
theorem sort_counts_exact (changes : List Change)
    (acyclic : ¬ ∃ name, Relation.TransGen (ofChanges changes).DependsOn name name) :
    let g := ofChanges changes
    g.dependencyOrder = .ok (g.sortingAt g.names.length).placed ∧
      (∀ turns name, (g.sortingAt turns).waiting[name]? =
        if name ∈ g.names then some (g.pending (g.sortingAt turns).placed name) else none) ∧
      (∀ name, g.waiters.getD name [] = g.dependents name) ∧
      (∀ turns next rest, (g.sortingAt turns).queue = next :: rest →
        ∀ released name others, g.dependents next = released ++ name :: others →
          ((g.sortingAt turns).releasing next rest released).waiting[name]? =
            some (g.pending ((g.sortingAt turns).placed ++ [next]) name + 1)) ∧
      (∀ name, (g.queued g.names.length).count name = if name ∈ g.names then 1 else 0) ∧
      ∀ turns, (g.sortingAt turns).queue = [] ↔ g.names.length ≤ turns := by
  intro g
  have simple : g.Simple := simple_ofChanges changes
  have free : g.Acyclic := not_exists.mp acyclic
  have length := length_placed_sortingAt simple free
  have dry : ∀ turns, (g.sortingAt turns).queue = [] ↔ g.names.length ≤ turns := by
    intro turns
    rw [(sound_sortingAt simple turns).queue_eq_nil_iff free, length]
    omega
  have last := sound_sortingAt simple g.names.length
  have empty := (dry g.names.length).mpr (Nat.le_refl _)
  refine ⟨?_, waiting_sortingAt simple, waiters_eq_dependents simple,
    fun turns next rest queue released name others split =>
      (sound_sortingAt simple turns).waiting_releasing simple queue split, fun name => ?_, dry⟩
  · rw [dependencyOrder, detectCycle_eq_none free]
    rfl
  · have all : name ∈ g.queued g.names.length ↔ name ∈ g.names := by
      rw [queued_eq, last.ready]
      refine and_iff_left_of_imp fun known => ?_
      have placed := last.complete free empty known
      exact ((last.ready name).mp (List.mem_append_left _ placed)).2
    have nodup : (g.queued g.names.length).Nodup := queued_eq g _ ▸ last.nodup
    rw [nodup.count, if_congr all rfl rfl]

def dangling : List Change :=
  [.addDependency "A" "B", .addDependency "A" "C", .setDependencies "B" ["D", "C", "D"],
    .removeModule "C", .addModule "E"]

/-- The removed module is counted and placed like the others, and both that wait for it are counted
down by one. -/
theorem sort_counts_exact_of_dangling :
    let g := ofChanges dangling
    (¬ ∃ name, Relation.TransGen g.DependsOn name name) ∧ "C" ∉ g.modules ∧
      (g.sortingAt 0).queue = ["C", "D", "E"] ∧ g.dependents "C" = ["A", "B"] ∧
      (g.sortingAt 0).waiting["B"]? = some 2 ∧
      ((g.sortingAt 0).releasing "C" ["D", "E"] ["A"]).waiting["B"]? =
        some (g.pending ["C"] "B" + 1) ∧
      g.waiters.getD "C" [] = g.dependents "C" ∧ (g.queued 5).count "C" = 1 ∧
      (g.sortingAt 4).queue ≠ [] ∧ (g.sortingAt 5).queue = [] ∧
      g.dependencyOrder = .ok (g.sortingAt 5).placed := by
  intro g
  have acyclic : ¬ ∃ name, Relation.TransGen g.DependsOn name name := fun ⟨name, back⟩ =>
    acyclic_of_detectCycle (by decide) name back
  obtain ⟨order, -, entered, lowered, once, ends⟩ := sort_counts_exact dangling acyclic
  have names : g.names = ["A", "B", "C", "D", "E"] := by decide
  have queue : (g.sortingAt 0).queue = ["C", "D", "E"] := by decide
  have dependents : g.dependents "C" = ["A", "B"] := by decide
  rw [names] at order once ends
  exact ⟨acyclic, by decide, queue, dependents, by decide,
    lowered 0 "C" ["D", "E"] queue ["A"] "B" [] dependents, entered "C", once "C",
    fun dry => absurd ((ends 4).mp dry) (by decide), (ends 5).mpr (by decide), order⟩

end MibLinker.Graph
