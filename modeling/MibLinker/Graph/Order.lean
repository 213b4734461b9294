import MibLinker.Graph.Cycle
import MibLinker.LinkError

/-!
# Dependency order

The names of an acyclic graph, each after everything that it depends on. A name waits for as many
others as its dependency list is long; once that many have been placed, it joins a queue, from which
the names are placed in turn.
-/

namespace MibLinker.Graph

structure Sorting where
  /-- For each name, how many of its dependencies have not been placed. -/
  waiting : Std.ExtTreeMap String Nat
  /-- The names whose dependencies have all been placed, in order of their turn. -/
  queue : List String
  placed : List String

/-- How many dependencies each name of the graph waits for at the start. -/
def waitingAtStart (g : Graph) : Std.ExtTreeMap String Nat :=
  g.edges.toList.foldl (fun waiting (module, deps) =>
    deps.foldl (fun waiting dep => waiting.insertIfNew dep 0)
      (waiting.insert module (waiting.getD module 0 + deps.length))) ∅

/-- The start of a sort: the names that depend on nothing are queued in increasing order. -/
def sortingAtStart (g : Graph) : Sorting :=
  let waiting := g.waitingAtStart
  ⟨waiting, (waiting.toList.filter fun (_, count) => count == 0).map Prod.fst, []⟩

/-- One dependency of a name has been placed. -/
def Sorting.release (s : Sorting) (name : String) : Sorting :=
  match s.waiting[name]? with
  | none => s
  | some count =>
      { s with
        waiting := s.waiting.insert name (count - 1)
        queue := if count - 1 = 0 then s.queue ++ [name] else s.queue }

/-- Places the first name of the queue, and releases those that depend on it. -/
def Sorting.place (g : Graph) (s : Sorting) (name : String) (rest : List String) : Sorting :=
  (g.dependents name).foldl Sorting.release { s with queue := rest, placed := s.placed ++ [name] }

/-- Places names until the queue is empty, at most `turns` of them. -/
def Sorting.run (g : Graph) : Nat → Sorting → Sorting
  | 0, s => s
  | turns + 1, s =>
      match s.queue with
      | [] => s
      | name :: rest => Sorting.run g turns (s.place g name rest)

/-- All names in dependency order, or the cycle that rules such an order out. -/
def dependencyOrder (g : Graph) : Except LinkError (List String) :=
  match g.detectCycle with
  | some cycle => .error (.circularDependency cycle)
  | none => .ok (Sorting.run g g.names.length g.sortingAtStart).placed

end MibLinker.Graph
