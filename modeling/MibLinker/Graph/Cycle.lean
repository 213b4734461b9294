import Std.Data.ExtTreeSet
import MibLinker.Graph

/-!
# Cycles of the dependency graph

A depth-first search from every module in increasing order. The search carries a trail: the names it
has visited, the names on its stack, and the same stack as a path. A dependency that is on the stack
closes a cycle, and the path tells which.
-/

namespace MibLinker.Graph

abbrev NameSet := Std.ExtTreeSet String

/-- All names of a graph in increasing order: modules with an entry, and their dependencies. -/
def names (g : Graph) : List String :=
  (g.edges.toList.foldl (fun (s : NameSet) (module, deps) => (s.insert module).insertMany deps)
    ∅).toList

structure Trail where
  /-- Every name that the search has entered so far. -/
  visited : NameSet
  /-- The names that the search has entered and not left. -/
  onStack : NameSet
  /-- The same names in the order of entering. -/
  path : List String

namespace Trail

def start : Trail := ⟨∅, ∅, []⟩

def enter (t : Trail) (name : String) : Trail :=
  ⟨t.visited.insert name, t.onStack.insert name, t.path ++ [name]⟩

def leave (t : Trail) (name : String) : Trail :=
  ⟨t.visited, t.onStack.erase name, t.path.dropLast⟩

/-- The cycle that a dependency on the stack closes: the path from it on, and the dependency. -/
def cycle (t : Trail) (name : String) : List String :=
  t.path.drop ((t.path.idxOf? name).getD 0) ++ [name]

end Trail

/-- Goes through the dependencies of the module entered last, visiting those not visited yet. -/
def visitAll (visit : String → Trail → Option (List String) × Trail) :
    List String → Trail → Option (List String) × Trail
  | [], t => (none, t)
  | name :: rest, t =>
      if name ∈ t.onStack then (some (t.cycle name), t)
      else if name ∈ t.visited then visitAll visit rest t
      else
        match visit name t with
        | (some cycle, t) => (some cycle, t)
        | (none, t) => visitAll visit rest t

/-- Searches for a cycle from one module, in a graph that has no more than `room` names left to
visit. A cycle ends the search at once; otherwise the stack is as it was before. -/
def search (g : Graph) : Nat → String → Trail → Option (List String) × Trail
  | 0, _, t => (none, t)
  | room + 1, name, t =>
      match visitAll (g.search room) (g.successors name) (t.enter name) with
      | (some cycle, t) => (some cycle, t)
      | (none, t) => (none, t.leave name)

/-- A cycle of the graph, as a path that ends where it starts. -/
def detectCycle (g : Graph) : Option (List String) :=
  (visitAll (g.search g.names.length) g.modules Trail.start).1

end MibLinker.Graph
