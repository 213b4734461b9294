import Std.Data.ExtTreeMap

/-!
# The dependency graph

Which module depends on which others. Every module that an edge was recorded for has an entry; one
that was only removed since may still occur in the lists of others.
-/

namespace MibLinker

/-- For each module the list of modules that it depends on. -/
structure Graph where
  edges : Std.ExtTreeMap String (List String)

namespace Graph

def empty : Graph := ⟨∅⟩

instance : Inhabited Graph := ⟨empty⟩

/-- The dependency list of a module that has an entry. -/
def dependencies (g : Graph) (module : String) : Option (List String) := g.edges[module]?

/-- The dependency list of a module, empty where it has no entry. -/
def successors (g : Graph) (module : String) : List String := (g.dependencies module).getD []

/-- The modules with an entry, in increasing order. -/
def modules (g : Graph) : List String := g.edges.keys

def size (g : Graph) : Nat := g.edges.size

def isEmpty (g : Graph) : Bool := g.edges.isEmpty

/-- The modules that depend on a module directly, in increasing order. -/
def dependents (g : Graph) (module : String) : List String :=
  (g.edges.toList.filter fun (_, deps) => deps.contains module).map Prod.fst

def addModule (g : Graph) (module : String) : Graph := ⟨g.edges.insertIfNew module []⟩

/-- A list with one more name at its end, unless it holds the name already. -/
def withName (names : List String) (name : String) : List String :=
  if name ∈ names then names else names ++ [name]

/-- Records that a module depends on another, which gets an entry of its own. -/
def addDependency (g : Graph) (module dependency : String) : Graph :=
  let g := g.addModule dependency
  ⟨g.edges.insert module (withName (g.successors module) dependency)⟩

/-- Replaces the dependency list of a module, each name at its first occurrence only; its
dependencies get entries of their own. -/
def setDependencies (g : Graph) (module : String) (dependencies : List String) : Graph :=
  ⟨(dependencies.foldl addModule g).edges.insert module dependencies.eraseDups⟩

/-- Drops the entry of a module. Other modules may go on depending on it. -/
def removeModule (g : Graph) (module : String) : Graph := ⟨g.edges.erase module⟩

end Graph

end MibLinker
