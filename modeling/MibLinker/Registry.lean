import MibLinker.Graph.Order
import MibLinker.Module
import MibLinker.Options

/-!
# The registry

The tables of a registry: what is published, what is being loaded, which loads have failed, and the
dependency graph of what was published. This module holds the tables, the questions that only read
them, and the single changes that linking is made of.
-/

namespace MibLinker

inductive LoadState where
  | unloaded
  | loading
  | loaded
  | failed
deriving DecidableEq

def LoadState.name : LoadState → String
  | unloaded => "Unloaded"
  | loading => "Loading"
  | loaded => "Loaded"
  | failed => "Failed"

/-- A failed load, with the generation of the request that it happened in. -/
structure Failure where
  generation : Nat
  error : LinkError
deriving DecidableEq

structure Registry where
  modules : NameMap (Shared Module)
  /-- The modules that are being loaded or built, outermost first. -/
  loading : List String
  /-- The last failed load of each name that has not been published since. -/
  failures : NameMap Failure
  /-- How deep requests are nested; 0 when idle. -/
  depth : Nat
  activeLoads : Nat
  /-- How many requests have been made from outside. -/
  generation : Nat
  graph : Graph
  /-- How many publications there have been; each publication is an object of that number. -/
  publications : Nat
  options : Options

namespace Registry

def ofOptions (options : Options) : Registry where
  modules := ∅
  loading := []
  failures := ∅
  depth := 0
  activeLoads := 0
  generation := 0
  graph := .empty
  publications := 0
  options := options

/-! ## Questions -/

def isLoaded (r : Registry) (name : String) : Bool := r.modules.contains name

def module? (r : Registry) (name : String) : Option (Shared Module) := r.modules[name]?

/-- Looks up one export without loading anything. -/
def lookup? (r : Registry) (i : Import) : Option Symbol :=
  (r.module? i.module).bind fun m => m.value.lookup? i.symbol

/-- The error of the last failed load of a name that has not been published since. -/
def lastFailure? (r : Registry) (name : String) : Option LinkError :=
  (r.failures[name]?).map Failure.error

/-- The error of a load that failed within the request that is running. -/
def freshFailure? (r : Registry) (name : String) : Option LinkError :=
  match r.failures[name]? with
  | some failure => if failure.generation = r.generation then some failure.error else none
  | none => none

def state (r : Registry) (name : String) : LoadState :=
  if r.isLoaded name then .loaded
  else if name ∈ r.loading then .loading
  else if r.failures.contains name then .failed
  else .unloaded

def moduleNames (r : Registry) : List String := r.modules.keys

def loadOrder (r : Registry) : Except LinkError (List String) := r.graph.dependencyOrder

def Idle (r : Registry) : Prop := r.loading = [] ∧ r.depth = 0 ∧ r.activeLoads = 0

/-- How many more loader calls may nest inside those that are running. -/
def allowance (r : Registry) : Nat := r.options.maxLoadDepth - r.activeLoads

/-- The path of the cycle that a request for a name on the load stack closes. -/
def cycle (r : Registry) (name : String) : List String :=
  r.loading.dropWhile (· != name) ++ [name]

/-- One line of text for people who look for a mistake. -/
def description (r : Registry) (hasLoader : Bool) : String :=
  describe "SymbolRegistry"
    [("modules", Text.Quoted.encodeList r.moduleNames),
      ("loading", Text.Quoted.encodeList r.loading), ("has_loader", toString hasLoader),
      ("options", r.options.description)]

/-! ## Changes -/

/-- A request begins; one from outside begins a generation. -/
def enter (r : Registry) : Registry :=
  { r with
    generation := if r.depth = 0 then r.generation + 1 else r.generation
    depth := r.depth + 1 }

def leave (r : Registry) : Registry := { r with depth := r.depth - 1 }

def push (r : Registry) (name : String) : Registry := { r with loading := r.loading ++ [name] }

def pop (r : Registry) : Registry := { r with loading := r.loading.dropLast }

def beginLoad (r : Registry) (name : String) : Registry :=
  { r.push name with activeLoads := r.activeLoads + 1 }

def endLoad (r : Registry) : Registry := { r.pop with activeLoads := r.activeLoads - 1 }

/-- Publishes a module in place of any earlier publication: its failure is forgotten, and its
imports are its dependencies. -/
def publish (r : Registry) (m : Module) : Shared Module × Registry :=
  let object : Shared Module := ⟨r.publications, m⟩
  (object,
    { r with
      modules := r.modules.insert m.name object
      failures := r.failures.erase m.name
      graph := r.graph.setDependencies m.name m.sources
      publications := r.publications + 1 })

def publishEvent (r : Registry) (m : Module) : Event :=
  if r.isLoaded m.name && r.options.warnOnRepublish then .republishing m.name
  else .publishing m.name m.exports.size

/-- Withdraws a publication, and its dependencies with it. -/
def discard (r : Registry) (name : String) : Registry :=
  { r with modules := r.modules.erase name, graph := r.graph.removeModule name }

/-- Remembers that a load failed within the request that is running. -/
def recordFailure (r : Registry) (name : String) (error : LinkError) : Registry :=
  { r with failures := r.failures.insert name ⟨r.generation, error⟩ }

end Registry

end MibLinker
