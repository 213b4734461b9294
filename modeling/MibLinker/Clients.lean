import MibLinker.Registry.Linking

/-!
# Clients of one registry

Several clients share a registry by taking turns. A turn has the registry to itself until it ends,
every nested load included, so the clients' work is one sequence of turns in the order in which they
got theirs.
-/

namespace MibLinker

inductive Turn (σ : Type) where
  | resolve (imports : List Import)
  | publish (name : String) (exports : ExportTable)
  | load (name : String)
  | isLoaded (name : String)
  | state (name : String)
  /-- Keeps the registry for a whole script. -/
  | keep (script : Script σ)

inductive Answer where
  | symbols (result : Except LinkError (List Symbol))
  | published (m : Shared Module)
  | module (result : Except LinkError (Shared Module))
  | flag (value : Bool)
  | state (value : LoadState)
  | ended (result : Except LinkError Unit)

namespace Turn

variable {σ : Type}

def take (turn : Turn σ) (s : Session σ) : Answer × Session σ :=
  match turn with
  | resolve imports =>
      let step := s.resolve imports
      (.symbols step.1, step.2)
  | publish name exports =>
      let step := s.publish (.ofExports name exports)
      (.published step.1, step.2)
  | load name =>
      let step := s.load name
      (.module step.1, step.2)
  | isLoaded name => (.flag (s.registry.isLoaded name), s)
  | state name => (.state (s.registry.state name), s)
  | keep script =>
      let step := s.run script
      (.ended step.1, step.2)

end Turn

/-- Takes turns in the order given, each for the client of a number, and tells what each one
answered. -/
def Session.serve {σ : Type} : List (Nat × Turn σ) → Session σ → List (Nat × Answer) × Session σ
  | [], s => ([], s)
  | (client, turn) :: rest, s =>
      let step := turn.take s
      let later := step.2.serve rest
      ((client, step.1) :: later.1, later.2)

end MibLinker
