import MibLinker.Registry
import MibLinker.Registry.Desk

/-!
# Scripts and loaders

A definition is a script: a finite sequence of requests to the registry, each of which may depend on
the answers before it. A script may look at the tables between its requests and work at its desk; it
cannot change the tables but by a request. A loader holds a script for each name that it offers.
-/

namespace MibLinker

/-- What a script sees between its requests. -/
structure View (σ : Type) where
  registry : Registry
  hasLoader : Bool
  desk : Desk σ

inductive Script (σ : Type) where
  | done (result : Except LinkError Unit)
  | resolve (imports : List Import) (next : Except LinkError (List Symbol) → Script σ)
  | resolveFrom (requester : String) (imports : List Import)
      (next : Except LinkError (List Symbol) → Script σ)
  | load (name : String) (next : Except LinkError (Shared Module) → Script σ)
  | publish (m : Module) (next : Shared Module → Script σ)
  /-- Replaces the loader by one that offers these names and has these definitions. -/
  | replaceLoader (offers : String → Bool) (definition : String → Script σ) (next : Script σ)
  /-- Looks around, and works at the desk. -/
  | work (change : View σ → Desk σ) (next : View σ → Script σ)

/-- A source of modules: which names it offers, and the script that defines each. -/
structure Loader (σ : Type) where
  offers : String → Bool
  definition : String → Script σ

namespace Script

variable {σ : Type}

def fail (error : LinkError) : Script σ := done (.error error)

def succeed : Script σ := done (.ok ())

def setLoader (loader : Loader σ) (next : Script σ) : Script σ :=
  replaceLoader loader.offers loader.definition next

def look (next : View σ → Script σ) : Script σ := work (fun view => view.desk) next

def perform {α : Type} (task : StateM (Desk σ) α) (next : α → Script σ) : Script σ :=
  work (fun view => (task view.desk).2) (fun view => next (task view.desk).1)

/-- Goes on with another script when the first one ends. -/
def andThen (first : Script σ) (next : Except LinkError Unit → Script σ) : Script σ :=
  match first with
  | done result => next result
  | resolve imports k => resolve imports fun r => (k r).andThen next
  | resolveFrom requester imports k => resolveFrom requester imports fun r => (k r).andThen next
  | load name k => load name fun r => (k r).andThen next
  | publish m k => publish m fun object => (k object).andThen next
  | replaceLoader offers definition k => replaceLoader offers definition (k.andThen next)
  | work change k => work change fun view => (k view).andThen next

/-- Loads modules in turn, up to the first that fails. -/
def loadAll (names : List String) (next : Except LinkError Unit → Script σ) : Script σ :=
  match names with
  | [] => next (.ok ())
  | name :: rest => load name fun
    | .error e => next (.error e)
    | .ok _ => loadAll rest next

def preload (next : Except LinkError Unit → Script σ) : Script σ :=
  look fun view => loadAll view.registry.options.preload next

end Script

end MibLinker
