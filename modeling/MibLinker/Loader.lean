import MibLinker.Registry.Script

/-!
# Kinds of loader

A catalog holds one definition for each of its names. A chain asks its members in turn, and the
first that offers a name is the one that loads it, even if it then fails.
-/

namespace MibLinker

structure Catalog (σ : Type) where
  definitions : NameMap (Script σ)

namespace Catalog

variable {σ : Type}

def empty : Catalog σ := ⟨∅⟩

/-- Adds a definition, in place of an earlier one of the same name. -/
def register (c : Catalog σ) (name : String) (definition : Script σ) : Catalog σ :=
  ⟨c.definitions.insert name definition⟩

def names (c : Catalog σ) : List String := c.definitions.keys

def size (c : Catalog σ) : Nat := c.definitions.size

def isEmpty (c : Catalog σ) : Bool := c.definitions.isEmpty

def loader (c : Catalog σ) : Loader σ where
  offers name := c.definitions.contains name
  definition name := (c.definitions[name]?).getD (.fail (.moduleNotFound name))

def description (c : Catalog σ) : String :=
  describe "StaticLoader" [("modules", Text.Quoted.encodeList c.names)]

end Catalog

/-- Loaders in the order of their priority, the first one highest. -/
structure Chain (σ : Type) where
  members : List (Loader σ)

namespace Chain

variable {σ : Type}

def empty : Chain σ := ⟨[]⟩

def push (c : Chain σ) (loader : Loader σ) : Chain σ := ⟨c.members ++ [loader]⟩

def loader (c : Chain σ) : Loader σ where
  offers name := c.members.any (·.offers name)
  definition name :=
    match c.members.find? (·.offers name) with
    | some member => member.definition name
    | none => .fail (.moduleNotFound name)

def description (c : Chain σ) : String :=
  describe "ChainLoader" [("loaders", toString c.members.length)]

end Chain

end MibLinker
