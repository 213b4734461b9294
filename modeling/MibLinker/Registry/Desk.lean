import MibLinker.Journal
import MibLinker.Module

/-!
# The desk

What a definition works with besides the registry: the next free object number, data of its own, and
the remarks it has made since the registry last looked. A draft is work on the desk that may fail;
the body of a module is a draft of its exports.
-/

namespace MibLinker

/-- The desk of the definitions; `σ` is what they keep on it. -/
structure Desk (σ : Type) where
  nextObject : Nat
  data : σ
  /-- Remarks that have not gone into the journal yet, the last one first. -/
  remarks : List Remark

/-- Work on the desk that ends with a result or with an error. -/
abbrev Draft (σ α : Type) := ExceptT LinkError (StateM (Desk σ)) α

namespace Desk

variable {σ : Type}

/-- Makes an object with a number of its own. -/
def share {α : Type} (value : α) : StateM (Desk σ) (Shared α) := fun desk =>
  (⟨desk.nextObject, value⟩, { desk with nextObject := desk.nextObject + 1 })

def remark (r : Remark) : StateM (Desk σ) Unit := fun desk =>
  ((), { desk with remarks := r :: desk.remarks })

def cleared (desk : Desk σ) : Desk σ := { desk with remarks := [] }

end Desk

namespace Draft

variable {σ : Type}

/-- Work on the desk that cannot fail. -/
def ofTask {α : Type} (task : StateM (Desk σ) α) : Draft σ α := ExceptT.lift task

def ofResult {α : Type} (result : Except LinkError α) : Draft σ α := ExceptT.mk (pure result)

def node (value : Node) : Draft σ Symbol := Symbol.node <$> ofTask (Desk.share value)

def valueSyntax (value : Syntax) : Draft σ Symbol :=
  Symbol.valueSyntax <$> ofTask (Desk.share value)

end Draft

end MibLinker
