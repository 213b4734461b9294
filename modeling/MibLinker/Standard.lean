import MibLinker.Loader
import MibLinker.Standard.System

/-!
# The standard modules

The modules that every other one builds on, and a catalog that defines them.
-/

namespace MibLinker

inductive StandardModule where
  /-- Roots of the tree, application types, factories. -/
  | smi
  /-- Textual conventions. -/
  | conventions
  /-- The system group. -/
  | system
deriving DecidableEq

namespace StandardModule

def name : StandardModule → String
  | smi => Standard.Smi.name
  | conventions => Standard.Conventions.name
  | system => Standard.System.name

/-- All standard modules, each after those that it imports from. -/
def all : List StandardModule := [smi, conventions, system]

def ofName? (name : String) : Option StandardModule := all.find? (·.name == name)

variable {σ : Type}

def builder : StandardModule → Builder
  | smi => Standard.Smi.builder
  | conventions => Standard.Conventions.builder
  | system => Standard.System.builder

def body : StandardModule → Body σ
  | smi => Standard.Smi.body
  | conventions => Standard.Conventions.body
  | system => Standard.System.body

def remark (m : StandardModule) : Remark :=
  ⟨.debug, "defining base module", [("module", m.name)]⟩

def definition (m : StandardModule) : Script σ :=
  Script.perform (Desk.remark m.remark) fun _ => Script.ofBuilder m.builder m.body

end StandardModule

def isStandard (name : String) : Bool := (StandardModule.ofName? name).isSome

namespace Catalog

variable {σ : Type}

def registerStandard (c : Catalog σ) : Catalog σ :=
  StandardModule.all.foldl (fun c m => c.register m.name m.definition) c

def standard : Catalog σ := empty.registerStandard

end Catalog

end MibLinker
