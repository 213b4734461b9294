import Std.Data.ExtTreeMap
import MibLinker.LinkError
import MibLinker.Node

/-!
# Symbols and modules

Modules export and import symbols: nodes and syntaxes, which are shared with every importer, and
kinds of node, from which an importer makes nodes of its own. A module is a name, the imports that
were requested to build it, and a table of exports. Tables by name are extensional: two with the
same entries are equal, whatever the order of their making.
-/

namespace MibLinker

/-- A request for one symbol that another module exports. -/
structure Import where
  module : String
  symbol : String
deriving DecidableEq

/-- Module and symbol with two colons between them. -/
def Import.text (i : Import) : String := i.module ++ "::" ++ i.symbol

inductive Symbol where
  | node (node : Shared Node)
  | valueSyntax (s : Shared Syntax)
  | factory (kind : NodeKind)
deriving DecidableEq

namespace Symbol

def kindName : Symbol → String
  | node n => n.value.kind.name
  | valueSyntax _ => "syntax"
  | factory _ => "factory"

/-- Whether two symbols are one object; a factory is nothing beyond its kind. -/
def same : Symbol → Symbol → Bool
  | node x, node y => x.same y
  | valueSyntax x, valueSyntax y => x.same y
  | factory x, factory y => x == y
  | _, _ => false

def mismatch (s : Symbol) (request : Import) (expected : String) : LinkError :=
  .symbolKind request.module request.symbol expected s.kindName

def asNode (s : Symbol) (request : Import) : Except LinkError (Shared Node) :=
  match s with
  | node n => .ok n
  | _ => .error (s.mismatch request "node")

def asTyped (s : Symbol) (request : Import) : Except LinkError TypedNode :=
  match s with
  | node ⟨_, .typed n⟩ => .ok n
  | _ => .error (s.mismatch request NodeKind.typed.name)

def asSyntax (s : Symbol) (request : Import) : Except LinkError (Shared Syntax) :=
  match s with
  | valueSyntax x => .ok x
  | _ => .error (s.mismatch request "syntax")

def asFactory (s : Symbol) (request : Import) : Except LinkError NodeKind :=
  match s with
  | factory kind => .ok kind
  | _ => .error (s.mismatch request "factory")

end Symbol

/-- Values by name, in the order of the names by code points. -/
abbrev NameMap (α : Type) := Std.ExtTreeMap String α

abbrev ExportTable := NameMap Symbol

structure Module where
  name : String
  imports : List Import
  exports : ExportTable

namespace Module

def ofExports (name : String) (exports : ExportTable) : Module := ⟨name, [], exports⟩

def lookup? (m : Module) (symbol : String) : Option Symbol := m.exports[symbol]?

/-- The modules that the imports come from, one entry for each import. -/
def sources (m : Module) : List String := m.imports.map Import.module

end Module

end MibLinker
