import MibLinker.Attribute
import MibLinker.Oid

/-!
# Nodes of the management tree

A node is plain, typed or an instance. All three are made from one record of attributes, of which
each kind keeps those that mean something to it. Modules share the syntaxes and the nodes that they
make: several holders refer to one object, and its number tells it from every other object of its
kind, also from one with the same contents.
-/

namespace MibLinker

/-- Contents together with the number that identifies the object. -/
structure Shared (α : Type) where
  id : Nat
  value : α
deriving DecidableEq

/-- Whether two references lead to one object. -/
def Shared.same {α : Type} (x y : Shared α) : Bool := x.id == y.id

/-- What a SYNTAX clause refers to: a data type by name, with the text of its constraint if it has
one. The registry never looks inside. -/
structure Syntax where
  name : String
  constraint : Option String
deriving DecidableEq

/-- What a DEFVAL clause or an instance holds. -/
inductive Value where
  | int (v : Int64)
  | uint (v : UInt64)
  | text (v : String)
  | oid (v : Oid)
deriving DecidableEq

structure Attributes where
  label : String := ""
  path : Oid := .empty
  value : Option Value := none
  valueSyntax : Option (Shared Syntax) := none
  access : Option Access := none
  status : Option Status := none
  module : Option String := none
deriving DecidableEq

structure PlainNode where
  label : String
  path : Oid
  value : Option Value
deriving DecidableEq

structure TypedNode where
  label : String
  path : Oid
  value : Option Value
  valueSyntax : Option (Shared Syntax)
  access : Option Access
  status : Option Status
  module : Option String
deriving DecidableEq

/-- One object of a type, at its own position. -/
structure InstanceNode where
  label : String
  path : Oid
  value : Option Value
  valueSyntax : Option (Shared Syntax)
  module : Option String
deriving DecidableEq

/-- The instance of a template at an index below it: label, syntax and module are the template's,
and the value is not set. -/
def InstanceNode.bind (template : TypedNode) (index : List UInt32) : InstanceNode where
  label := template.label
  path := template.path.append index
  value := none
  valueSyntax := template.valueSyntax
  module := template.module

def InstanceNode.withValue (node : InstanceNode) (value : Value) : InstanceNode :=
  { node with value := some value }

inductive Node where
  | plain (node : PlainNode)
  | typed (node : TypedNode)
  | object (node : InstanceNode)
deriving DecidableEq

/-- The kinds of node. A module exports a kind so that its importers can make such nodes. -/
inductive NodeKind where
  | plain
  | typed
  | object
deriving DecidableEq

def NodeKind.name : NodeKind → String
  | plain => "node"
  | typed => "typed node"
  | object => "instance node"

/-- Makes a node, leaving out the attributes that its kind does not have. -/
def NodeKind.build (kind : NodeKind) (a : Attributes) : Node :=
  match kind with
  | plain => .plain ⟨a.label, a.path, a.value⟩
  | typed => .typed ⟨a.label, a.path, a.value, a.valueSyntax, a.access, a.status, a.module⟩
  | object => .object ⟨a.label, a.path, a.value, a.valueSyntax, a.module⟩

namespace Node

def kind : Node → NodeKind
  | plain _ => .plain
  | typed _ => .typed
  | object _ => .object

def label : Node → String
  | plain n => n.label
  | typed n => n.label
  | object n => n.label

def path : Node → Oid
  | plain n => n.path
  | typed n => n.path
  | object n => n.path

def value : Node → Option Value
  | plain n => n.value
  | typed n => n.value
  | object n => n.value

def valueSyntax : Node → Option (Shared Syntax)
  | plain _ => none
  | typed n => n.valueSyntax
  | object n => n.valueSyntax

def access : Node → Option Access
  | typed n => n.access
  | _ => none

def status : Node → Option Status
  | typed n => n.status
  | _ => none

/-- The module that defines the node, if the node knows it. -/
def module : Node → Option String
  | plain _ => none
  | typed n => n.module
  | object n => n.module

def typed? : Node → Option TypedNode
  | typed n => some n
  | _ => none

/-- Whether two nodes agree in kind and in every attribute, their syntaxes in contents. -/
def alike (x y : Node) : Bool :=
  x.kind == y.kind && x.label == y.label && x.path == y.path && x.value == y.value
    && x.valueSyntax.map Shared.value == y.valueSyntax.map Shared.value
    && x.access == y.access && x.status == y.status && x.module == y.module

@[simp] theorem kind_build (kind : NodeKind) (a : Attributes) : (kind.build a).kind = kind := by
  cases kind <;> rfl

@[simp] theorem path_build (kind : NodeKind) (a : Attributes) : (kind.build a).path = a.path := by
  cases kind <;> rfl

end Node

end MibLinker
