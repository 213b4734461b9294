import MibLinker.Node

/-!
# The text of a node

A typed node is written as a header line and one line for each attribute that is set, in the order
SYNTAX, ACCESS, STATUS, value. Every other node is its label and its value between braces.
-/

namespace MibLinker

def Syntax.text (s : Syntax) : String :=
  match s.constraint with
  | some constraint => s.name ++ " " ++ constraint
  | none => s.name

/-- Numbers in decimal, texts as they are, identifiers in dotted notation. -/
def Value.render : Value → String
  | int v => toString v.toInt
  | uint v => toString v.toNat
  | text v => v
  | oid v => v.dotted

/-- Label and value between braces; a value that is not set is written as nothing. -/
def braced (label : String) (value : Option Value) : String :=
  "\x7b " ++ label ++ " " ++ (value.map Value.render).getD "" ++ " \x7d"

namespace TypedNode

def clauses (node : TypedNode) : List String :=
  (node.valueSyntax.map fun s => "SYNTAX " ++ s.value.text).toList
    ++ (node.access.map fun a => "ACCESS " ++ a.keyword).toList
    ++ (node.status.map fun s => "STATUS " ++ s.keyword).toList
    ++ (node.value.map fun v => " = \x7b " ++ v.render ++ " \x7d").toList

def render (node : TypedNode) : String :=
  "\n".intercalate ((node.label ++ " OBJECT-TYPE") :: node.clauses)

end TypedNode

/-- The text of a node, computed from its attributes alone. -/
def Node.render : Node → String
  | .plain n => braced n.label n.value
  | .typed n => n.render
  | .object n => braced n.label n.value

end MibLinker
