import MibLinker.Standard.Base

/-!
# SNMPv2-MIB

The system group: the node `system` below the imported `mib-2`, and its scalars, whose syntaxes are
the imported objects themselves.
-/

namespace MibLinker.Standard.System

def name : String := "SNMPv2-MIB"

/-- The module imports the place of the group, two factories and two syntaxes. -/
def builder : Builder :=
  (Builder.ofName name)
    |>.needsAll Smi.name ["mib-2", "TimeTicks", "MibIdentifier", "MibScalar"]
    |>.needs Conventions.name "DisplayString"

def scalars (display objectId ticks : Shared Syntax) :
    List (String × UInt32 × Shared Syntax × Access) :=
  [("sysDescr", 1, display, .readOnly), ("sysObjectID", 2, objectId, .readOnly),
    ("sysUpTime", 3, ticks, .readOnly), ("sysContact", 4, display, .readWrite),
    ("sysName", 5, display, .readWrite), ("sysLocation", 6, display, .readWrite)]

def scalarAttributes (group : Oid) (label : String) (arc : UInt32) (s : Shared Syntax)
    (access : Access) : Attributes where
  label := label
  path := group.child arc
  valueSyntax := some s
  access := some access
  status := some .current
  module := some name

/-- The exports: the group and its scalars, made by the imported factories. Scalars have to be typed
nodes. -/
def body {σ : Type} : Body σ := fun imports => do
  let mib2 ← Draft.ofResult (imports.node Smi.name "mib-2")
  let identifier ← Draft.ofResult (imports.factory Smi.name "MibIdentifier")
  let scalar ← Draft.ofResult (imports.factory Smi.name "MibScalar")
  let ticks ← Draft.ofResult (imports.valueSyntax Smi.name "TimeTicks")
  let display ← Draft.ofResult (imports.valueSyntax Conventions.name "DisplayString")
  if scalar ≠ .typed then
    Draft.ofResult (.error (imports.reject ("MibScalar builds " ++ scalar.name ++ " nodes")))
  else
    let objectId ← Draft.ofTask (Desk.share (⟨"OBJECT IDENTIFIER", none⟩ : Syntax))
    let group := mib2.value.path.child 1
    let system ← Draft.node
      (identifier.build { label := "system", path := group, module := some name })
    let nodes ← (scalars display objectId ticks).mapM fun (label, arc, s, access) => do
      return (label, ← Draft.node (scalar.build (scalarAttributes group label arc s access)))
    return .ofList (("system", system) :: nodes)

end MibLinker.Standard.System
