import MibLinker.Registry.Builder

/-!
# SNMPv2-SMI and SNMPv2-TC

The first has the roots of the management tree, the application types, and the kinds of node that
definitions are made of. The second has the textual conventions, of which `TimeStamp` has the
contents of the imported `TimeTicks`, and is an object of its own.
-/

namespace MibLinker.Standard.Smi

def name : String := "SNMPv2-SMI"

def roots : List (String × List UInt32) :=
  [("ccitt", [0]), ("iso", [1]), ("joint-iso-ccitt", [2]), ("org", [1, 3]), ("dod", [1, 3, 6]),
    ("internet", [1, 3, 6, 1]), ("directory", [1, 3, 6, 1, 1]), ("mgmt", [1, 3, 6, 1, 2]),
    ("mib-2", [1, 3, 6, 1, 2, 1]), ("transmission", [1, 3, 6, 1, 2, 1, 10]),
    ("experimental", [1, 3, 6, 1, 3]), ("private", [1, 3, 6, 1, 4]),
    ("enterprises", [1, 3, 6, 1, 4, 1]), ("security", [1, 3, 6, 1, 5]),
    ("snmpV2", [1, 3, 6, 1, 6]), ("snmpDomains", [1, 3, 6, 1, 6, 1]),
    ("snmpProxys", [1, 3, 6, 1, 6, 2]), ("snmpModules", [1, 3, 6, 1, 6, 3])]

def root (label : String) (arcs : List UInt32) : Node :=
  NodeKind.plain.build { label := label, path := ⟨arcs⟩, module := some name }

/-- The identifier that names nothing; its value is its own path. -/
def zeroDotZero : Node :=
  NodeKind.plain.build
    { label := "zeroDotZero", path := ⟨[0, 0]⟩, value := some (.oid ⟨[0, 0]⟩), module := some name }

def types : List (String × Syntax) :=
  [("Integer32", ⟨"INTEGER", some "(-2147483648..2147483647)"⟩),
    ("Counter32", ⟨"Counter32", some "(0..4294967295)"⟩),
    ("Gauge32", ⟨"Gauge32", some "(0..4294967295)"⟩),
    ("Unsigned32", ⟨"Unsigned32", some "(0..4294967295)"⟩),
    ("TimeTicks", ⟨"TimeTicks", some "(0..4294967295)"⟩),
    ("Counter64", ⟨"Counter64", some "(0..18446744073709551615)"⟩),
    ("IpAddress", ⟨"OCTET STRING", some "(SIZE (4))"⟩),
    ("Opaque", ⟨"OCTET STRING", none⟩)]

def factories : List (String × NodeKind) :=
  [("MibNode", .plain), ("MibIdentifier", .plain), ("MibScalar", .typed), ("MibTable", .typed),
    ("MibTableRow", .typed), ("MibTableColumn", .typed), ("MibScalarInstance", .object)]

def builder : Builder := .ofName name

/-- The exports: every root, `zeroDotZero`, every type and every factory. -/
def body {σ : Type} : Body σ := fun _ => do
  let rootNodes ← roots.mapM fun (label, arcs) => do
    return (label, ← Draft.node (root label arcs))
  let zero ← Draft.node zeroDotZero
  let syntaxes ← types.mapM fun (label, s) => do
    return (label, ← Draft.valueSyntax s)
  let kinds := factories.map fun (label, kind) => (label, Symbol.factory kind)
  return .ofList (rootNodes ++ [("zeroDotZero", zero)] ++ syntaxes ++ kinds)

end MibLinker.Standard.Smi

namespace MibLinker.Standard.Conventions

def name : String := "SNMPv2-TC"

def conventions (ticks : Syntax) : List (String × Syntax) :=
  [("DisplayString", ⟨"OCTET STRING", some "(SIZE (0..255))"⟩),
    ("PhysAddress", ⟨"OCTET STRING", none⟩),
    ("MacAddress", ⟨"OCTET STRING", some "(SIZE (6))"⟩),
    ("TruthValue", ⟨"INTEGER", some "\x7b true(1), false(2) \x7d"⟩),
    ("TestAndIncr", ⟨"INTEGER", some "(0..2147483647)"⟩),
    ("AutonomousType", ⟨"OBJECT IDENTIFIER", none⟩),
    ("TimeStamp", ticks),
    ("TimeInterval", ⟨"INTEGER", some "(0..2147483647)"⟩),
    ("RowStatus", ⟨"INTEGER", some <| "\x7b active(1), notInService(2), notReady(3), "
      ++ "createAndGo(4), createAndWait(5), destroy(6) \x7d"⟩),
    ("StorageType", ⟨"INTEGER", some <| "\x7b other(1), volatile(2), nonVolatile(3), "
      ++ "permanent(4), readOnly(5) \x7d"⟩)]

def builder : Builder := (Builder.ofName name).needs Smi.name "TimeTicks"

def body {σ : Type} : Body σ := fun imports => do
  let ticks ← Draft.ofResult (imports.valueSyntax Smi.name "TimeTicks")
  let syntaxes ← (conventions ticks.value).mapM fun (label, s) => do
    return (label, ← Draft.valueSyntax s)
  return .ofList syntaxes

end MibLinker.Standard.Conventions
