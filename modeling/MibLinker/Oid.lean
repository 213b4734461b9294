import MibLinker.Text

/-!
# Object identifiers

A position in the management tree, as the list of arcs that leads to it from the root. The order
of identifiers is lexicographic, so an identifier comes right before the subtree below it. In dotted
notation the arcs are written in decimal, with a dot between neighbours, and the empty identifier is
the empty text.
-/

namespace MibLinker

/-- A path of arcs in the management tree; the empty path marks a definition without a place. -/
structure Oid where
  arcs : List UInt32
deriving DecidableEq, Inhabited

namespace Oid

def empty : Oid := ⟨[]⟩

def length (oid : Oid) : Nat := oid.arcs.length

def isEmpty (oid : Oid) : Bool := oid.arcs.isEmpty

/-- The path to the node above, which a path of one arc or none does not have. -/
def parent? (oid : Oid) : Option Oid :=
  match oid.arcs with
  | [] | [_] => none
  | arcs => some ⟨arcs.dropLast⟩

/-- Whether the first path leads to the second position or to one above it. -/
def isAncestorOf (above below : Oid) : Bool := above.arcs.isPrefixOf below.arcs

def append (oid : Oid) (suffix : List UInt32) : Oid := ⟨oid.arcs ++ suffix⟩

def child (oid : Oid) (arc : UInt32) : Oid := oid.append [arc]

instance : Ord Oid where
  compare x y := compare x.arcs y.arcs

instance : LE Oid := leOfOrd

theorem isAncestorOf_iff {above below : Oid} :
    above.isAncestorOf below = true ↔ ∃ suffix, below = above.append suffix := by
  rw [isAncestorOf, List.isPrefixOf_iff_prefix]
  constructor
  · rintro ⟨suffix, h⟩
    exact ⟨suffix, congrArg Oid.mk h.symm⟩
  · rintro ⟨suffix, rfl⟩
    exact ⟨suffix, rfl⟩

/-! ## Dotted notation -/

open MibLinker.Text

def maxArc : Nat := 4294967295

def dotted (oid : Oid) : String :=
  ".".intercalate (oid.arcs.map fun arc => toString arc.toNat)

def arc? (segment : List Char) : Option UInt32 :=
  (Decimal.read maxArc segment).map Nat.toUInt32

/-- Reads dotted notation. One segment that is no arc spoils the whole text. -/
def ofDotted? (text : String) : Option Oid :=
  match text.toList with
  | [] => some empty
  | chars => (List.splitOn '.' chars).mapM arc? |>.map Oid.mk

end Oid

end MibLinker
