import MibLinker.Journal
import MibLinker.Text

/-!
# Options of a registry

Each option may be set by a variable of the environment. A value that cannot be read leaves its
option as it was, and is reported.
-/

namespace MibLinker

open MibLinker.Text

structure Options where
  maxLoadDepth : Nat := 64
  /-- Whether a second publication of a module is worth a warning. -/
  warnOnRepublish : Bool := true
  preload : List String := []
deriving DecidableEq, Inhabited

namespace Options

abbrev Environment := String → Option String

def depthKey : String := "MIBREG_MAX_LOAD_DEPTH"

def warnKey : String := "MIBREG_WARN_ON_REPUBLISH"

def preloadKey : String := "MIBREG_PRELOAD"

def depthLimit : Nat := 18446744073709551615

/-- Reads a load depth: a positive numeral with white space around it. -/
def readDepth (raw : String) : Option Nat :=
  match Decimal.read depthLimit (trim raw.toList) with
  | some (depth + 1) => some (depth + 1)
  | _ => none

def onWords : List String := ["1", "true", "yes", "on"]

def offWords : List String := ["0", "false", "no", "off"]

/-- Reads a flag: one of the words in letters of either case, with white space around it. -/
def readFlag (raw : String) : Option Bool :=
  let word := String.ofList ((trim raw.toList).map Char.toLower)
  if word ∈ onWords then some true
  else if word ∈ offWords then some false
  else none

/-- Reads a list of names: what stands between commas, trimmed, without the blank ones. -/
def readNames (raw : String) : List String :=
  ((List.splitOn ',' raw.toList).map trim).filter (!·.isEmpty) |>.map String.ofList

def overlay (o : Options) (env : Environment) : Options where
  maxLoadDepth := ((env depthKey).bind readDepth).getD o.maxLoadDepth
  warnOnRepublish := ((env warnKey).bind readFlag).getD o.warnOnRepublish
  preload := ((env preloadKey).map readNames).getD o.preload

/-- The report on the value of a variable that cannot be read. -/
def ignored (key raw : String) : Remark :=
  ⟨.warn, "ignoring invalid value", [("key", key), ("value", raw)]⟩

/-- The report on a variable, if it is set and cannot be read. -/
def complaint {α : Type} (env : Environment) (key : String) (read : String → Option α) :
    Option Remark :=
  match env key with
  | none => none
  | some raw => if (read raw).isNone then some (ignored key raw) else none

def complaints (env : Environment) : List Remark :=
  (complaint env depthKey readDepth).toList ++ (complaint env warnKey readFlag).toList

def description (o : Options) : String :=
  describe "RegistryOptions"
    [("max_load_depth", toString o.maxLoadDepth), ("warn_on_republish", toString o.warnOnRepublish),
      ("preload", Quoted.encodeList o.preload)]

end Options

end MibLinker
