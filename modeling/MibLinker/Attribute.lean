/-!
# Keyword attributes

The access and the status of an object, each with its keyword. `ofKeyword?` reads back exactly
what `keyword` writes.
-/

namespace MibLinker

/-- A word that is no keyword of the attribute it stands for. -/
structure KeywordError where
  expecting : String
  keyword : String
deriving DecidableEq

def KeywordError.message (e : KeywordError) : String :=
  "Unknown " ++ e.expecting ++ " keyword: " ++ e.keyword

/-- The most that a manager may do with an object. -/
inductive Access where
  | notAccessible
  | accessibleForNotify
  | readOnly
  | readWrite
  | readCreate
  | writeOnly
deriving DecidableEq

namespace Access

def all : List Access :=
  [notAccessible, accessibleForNotify, readOnly, readWrite, readCreate, writeOnly]

def keyword : Access → String
  | notAccessible => "not-accessible"
  | accessibleForNotify => "accessible-for-notify"
  | readOnly => "read-only"
  | readWrite => "read-write"
  | readCreate => "read-create"
  | writeOnly => "write-only"

def ofKeyword? (word : String) : Except KeywordError Access :=
  match all.find? (·.keyword == word) with
  | some access => .ok access
  | none => .error ⟨"access", word⟩

end Access

inductive Status where
  | current
  | deprecated
  | obsolete
  | mandatory
  | optional
deriving DecidableEq

namespace Status

def all : List Status := [current, deprecated, obsolete, mandatory, optional]

def keyword : Status → String
  | current => "current"
  | deprecated => "deprecated"
  | obsolete => "obsolete"
  | mandatory => "mandatory"
  | optional => "optional"

def ofKeyword? (word : String) : Except KeywordError Status :=
  match all.find? (·.keyword == word) with
  | some status => .ok status
  | none => .error ⟨"status", word⟩

end Status

end MibLinker
