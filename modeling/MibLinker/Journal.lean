import MibLinker.LinkError

/-!
# The journal

What a registry reports while it works: its own events, and remarks of everyone else. Each entry has
a level, a text, and named fields whose values are texts.
-/

namespace MibLinker

inductive Level where
  | warn
  | debug
  | trace
deriving DecidableEq

namespace Level

def name : Level → String
  | warn => "WARN"
  | debug => "DEBUG"
  | trace => "TRACE"

/-- Rank by detail: the more detailed a level, the higher. -/
def detail : Level → Nat
  | warn => 0
  | debug => 1
  | trace => 2

end Level

structure Remark where
  level : Level
  text : String
  fields : List (String × String)
deriving DecidableEq

inductive Event where
  | resolved (module symbol kind : String)
  /-- A module is published that has not been, or whose replacement is not worth a warning. -/
  | publishing (module : String) (exports : Nat)
  /-- A module replaces its earlier publication. -/
  | republishing (module : String)
  /-- A loader is called, inside so many other loader calls. -/
  | loading (module : String) (depth : Nat)
  | loaded (module : String)
  /-- A load failed after its module was published. -/
  | discarding (module : String)
  | loadFailed (module : String) (error : LinkError)
deriving DecidableEq

namespace Event

def report : Event → Remark
  | resolved module symbol kind =>
      ⟨.trace, "resolved", [("module", module), ("symbol", symbol), ("kind", kind)]⟩
  | publishing module exports =>
      ⟨.debug, "publishing module", [("module", module), ("exports", toString exports)]⟩
  | republishing module =>
      ⟨.warn, "module published again; replacing earlier exports", [("module", module)]⟩
  | loading module depth =>
      ⟨.debug, "loading module", [("module", module), ("depth", toString depth)]⟩
  | loaded module => ⟨.debug, "module loaded", [("module", module)]⟩
  | discarding module => ⟨.debug, "discarding exports of failed load", [("module", module)]⟩
  | loadFailed module error =>
      ⟨.warn, "module load failed", [("module", module), ("error", error.message)]⟩

end Event

inductive Entry where
  | event (event : Event)
  | remark (remark : Remark)
deriving DecidableEq

def Entry.report : Entry → Remark
  | event e => e.report
  | remark r => r

end MibLinker
