import MibLinker.Registry.Builder

/-!
# Sessions

A registry in use: its tables, its loader, the desk of the definitions, and the journal. The changes
of the tables that are reported are made here, so that no change goes without its entry.
-/

namespace MibLinker

structure Session (σ : Type) where
  registry : Registry
  loader : Option (Loader σ)
  desk : Desk σ
  /-- The entries so far, the last one first. -/
  journal : List Entry

/-- Something that a registry in use is asked to do: it answers, and the session goes on. -/
abbrev Request (σ α : Type) := Session σ → Except LinkError α × Session σ

namespace Session

variable {σ : Type}

/-- A session in which nothing has happened, with data on the desk. -/
def start (options : Options) (loader : Option (Loader σ)) (data : σ) : Session σ where
  registry := .ofOptions options
  loader := loader
  desk := ⟨0, data, []⟩
  journal := []

def view (s : Session σ) : View σ := ⟨s.registry, s.loader.isSome, s.desk⟩

def entries (s : Session σ) : List Entry := s.journal.reverse

def change (s : Session σ) (f : Registry → Registry) : Session σ :=
  { s with registry := f s.registry }

def log (s : Session σ) (e : Event) : Session σ := { s with journal := .event e :: s.journal }

/-- Takes back the desk, and its remarks into the journal. -/
def withDesk (s : Session σ) (desk : Desk σ) : Session σ :=
  { s with desk := desk.cleared, journal := desk.remarks.map .remark ++ s.journal }

def withLoader (s : Session σ) (loader : Loader σ) : Session σ := { s with loader := some loader }

def publish (m : Module) (s : Session σ) : Shared Module × Session σ :=
  ((s.registry.publish m).1,
    (s.log (s.registry.publishEvent m)).change fun r => (r.publish m).2)

/-- Withdraws what a failed load has published under its name. -/
def discard (name : String) (s : Session σ) : Session σ :=
  if s.registry.isLoaded name then (s.log (.discarding name)).change (·.discard name) else s

def recordFailure (name : String) (error : LinkError) (s : Session σ) : Session σ :=
  (s.log (.loadFailed name error)).change (·.recordFailure name error)

end Session

end MibLinker
