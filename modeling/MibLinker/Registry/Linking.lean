import MibLinker.Registry.Session

/-!
# Linking

Resolving a symbol fetches the module that exports it. A module that is not published is fetched by
calling the loader, whose script may make requests of its own, and so on down to the load depth that
the options allow. How far that is, the allowance, decreases from one call to the next inside it;
so every request ends, whatever the scripts are.

The first part says what each request does with a given way to fetch a module, `fetch`. The second
part gives `fetch` for every allowance, and the last the requests to a session, whose allowance is
the one its tables tell.
-/

namespace MibLinker.Linking

variable {σ α : Type}

abbrev Fetch (σ : Type) := String → Request σ (Shared Module)

/-! ## Requests, given a way to fetch -/

def inFrame (act : Request σ α) : Request σ α := fun s =>
  let step := act (s.change .enter)
  (step.1, step.2.change .leave)

def resolveOne (fetch : Fetch σ) (i : Import) : Request σ Symbol := fun s =>
  match fetch i.module s with
  | (.error e, s) => (.error e, s)
  | (.ok m, s) =>
      match m.value.lookup? i.symbol with
      | none => (.error (.unresolvedSymbol i.module i.symbol), s)
      | some symbol => (.ok symbol, s.log (.resolved i.module i.symbol symbol.kindName))

def resolveEach (fetch : Fetch σ) : List Import → Request σ (List Symbol)
  | [], s => (.ok [], s)
  | i :: rest, s =>
      match resolveOne fetch i s with
      | (.error e, s) => (.error e, s)
      | (.ok symbol, s) =>
          match resolveEach fetch rest s with
          | (.error e, s) => (.error e, s)
          | (.ok symbols, s) => (.ok (symbol :: symbols), s)

def resolve (fetch : Fetch σ) (imports : List Import) : Request σ (List Symbol) :=
  inFrame (resolveEach fetch imports)

/-- Finds symbols on behalf of a module under construction, which counts as loading meanwhile, so
that a chain of imports back to it is a cycle. -/
def resolveFrom (fetch : Fetch σ) (requester : String) (imports : List Import) :
    Request σ (List Symbol) := fun s =>
  if requester ∈ s.registry.loading then resolve fetch imports s
  else
    let step := resolve fetch imports (s.change (·.push requester))
    (step.1, step.2.change .pop)

def load (fetch : Fetch σ) (name : String) : Request σ (Shared Module) := inFrame (fetch name)

/-- Loads modules in turn, up to the first that fails. -/
def loadAll (fetch : Fetch σ) : List String → Request σ Unit
  | [], s => (.ok (), s)
  | name :: rest, s =>
      match load fetch name s with
      | (.error e, s) => (.error e, s)
      | (.ok _, s) => loadAll fetch rest s

def build (fetch : Fetch σ) (b : Builder) (body : Body σ) : Request σ (Shared Module) := fun s =>
  match resolveFrom fetch b.name b.imports s with
  | (.error e, s) => (.error e, s)
  | (.ok symbols, s) =>
      match (body (b.resolved symbols)).run s.desk with
      | (.error e, desk) => (.error e, s.withDesk desk)
      | (.ok exports, desk) =>
          let step := (s.withDesk desk).publish (b.module exports)
          (.ok step.1, step.2)

def run (fetch : Fetch σ) : Script σ → Request σ Unit
  | .done result, s => (result, s)
  | .resolve imports next, s =>
      let step := resolve fetch imports s
      run fetch (next step.1) step.2
  | .resolveFrom requester imports next, s =>
      let step := resolveFrom fetch requester imports s
      run fetch (next step.1) step.2
  | .load name next, s =>
      let step := load fetch name s
      run fetch (next step.1) step.2
  | .publish m next, s =>
      let step := s.publish m
      run fetch (next step.1) step.2
  | .replaceLoader offers definition next, s =>
      run fetch next (s.withLoader ⟨offers, definition⟩)
  | .work change next, s => run fetch (next s.view) (s.withDesk (change s.view))

/-! ## Fetching a module -/

/-- Calls the loader for a name, which is on the load stack meanwhile. What a failing script has
published under the name is withdrawn, and a script that succeeds must have published it. -/
def callLoader (fetch : Fetch σ) (loader : Loader σ) (name : String) :
    Request σ (Shared Module) := fun s =>
  let opened := (s.log (.loading name s.registry.activeLoads)).change (·.beginLoad name)
  let step := run fetch (loader.definition name) opened
  let closed := step.2.change .endLoad
  match step.1 with
  | .error e => (.error e, closed.discard name)
  | .ok () =>
      match closed.registry.module? name with
      | none => (.error (.notPublished name), closed)
      | some m => (.ok m, closed.log (.loaded name))

def callAnyLoader (fetch : Fetch σ) : Fetch σ := fun name s =>
  match s.loader with
  | none => (.error (.moduleNotFound name), s)
  | some loader => callLoader fetch loader name s

/-- Attempts to load a name, and remembers a failure. -/
def attempt (fetch : Fetch σ) : Fetch σ := fun name s =>
  match callAnyLoader fetch name s with
  | (.error e, s) => (.error e, s.recordFailure name e)
  | (.ok m, s) => (.ok m, s)

/-- Fetches a module: the published one if there is one; else the failure of an earlier attempt
within the same request, or the cycle that a name on the load stack closes; else by `onward`. -/
def fetchBy (onward : Fetch σ) : Fetch σ := fun name s =>
  match s.registry.module? name with
  | some m => (.ok m, s)
  | none =>
      match s.registry.freshFailure? name with
      | some e => (.error e, s)
      | none =>
          if name ∈ s.registry.loading then
            (.error (.circularDependency (s.registry.cycle name)), s)
          else onward name s

def tooDeep : Fetch σ := fun name s =>
  (.error (.loadDepthExceeded name s.registry.options.maxLoadDepth), s)

/-- Fetches a module with loader calls nested no deeper than an allowance. -/
def fetch : Nat → Fetch σ
  | 0 => fetchBy tooDeep
  | allowance + 1 => fetchBy (attempt (fetch allowance))

end MibLinker.Linking

namespace MibLinker.Session

variable {σ : Type}

/-! ## Requests to a session -/

def fetch (s : Session σ) : Linking.Fetch σ := Linking.fetch s.registry.allowance

/-- Resolves symbols in order. The first that is not found ends the request; what was loaded by then
stays loaded. -/
def resolve (imports : List Import) : Request σ (List Symbol) := fun s =>
  Linking.resolve s.fetch imports s

def resolveFrom (requester : String) (imports : List Import) : Request σ (List Symbol) := fun s =>
  Linking.resolveFrom s.fetch requester imports s

def load (name : String) : Request σ (Shared Module) := fun s => Linking.load s.fetch name s

/-- Loads the modules that the options name, up to the first that fails. -/
def preload : Request σ Unit := fun s => Linking.loadAll s.fetch s.registry.options.preload s

def build (b : Builder) (body : Body σ) : Request σ (Shared Module) := fun s =>
  Linking.build s.fetch b body s

def run (script : Script σ) : Request σ Unit := fun s => Linking.run s.fetch script s

end MibLinker.Session
