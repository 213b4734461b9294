import MibLinker.Registry.Script

/-!
# Building a module

A module is built in three steps: its imports are resolved, its body makes the exports from them,
and the whole is published. An import that cannot be resolved, or a body that fails, publishes
nothing.
-/

namespace MibLinker

/-- A module to be built: its name, and the imports that its body needs. -/
structure Builder where
  name : String
  imports : List Import
deriving DecidableEq

namespace Builder

def ofName (name : String) : Builder := ⟨name, []⟩

def needs (b : Builder) (module symbol : String) : Builder :=
  { b with imports := b.imports ++ [⟨module, symbol⟩] }

def needsAll (b : Builder) (module : String) (symbols : List String) : Builder :=
  { b with imports := b.imports ++ symbols.map (Import.mk module) }

end Builder

/-- The resolved imports of a module under construction, in the order of the requests. -/
structure ResolvedImports where
  module : String
  /-- Each request with the symbol it found. -/
  entries : List (Import × Symbol)

namespace ResolvedImports

/-- The error of a body that refuses what it finds. -/
def reject (r : ResolvedImports) (message : String) : LinkError := .definition r.module message

/-- The first request for a symbol, with what it found. -/
def find (r : ResolvedImports) (i : Import) : Except LinkError (Import × Symbol) :=
  match r.entries.find? fun entry => entry.1 == i with
  | some entry => .ok entry
  | none => .error (r.reject ("'" ++ i.symbol ++ "' was not imported from '" ++ i.module ++ "'"))

def symbol (r : ResolvedImports) (module symbol : String) : Except LinkError Symbol :=
  (r.find ⟨module, symbol⟩).map Prod.snd

def node (r : ResolvedImports) (module symbol : String) : Except LinkError (Shared Node) :=
  (r.find ⟨module, symbol⟩).bind fun (i, s) => s.asNode i

def typed (r : ResolvedImports) (module symbol : String) : Except LinkError TypedNode :=
  (r.find ⟨module, symbol⟩).bind fun (i, s) => s.asTyped i

def valueSyntax (r : ResolvedImports) (module symbol : String) :
    Except LinkError (Shared Syntax) :=
  (r.find ⟨module, symbol⟩).bind fun (i, s) => s.asSyntax i

def factory (r : ResolvedImports) (module symbol : String) : Except LinkError NodeKind :=
  (r.find ⟨module, symbol⟩).bind fun (i, s) => s.asFactory i

end ResolvedImports

/-- The body of a module: it makes the exports from the imports. -/
abbrev Body (σ : Type) := ResolvedImports → Draft σ ExportTable

namespace Builder

def resolved (b : Builder) (symbols : List Symbol) : ResolvedImports :=
  ⟨b.name, b.imports.zip symbols⟩

def module (b : Builder) (exports : ExportTable) : Module := ⟨b.name, b.imports, exports⟩

end Builder

def Script.build {σ : Type} (b : Builder) (body : Body σ)
    (next : Except LinkError (Shared Module) → Script σ) : Script σ :=
  .resolveFrom b.name b.imports fun
    | .error e => next (.error e)
    | .ok symbols => Script.perform (body (b.resolved symbols)).run fun
      | .error e => next (.error e)
      | .ok exports => .publish (b.module exports) fun object => next (.ok object)

def Script.ofBuilder {σ : Type} (b : Builder) (body : Body σ) : Script σ :=
  Script.build b body fun result => .done (result.map fun _ => ())

end MibLinker
