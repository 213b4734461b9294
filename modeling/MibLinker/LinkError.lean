/-!
# Errors of linking

Why a symbol could not be resolved, or a module not be loaded or defined, with the text of each
cause. A failed load is remembered with its error, so an error is a plain value.
-/

namespace MibLinker

inductive LinkError where
  /-- The module exists, and exports no such symbol. -/
  | unresolvedSymbol (module symbol : String)
  /-- The load stack leads back to a module on it; the path starts and ends with that module. -/
  | circularDependency (path : List String)
  /-- No loader has a definition of the module. -/
  | moduleNotFound (module : String)
  /-- The definition of the module ended well and published no such module. -/
  | notPublished (module : String)
  /-- The symbol is of another kind than its importer needs. -/
  | symbolKind (module symbol expected actual : String)
  /-- The load would nest deeper than the options allow. -/
  | loadDepthExceeded (module : String) (depth : Nat)
  /-- The module's own body refuses what it finds. -/
  | definition (module message : String)
deriving DecidableEq

namespace LinkError

def message : LinkError → String
  | unresolvedSymbol module symbol =>
      "Symbol '" ++ symbol ++ "' not found in module '" ++ module ++ "'"
  | circularDependency path =>
      "Circular dependency detected: " ++ " -> ".intercalate path
  | moduleNotFound module => "Module not found: " ++ module
  | notPublished module => "Module '" ++ module ++ "' was loaded but never published"
  | symbolKind module symbol expected actual =>
      "Symbol '" ++ symbol ++ "' in module '" ++ module ++ "' has wrong kind: expected "
        ++ expected ++ ", got " ++ actual
  | loadDepthExceeded module depth =>
      "Loading module '" ++ module ++ "' exceeds maximum load depth " ++ toString depth
  | definition module message => "Module '" ++ module ++ "': " ++ message

/-- The module that the error is about, where there is a single one. -/
def module? : LinkError → Option String
  | unresolvedSymbol module _ => some module
  | circularDependency _ => none
  | moduleNotFound module => some module
  | notPublished module => some module
  | symbolKind module _ _ _ => some module
  | loadDepthExceeded module _ => some module
  | definition module _ => some module

end LinkError

end MibLinker
