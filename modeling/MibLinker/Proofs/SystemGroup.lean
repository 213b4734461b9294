import MibLinker.Proofs.Atomicity
import MibLinker.Proofs.Lookup
import MibLinker.Standard

/-!
# The system group

The module of the system group is made of what two other modules export, whatever that may be. All
that it asks for has to be there, then to be of the right sort, and at last the scalars have to be
typed nodes. The first thing that is wrong is the error, and nothing has changed then. Otherwise the
group stands below the node that was found, and its scalars have the very syntaxes that were found.
-/

namespace MibLinker

variable {σ : Type}

/-! ## Sorts of symbols -/

namespace Symbol

/-- What a body asks for when it asks for a symbol. -/
def sort : Symbol → String
  | node _ => "node"
  | valueSyntax _ => "syntax"
  | factory _ => "factory"

def misfit? (s : Symbol) (request : Import) (sort : String) : Option LinkError :=
  if s.sort = sort then none else some (s.mismatch request sort)

@[simp] theorem misfit?_node (n : Shared Node) (i : Import) :
    (node n).misfit? i "node" = none := rfl

@[simp] theorem misfit?_valueSyntax (x : Shared Syntax) (i : Import) :
    (valueSyntax x).misfit? i "syntax" = none := rfl

@[simp] theorem misfit?_factory (kind : NodeKind) (i : Import) :
    (factory kind).misfit? i "factory" = none := rfl

variable (s : Symbol) (i : Import)

theorem asNode_cases :
    (∃ n, s = node n) ∨ ∃ e, s.asNode i = .error e ∧ s.misfit? i "node" = some e := by
  cases s with
  | node n => exact .inl ⟨n, rfl⟩
  | valueSyntax x => exact .inr ⟨_, rfl, rfl⟩
  | factory kind => exact .inr ⟨_, rfl, rfl⟩

theorem asSyntax_cases :
    (∃ x, s = valueSyntax x) ∨ ∃ e, s.asSyntax i = .error e ∧ s.misfit? i "syntax" = some e := by
  cases s with
  | node n => exact .inr ⟨_, rfl, rfl⟩
  | valueSyntax x => exact .inl ⟨x, rfl⟩
  | factory kind => exact .inr ⟨_, rfl, rfl⟩

theorem asFactory_cases :
    (∃ kind, s = factory kind) ∨
      ∃ e, s.asFactory i = .error e ∧ s.misfit? i "factory" = some e := by
  cases s with
  | node n => exact .inr ⟨_, rfl, rfl⟩
  | valueSyntax x => exact .inr ⟨_, rfl, rfl⟩
  | factory kind => exact .inl ⟨kind, rfl⟩

end Symbol

namespace Standard.System

/-! ## What the module is refused for -/

def demands : List (Import × String) :=
  [(⟨Smi.name, "mib-2"⟩, "node"), (⟨Smi.name, "MibIdentifier"⟩, "factory"),
    (⟨Smi.name, "MibScalar"⟩, "factory"), (⟨Smi.name, "TimeTicks"⟩, "syntax"),
    (⟨Conventions.name, "DisplayString"⟩, "syntax")]

def missing? (r : Registry) : Option LinkError :=
  (builder.imports.find? fun i => (r.lookup? i).isNone).map fun i =>
    .unresolvedSymbol i.module i.symbol

def misfit? (r : Registry) : Option LinkError :=
  demands.findSome? fun (i, sort) => (r.lookup? i).bind fun s => s.misfit? i sort

def untyped? (r : Registry) : Option LinkError :=
  match r.lookup? ⟨Smi.name, "MibScalar"⟩ with
  | some (.factory kind) =>
      if kind = .typed then none
      else some (.definition name ("MibScalar builds " ++ kind.name ++ " nodes"))
  | _ => none

/-- The first thing that is wrong with what is published. -/
def fault? (r : Registry) : Option LinkError := (missing? r).or ((misfit? r).or (untyped? r))

structure Exported (r : Registry) (mib2 ticks identifier scalar display : Symbol) : Prop where
  mib2 : r.lookup? ⟨Smi.name, "mib-2"⟩ = some mib2
  ticks : r.lookup? ⟨Smi.name, "TimeTicks"⟩ = some ticks
  identifier : r.lookup? ⟨Smi.name, "MibIdentifier"⟩ = some identifier
  scalar : r.lookup? ⟨Smi.name, "MibScalar"⟩ = some scalar
  display : r.lookup? ⟨Conventions.name, "DisplayString"⟩ = some display

/-- Whether the imports find all that the module needs: the node that the group is to stand below,
two syntaxes, the kind of the group's own node, and the kind of typed nodes. -/
def Founded (r : Registry) (mib2 : Shared Node) (ticks : Shared Syntax) (identifier : NodeKind)
    (display : Shared Syntax) : Prop :=
  Exported r (.node mib2) (.valueSyntax ticks) (.factory identifier) (.factory .typed)
    (.valueSyntax display)

section Exported

variable {r : Registry} {a b c d e : Symbol}

theorem exists_exported {symbols : List Symbol}
    (found : builder.imports.map r.lookup? = symbols.map some) :
    ∃ a b c d e, symbols = [a, b, c, d, e] ∧ Exported r a b c d e := by
  rcases symbols with _ | ⟨a, _ | ⟨b, _ | ⟨c, _ | ⟨d, _ | ⟨e, _ | ⟨f, rest⟩⟩⟩⟩⟩⟩
  all_goals try cases congrArg List.length found
  simp only [builder, Builder.needsAll, Builder.needs, Builder.ofName, List.map_cons, List.map_nil,
    List.nil_append, List.cons_append, List.cons.injEq, and_true] at found
  exact ⟨a, b, c, d, e, rfl, found.1, found.2.1, found.2.2.1, found.2.2.2.1, found.2.2.2.2⟩

/-- The sorts decide over what is exported, in the order in which the body asks for the symbols. -/
theorem Exported.fault?_eq (h : Exported r a b c d e) :
    fault? r = ([a.misfit? ⟨Smi.name, "mib-2"⟩ "node",
      c.misfit? ⟨Smi.name, "MibIdentifier"⟩ "factory", d.misfit? ⟨Smi.name, "MibScalar"⟩ "factory",
      b.misfit? ⟨Smi.name, "TimeTicks"⟩ "syntax",
      e.misfit? ⟨Conventions.name, "DisplayString"⟩ "syntax"].findSome? id).or (untyped? r) := by
  have present : missing? r = none := by
    simp [missing?, builder, Builder.needsAll, Builder.needs, Builder.ofName, h.mib2, h.ticks,
      h.identifier, h.scalar, h.display]
  rw [fault?, present, Option.none_or, misfit?, demands]
  simp only [List.findSome?_cons, h.mib2, h.ticks, h.identifier, h.scalar, h.display]
  rfl

theorem Founded.unique {mib2 mib2' : Shared Node} {ticks ticks' display display' : Shared Syntax}
    {identifier identifier' : NodeKind} (h : Founded r mib2 ticks identifier display)
    (h' : Founded r mib2' ticks' identifier' display') :
    mib2' = mib2 ∧ ticks' = ticks ∧ identifier' = identifier ∧ display' = display :=
  ⟨Symbol.node.inj (Option.some.inj (h'.mib2.symm.trans h.mib2)),
    Symbol.valueSyntax.inj (Option.some.inj (h'.ticks.symm.trans h.ticks)),
    Symbol.factory.inj (Option.some.inj (h'.identifier.symm.trans h.identifier)),
    Symbol.valueSyntax.inj (Option.some.inj (h'.display.symm.trans h.display))⟩

end Exported

/-! ## What the body makes -/

/-- Whether a scalar is exported: a typed node with a syntax that is this very object. -/
def HasScalar (exports : ExportTable) (label : String) (path : Oid) (s : Shared Syntax)
    (access : Access) : Prop :=
  ∃ id, exports[label]? = some (.node ⟨id, .typed
    ⟨label, path, none, some s, some access, some .current, some name⟩⟩)

/-- Whether a table has the group and its scalars, and nothing else. The one syntax that is not
imported is a new object, of the given number. -/
structure HasGroup (exports : ExportTable) (group : Oid) (identifier : NodeKind)
    (ticks display : Shared Syntax) (number : Nat) : Prop where
  labels : exports.keys =
    ["sysContact", "sysDescr", "sysLocation", "sysName", "sysObjectID", "sysUpTime", "system"]
  system : ∃ id, exports["system"]? = some (.node ⟨id, identifier.build
    { label := "system", path := group, module := some name }⟩)
  sysDescr : HasScalar exports "sysDescr" (group.child 1) display .readOnly
  sysObjectID : HasScalar exports "sysObjectID" (group.child 2)
    ⟨number, ⟨"OBJECT IDENTIFIER", none⟩⟩ .readOnly
  sysUpTime : HasScalar exports "sysUpTime" (group.child 3) ticks .readOnly
  sysContact : HasScalar exports "sysContact" (group.child 4) display .readWrite
  sysName : HasScalar exports "sysName" (group.child 5) display .readWrite
  sysLocation : HasScalar exports "sysLocation" (group.child 6) display .readWrite

theorem run_body_of_founded (mib2 : Shared Node) (ticks : Shared Syntax) (identifier : NodeKind)
    (display : Shared Syntax) (desk : Desk σ) :
    ∃ exports, HasGroup exports (mib2.value.path.child 1) identifier ticks display
        desk.nextObject ∧
      (body (builder.resolved [.node mib2, .valueSyntax ticks, .factory identifier,
        .factory .typed, .valueSyntax display])).run desk =
          (.ok exports, { desk with nextObject := desk.nextObject + 8 }) :=
  ⟨_, ⟨rfl, ⟨_, rfl⟩, ⟨_, rfl⟩, ⟨_, rfl⟩, ⟨_, rfl⟩, ⟨_, rfl⟩, ⟨_, rfl⟩, ⟨_, rfl⟩⟩, rfl⟩

/-- The body refuses the first symbol that is of another sort, or makes other nodes, and leaves the
desk alone. If there is none, it makes the group. -/
theorem Exported.run_body {r : Registry} {a b c d e : Symbol} (h : Exported r a b c d e)
    (desk : Desk σ) :
    (∃ error, fault? r = some error ∧
        (body (builder.resolved [a, b, c, d, e])).run desk = (.error error, desk)) ∨
      ∃ mib2 ticks identifier display exports, Founded r mib2 ticks identifier display ∧
        HasGroup exports (mib2.value.path.child 1) identifier ticks display desk.nextObject ∧
        (body (builder.resolved [a, b, c, d, e])).run desk =
          (.ok exports, { desk with nextObject := desk.nextObject + 8 }) := by
  have asksNode : (builder.resolved [a, b, c, d, e]).node Smi.name "mib-2" = a.asNode _ := rfl
  have asksIdentifier :
      (builder.resolved [a, b, c, d, e]).factory Smi.name "MibIdentifier" = c.asFactory _ := rfl
  have asksScalar :
      (builder.resolved [a, b, c, d, e]).factory Smi.name "MibScalar" = d.asFactory _ := rfl
  have asksTicks :
      (builder.resolved [a, b, c, d, e]).valueSyntax Smi.name "TimeTicks" = b.asSyntax _ := rfl
  have asksDisplay :
      (builder.resolved [a, b, c, d, e]).valueSyntax Conventions.name "DisplayString" =
        e.asSyntax _ := rfl
  rw [body, asksNode, asksIdentifier, asksScalar, asksTicks, asksDisplay, h.fault?_eq]
  -- Each symbol is as needed, or the body ends there with its error.
  rcases a.asNode_cases ⟨Smi.name, "mib-2"⟩ with ⟨mib2, rfl⟩ | ⟨error, refused, misfit⟩
  case inr => exact .inl ⟨error, by simp [misfit], by rw [refused]; rfl⟩
  rcases c.asFactory_cases ⟨Smi.name, "MibIdentifier"⟩ with
    ⟨identifier, rfl⟩ | ⟨error, refused, misfit⟩
  case inr => exact .inl ⟨error, by simp [misfit], by rw [refused]; rfl⟩
  rcases d.asFactory_cases ⟨Smi.name, "MibScalar"⟩ with ⟨scalar, rfl⟩ | ⟨error, refused, misfit⟩
  case inr => exact .inl ⟨error, by simp [misfit], by rw [refused]; rfl⟩
  rcases b.asSyntax_cases ⟨Smi.name, "TimeTicks"⟩ with ⟨ticks, rfl⟩ | ⟨error, refused, misfit⟩
  case inr => exact .inl ⟨error, by simp [misfit], by rw [refused]; rfl⟩
  rcases e.asSyntax_cases ⟨Conventions.name, "DisplayString"⟩ with
    ⟨display, rfl⟩ | ⟨error, refused, misfit⟩
  case inr => exact .inl ⟨error, by simp [misfit], by rw [refused]; rfl⟩
  cases scalar with
  | typed =>
      obtain ⟨exports, group, made⟩ := run_body_of_founded mib2 ticks identifier display desk
      exact .inr ⟨mib2, ticks, identifier, display, exports, h, group, made⟩
  | plain => exact .inl ⟨_, by simp [untyped?, h.scalar]; rfl, rfl⟩
  | object => exact .inl ⟨_, by simp [untyped?, h.scalar]; rfl, rfl⟩

/-! ## The definition -/

structure Unchanged (before after : Registry) : Prop where
  modules : after.modules = before.modules
  graph : after.graph = before.graph
  failures : after.failures = before.failures

structure Published (before after : Registry) (mib2 : Shared Node) (ticks : Shared Syntax)
    (identifier : NodeKind) (display : Shared Syntax) (number : Nat) : Prop where
  module : ∃ id exports, after.module? name = some ⟨id, ⟨name, builder.imports, exports⟩⟩ ∧
    HasGroup exports (mib2.value.path.child 1) identifier ticks display number
  dependencies : after.graph.dependencies name = some [Smi.name, Conventions.name]
  unfailed : after.lastFailure? name = none
  others : ∀ other, other ≠ name → after.module? other = before.module? other ∧
    after.graph.successors other = before.graph.successors other ∧
    after.lastFailure? other = before.lastFailure? other

theorem Unchanged.published {before : Registry} {t : Session σ}
    (unchanged : Unchanged before t.registry) {mib2 : Shared Node} {ticks : Shared Syntax}
    {identifier : NodeKind} {display : Shared Syntax} {number : Nat} {exports : ExportTable}
    (group : HasGroup exports (mib2.value.path.child 1) identifier ticks display number) :
    Published before (t.publish (builder.module exports)).2.registry mib2 ticks identifier display
      number := by
  obtain ⟨there, unfailed, listed⟩ := t.record_of_publish (builder.module exports)
  refine ⟨⟨_, exports, there, group⟩, listed, unfailed, fun other different => ?_⟩
  have kept : t.SameRecord other (t.publish (builder.module exports)).2 :=
    Session.sameRecord_publish t (Ne.symm different)
  rw [kept.module, kept.successors, kept.lastFailure?, Registry.module?, unchanged.modules,
    unchanged.graph, Registry.lastFailure?, unchanged.failures]
  exact ⟨rfl, rfl, rfl⟩

/-- A build fails for the first thing that is wrong, and changes nothing; or all is there, and the
group is published. -/
theorem build_cases (s : Session σ) (smi : s.registry.isLoaded Smi.name = true)
    (conventions : s.registry.isLoaded Conventions.name = true) :
    (∃ e t, s.build builder body = (.error e, t) ∧ fault? s.registry = some e ∧
        Unchanged s.registry t.registry) ∨
      ∃ mib2 ticks identifier display m t, s.build builder body = (.ok m, t) ∧
        Founded s.registry mib2 ticks identifier display ∧
        Published s.registry t.registry mib2 ticks identifier display s.desk.nextObject := by
  have loaded : ∀ i ∈ builder.imports, s.registry.isLoaded i.module = true := by
    have sources : ∀ i ∈ builder.imports,
        i.module = Smi.name ∨ i.module = Conventions.name := by decide
    exact fun i hi => (sources i hi).elim (· ▸ smi) (· ▸ conventions)
  have looksUp : s.LooksUp builder.imports
      (Linking.resolveFrom s.fetch builder.name builder.imports s) :=
    Linking.resolveFrom_of_loaded s.registry.allowance builder.name loaded
  rw [Session.build, Linking.build]
  generalize Linking.resolveFrom s.fetch builder.name builder.imports s = resolved at looksUp ⊢
  obtain ⟨answer, t⟩ := resolved
  have unchanged : Unchanged s.registry t.registry := by
    constructor <;> rw [looksUp.onlyReports.registry]
  cases answer with
  | error e =>
      obtain ⟨i, first, rfl⟩ := (looksUp.missed e).mp rfl
      have missing : missing? s.registry = some (.unresolvedSymbol i.module i.symbol) :=
        congrArg _ first
      refine .inl ⟨_, t, rfl, ?_, unchanged⟩
      rw [fault?, missing, Option.some_or]
  | ok symbols =>
      obtain ⟨a, b, c, d, e, rfl, exported⟩ := exists_exported ((looksUp.found symbols).mp rfl)
      rcases exported.run_body t.desk with ⟨error, fault, refused⟩ |
        ⟨mib2, ticks, identifier, display, exports, founded, group, made⟩
      · refine .inl ⟨error, t.withDesk t.desk, ?_, fault, unchanged⟩
        simp only [refused]
      · have desk : t.desk = s.desk := looksUp.onlyReports.desk
        simp only [made]
        exact .inr ⟨mib2, ticks, identifier, display, _, _, rfl, founded,
          Unchanged.published (t := t.withDesk _) unchanged (desk ▸ group)⟩

end Standard.System

end MibLinker
