import Mathlib.Logic.Relation
import MibLinker.Loader
import MibLinker.Proofs.Tables
import MibLinker.Registry.Composition

/-!
# Blueprints

A blueprint is a definition without decisions: it builds one module, from the same imports and with
the same exports whenever it runs. A table of blueprints is a loader, and it is also a graph whose
edges are the imports; whether a module can be linked is a question about that graph alone.
-/

namespace MibLinker

variable {σ : Type}

theorem NameMap.mem_iff {α : Type} {values : NameMap α} {name : String} :
    name ∈ values ↔ ∃ value, values[name]? = some value := by
  rw [Std.ExtTreeMap.mem_iff_isSome_getElem?, Option.isSome_iff_exists]

/-- A list of different names in a table is no longer than the table. -/
theorem NameMap.length_le_size {α : Type} {values : NameMap α} {names : List String}
    (nodup : names.Nodup) (defined : ∀ x ∈ names, x ∈ values) : names.length ≤ values.size := by
  have within : names ⊆ values.keys := fun x hx => Std.ExtTreeMap.mem_keys.mpr (defined x hx)
  have fewer := nodup.length_le_of_subset within
  rw [Std.ExtTreeMap.length_keys] at fewer
  exact fewer

/-- It is shorter if it misses one of them. -/
theorem NameMap.length_lt_size {α : Type} {values : NameMap α} {names : List String}
    (nodup : names.Nodup) (defined : ∀ x ∈ names, x ∈ values) {name : String}
    (hd : name ∈ values) (hn : name ∉ names) : names.length < values.size := by
  have more : (name :: names).Nodup := List.nodup_cons.mpr ⟨hn, nodup⟩
  apply NameMap.length_le_size more
  intro x hx
  rcases List.mem_cons.mp hx with rfl | hx
  · exact hd
  · exact defined x hx

/-- What a definition without decisions says of its module. -/
structure Blueprint where
  imports : List Import
  exports : ExportTable

namespace Blueprint

def module (b : Blueprint) (name : String) : Module := ⟨name, b.imports, b.exports⟩

def script (b : Blueprint) (name : String) : Script σ :=
  .ofBuilder ⟨name, b.imports⟩ fun _ => .ofResult (.ok b.exports)

end Blueprint

abbrev Blueprints := NameMap Blueprint

namespace Blueprints

variable {T : Blueprints}

def catalog (T : Blueprints) : Catalog σ := ⟨T.map fun name b => b.script name⟩

def loader (T : Blueprints) : Loader σ := T.catalog.loader

theorem definition_of_some {name : String} {b : Blueprint} (h : T[name]? = some b) :
    (T.loader : Loader σ).definition name = b.script name := by
  simp only [loader, Catalog.loader, catalog, Std.ExtTreeMap.getElem?_map, h, Option.map_some,
    Option.getD_some]

theorem definition_of_none {name : String} (h : T[name]? = none) :
    (T.loader : Loader σ).definition name = .fail (.moduleNotFound name) := by
  simp only [loader, Catalog.loader, catalog, Std.ExtTreeMap.getElem?_map, h, Option.map_none,
    Option.getD_none]

/-! ## The graph of the imports -/

def Needs (T : Blueprints) (name needed : String) : Prop :=
  ∃ b, T[name]? = some b ∧ ∃ i ∈ b.imports, i.module = needed

abbrev Reaches (T : Blueprints) : String → String → Prop := Relation.ReflTransGen T.Needs

abbrev LeadsTo (T : Blueprints) : String → String → Prop := Relation.TransGen T.Needs

def Exports (T : Blueprints) (i : Import) : Prop :=
  ∃ b, T[i.module]? = some b ∧ i.symbol ∈ b.exports

/-- Whether nothing stands in the way of a module: all that it reaches is defined, is not on a
cycle, and imports only what is exported. -/
structure Linkable (T : Blueprints) (name : String) : Prop where
  defined : ∀ {m}, T.Reaches name m → m ∈ T
  acyclic : ∀ {m}, T.Reaches name m → ¬ T.LeadsTo m m
  exported : ∀ {m b i}, T.Reaches name m → T[m]? = some b → i ∈ b.imports → T.Exports i

theorem Linkable.of_reaches {name m : String} (h : T.Linkable name) (hm : T.Reaches name m) :
    T.Linkable m where
  defined hr := h.defined (hm.trans hr)
  acyclic hr := h.acyclic (hm.trans hr)
  exported hr := h.exported (hm.trans hr)

end Blueprints

end MibLinker
