import Mathlib.Data.List.Basic
import MibLinker.Loader
import MibLinker.Registry.Linking

/-!
# Chains of chains

A chain may have chains among its members. Which loader answers for a name is then decided from
member to member at every level, and comes to the same as in one flat chain: the leaf furthest to
the left that offers the name answers, and no other. For catalogs it comes to the same as in one
catalog in which those further to the left were registered later.
-/

namespace MibLinker

variable {σ α : Type}

/-! ## One chain -/

namespace Chain

variable {first : Loader σ} {members others : List (Loader σ)} {name : String}

@[simp] theorem offers_nil : (Chain.loader (σ := σ) ⟨[]⟩).offers name = false := rfl

@[simp] theorem definition_nil :
    (Chain.loader (σ := σ) ⟨[]⟩).definition name = .fail (.moduleNotFound name) := rfl

theorem offers_cons :
    (loader ⟨first :: members⟩).offers name =
      (first.offers name || (loader ⟨members⟩).offers name) := rfl

theorem definition_cons :
    (loader ⟨first :: members⟩).definition name =
      if first.offers name then first.definition name else (loader ⟨members⟩).definition name := by
  simp only [loader, List.find?_cons]
  cases first.offers name <;> rfl

theorem offers_append :
    (loader ⟨members ++ others⟩).offers name =
      ((loader ⟨members⟩).offers name || (loader ⟨others⟩).offers name) := List.any_append

/-- A chain answers by its front part whenever that offers the name. -/
theorem definition_append :
    (loader ⟨members ++ others⟩).definition name =
      if (loader ⟨members⟩).offers name then (loader ⟨members⟩).definition name
      else (loader ⟨others⟩).definition name := by
  induction members with
  | nil => rfl
  | cons first rest ih =>
      rw [List.cons_append, definition_cons, definition_cons, offers_cons, ih]
      cases first.offers name <;> simp

theorem definition_of_first (absent : ∀ other ∈ members, other.offers name = false)
    (offered : first.offers name = true) :
    (loader ⟨members ++ first :: others⟩).definition name = first.definition name := by
  have before : (loader ⟨members⟩).offers name = false :=
    List.any_eq_false.mpr (by simpa using absent)
  rw [definition_append, before, definition_cons, offered]
  rfl

theorem definition_of_none (absent : ∀ member ∈ members, member.offers name = false) :
    (loader ⟨members⟩).definition name = .fail (.moduleNotFound name) := by
  have unfound : members.find? (·.offers name) = none :=
    List.find?_eq_none.mpr (by simpa using absent)
  simp only [loader, unfound]

end Chain

/-! ## Chains in chains -/

inductive ChainTree (α : Type) where
  | leaf (member : α)
  | chain (members : List (ChainTree α))

namespace ChainTree

mutual

def leaves : ChainTree α → List α
  | leaf member => [member]
  | chain members => leavesOf members

def leavesOf : List (ChainTree α) → List α
  | [] => []
  | first :: rest => first.leaves ++ leavesOf rest

end

mutual

/-- The loader that the leaves make, each being one by itself. -/
def loader (single : α → Loader σ) : ChainTree α → Loader σ
  | leaf member => single member
  | chain members => Chain.loader ⟨loaders single members⟩

def loaders (single : α → Loader σ) : List (ChainTree α) → List (Loader σ)
  | [] => []
  | first :: rest => first.loader single :: loaders single rest

end

def flat (single : α → Loader σ) (leaves : List α) : Loader σ := Chain.loader ⟨leaves.map single⟩

variable (single : α → Loader σ) (name : String)

mutual

theorem offers_eq_flat (tree : ChainTree α) :
    (tree.loader single).offers name = (flat single tree.leaves).offers name := by
  cases tree with
  | leaf member => simp [loader, flat, leaves, Chain.offers_cons]
  | chain members => exact offers_loaders members

theorem offers_loaders (members : List (ChainTree α)) :
    (Chain.loader ⟨loaders single members⟩).offers name =
      (flat single (leavesOf members)).offers name := by
  cases members with
  | nil => rfl
  | cons first rest =>
      rw [flat, leavesOf, List.map_append, Chain.offers_append, loaders, Chain.offers_cons,
        offers_eq_flat first, offers_loaders rest]
      rfl

end

mutual

/-- A tree defines what its leaves in a chain define, as long as it offers the name: a single leaf
may have a definition of a name that it does not offer. -/
theorem definition_eq_flat (tree : ChainTree α)
    (offered : (flat single tree.leaves).offers name = true) :
    (tree.loader single).definition name = (flat single tree.leaves).definition name := by
  cases tree with
  | leaf member =>
      have offers : (single member).offers name = true := by
        simpa [flat, leaves, Chain.offers_cons] using offered
      simp [loader, flat, leaves, Chain.definition_cons, offers]
  | chain members => exact definition_loaders members

theorem definition_loaders (members : List (ChainTree α)) :
    (Chain.loader ⟨loaders single members⟩).definition name =
      (flat single (leavesOf members)).definition name := by
  cases members with
  | nil => rfl
  | cons first rest =>
      rw [flat, leavesOf, List.map_append, Chain.definition_append, ← flat, ← flat, loaders,
        Chain.definition_cons, offers_eq_flat, definition_loaders rest]
      split
      · next offered => exact definition_eq_flat first offered
      · rfl

end

/-- A chain of chains is the chain of its leaves, for every name. -/
theorem loader_chain (members : List (ChainTree α)) :
    (chain members).loader single = flat single (chain members).leaves := by
  have offers : ((chain members).loader single).offers =
      (flat single (chain members).leaves).offers :=
    funext fun name => offers_loaders single name members
  have definition : ((chain members).loader single).definition =
      (flat single (chain members).leaves).definition :=
    funext fun name => definition_loaders single name members
  exact congrArg₂ Loader.mk offers definition

end ChainTree

/-! ## Catalogs in a chain -/

namespace Catalog

def registerAll (c other : Catalog σ) : Catalog σ := other.definitions.foldl register c

/-- One catalog with the definitions of several, registered from the last catalog to the first. -/
def merged (catalogs : List (Catalog σ)) : Catalog σ :=
  catalogs.foldr (fun c later => later.registerAll c) empty

theorem definitions_foldl_register (entries : List (String × Script σ)) (c : Catalog σ) :
    (entries.foldl (fun c entry => c.register entry.1 entry.2) c).definitions =
      c.definitions.insertMany entries := by
  induction entries generalizing c with
  | nil => rfl
  | cons entry rest ih =>
      rw [List.foldl_cons, ih, Std.ExtTreeMap.insertMany_cons]
      rfl

/-- What is registered later stands in place of what was there. -/
theorem getElem?_registerAll (c other : Catalog σ) (name : String) :
    (c.registerAll other).definitions[name]? =
      other.definitions[name]?.or c.definitions[name]? := by
  rw [registerAll, Std.ExtTreeMap.foldl_eq_foldl_toList, definitions_foldl_register]
  cases h : other.definitions[name]? with
  | none =>
      have absent : (other.definitions.toList.map Prod.fst).contains name = false := by
        simpa [Std.ExtTreeMap.mem_toList_iff_getElem?_eq_some] using h
      rw [Std.ExtTreeMap.getElem?_insertMany_list_of_contains_eq_false absent, Option.none_or]
  | some definition =>
      have listed := Std.ExtTreeMap.mem_toList_iff_getElem?_eq_some.mpr h
      rw [Std.ExtTreeMap.getElem?_insertMany_list_of_mem (by simp)
        Std.ExtTreeMap.distinct_keys_toList listed, Option.some_or]

theorem offers_registerAll (c other : Catalog σ) (name : String) :
    (c.registerAll other).loader.offers name =
      (other.loader.offers name || c.loader.offers name) := by
  simp only [loader, Std.ExtTreeMap.contains_eq_isSome_getElem?, getElem?_registerAll]
  cases other.definitions[name]? <;> rfl

theorem definition_registerAll (c other : Catalog σ) (name : String) :
    (c.registerAll other).loader.definition name =
      if other.loader.offers name then other.loader.definition name
      else c.loader.definition name := by
  simp only [loader, Std.ExtTreeMap.contains_eq_isSome_getElem?, getElem?_registerAll]
  cases other.definitions[name]? <;> rfl

/-- Catalogs in a chain are one catalog, in which what the first of them define came last. -/
theorem loader_merged (catalogs : List (Catalog σ)) :
    (merged catalogs).loader = ChainTree.flat loader catalogs := by
  have entry : ∀ name, (merged catalogs).loader.offers name =
        (ChainTree.flat loader catalogs).offers name ∧
      (merged catalogs).loader.definition name =
        (ChainTree.flat loader catalogs).definition name := by
    intro name
    induction catalogs with
    | nil => exact ⟨by simp [merged, empty, loader, ChainTree.flat], by
        simp [merged, empty, loader, ChainTree.flat]⟩
    | cons c rest ih =>
        have merged_cons : merged (c :: rest) = (merged rest).registerAll c := rfl
        have flat_cons : ChainTree.flat loader (c :: rest) =
            Chain.loader ⟨c.loader :: rest.map loader⟩ := rfl
        rw [merged_cons, flat_cons, offers_registerAll, definition_registerAll, ih.1, ih.2,
          Chain.offers_cons, Chain.definition_cons]
        exact ⟨rfl, rfl⟩
  exact congrArg₂ Loader.mk (funext fun name => (entry name).1) (funext fun name => (entry name).2)

end Catalog

/-- Chains of chains are flat. For every name they offer and define what one chain of the leaves
does, from left to right. So a load runs the definition of the first leaf that offers the name,
whatever comes of it, and no other; and it does nothing where none offers the name. When the leaves
are catalogs, all of it is one catalog, with their definitions registered from the last leaf to the
first. -/
theorem nested_chains_flatten :
    (∀ (single : α → Loader σ) (members : List (ChainTree α)),
      let tree := ChainTree.chain members
      tree.loader single = Chain.loader ⟨tree.leaves.map single⟩ ∧
        ∀ (s : Session σ) (name : String),
          (∀ before leaf after, tree.leaves = before ++ leaf :: after →
            (∀ other ∈ before, (single other).offers name = false) →
            (single leaf).offers name = true →
              s.run ((tree.loader single).definition name) =
                s.run ((single leaf).definition name)) ∧
          ((∀ leaf ∈ tree.leaves, (single leaf).offers name = false) →
            s.run ((tree.loader single).definition name) = (.error (.moduleNotFound name), s))) ∧
    ∀ members : List (ChainTree (Catalog σ)),
      (ChainTree.chain members).loader Catalog.loader =
        (Catalog.merged (ChainTree.chain members).leaves).loader := by
  refine ⟨fun single members => ?_, fun members => ?_⟩
  · intro tree
    have flattens : tree.loader single = ChainTree.flat single tree.leaves :=
      ChainTree.loader_chain single members
    refine ⟨flattens, fun s name => ⟨fun before leaf after split absent offered => ?_,
      fun absent => ?_⟩⟩
    · have absent' : ∀ other ∈ before.map single, other.offers name = false := by simpa using absent
      rw [flattens, ChainTree.flat, split, List.map_append, List.map_cons,
        Chain.definition_of_first absent' offered]
    · have absent' : ∀ leaf ∈ tree.leaves.map single, leaf.offers name = false := by
        simpa using absent
      rw [flattens, ChainTree.flat, Chain.definition_of_none absent']
      rfl
  · rw [ChainTree.loader_chain, Catalog.loader_merged]

def Loader.claiming (name : String) : Loader σ where
  offers := (· == name)
  definition name := .fail (.moduleNotFound name)

def Catalog.publishing (name : String) (kind : NodeKind) : Catalog Unit :=
  empty.register name <|
    .publish (.ofExports name (.ofList [("x", Symbol.factory kind)])) fun _ => .succeed

/-- Behind an empty chain, a loader claims a name that a catalog further to the right defines. -/
def ChainTree.claimed : List (ChainTree (Loader Unit)) :=
  [.chain [], .chain [.leaf (.claiming "M"), .leaf (Catalog.publishing "M" .plain).loader],
    .chain [.leaf (Catalog.publishing "N" .plain).loader]]

def ChainTree.shadowed : List (ChainTree (Catalog Unit)) :=
  [.chain [.leaf (.publishing "M" .typed)], .leaf (.publishing "N" .plain),
    .chain [.chain [.leaf (.publishing "M" .plain)]]]

/-- The claim stands, though the load fails. Another name is loaded from the last leaf, and a third
one is refused. Of the two definitions in catalogs, the one further to the left is run. -/
theorem nested_chains_flatten_of_claimed :
    let claimed := (ChainTree.chain ChainTree.claimed).loader id
    let shadowed := (ChainTree.chain ChainTree.shadowed).loader Catalog.loader
    let s : Session Unit := .start {} none ()
    claimed.offers "M" = true ∧
      s.run (claimed.definition "M") = (.error (.moduleNotFound "M"), s) ∧
      (s.run (claimed.definition "N")).2.registry.moduleNames = ["N"] ∧
      s.run (claimed.definition "O") = (.error (.moduleNotFound "O"), s) ∧
      (s.run (shadowed.definition "M")).2.registry.lookup? ⟨"M", "x"⟩ = some (.factory .typed) := by
  intro claimed shadowed s
  obtain ⟨-, loads⟩ := (nested_chains_flatten (σ := Unit)).1 id ChainTree.claimed
  have claims := (loads s "M").1 [] (.claiming "M")
    [(Catalog.publishing "M" .plain).loader, (Catalog.publishing "N" .plain).loader]
    rfl (by simp) (by decide)
  have refuses := (loads s "O").2 (by decide)
  have merges := (nested_chains_flatten (α := Unit) (σ := Unit)).2 ChainTree.shadowed
  refine ⟨by decide, claims, by decide, refuses, ?_⟩
  simp only [shadowed, merges]
  decide

end MibLinker
