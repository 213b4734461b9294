import MibLinker.Proofs.Building.Growth
import MibLinker.Proofs.Graph.Placement

/-!
# Load orders

In a layered session whose graph has the imports of what is published, the edges lead from later
publications to earlier ones. So the graph is acyclic, it has the published modules for its names,
and there is an order in which they can be loaded.
-/

namespace MibLinker

variable {σ : Type} {D : Discipline}

namespace Session

variable {s : Session σ}

namespace Charted

variable (charted : s.Charted)

include charted

theorem successors_eq {name : String} {m : Shared Module}
    (hm : s.registry.module? name = some m) :
    s.registry.graph.successors name = m.value.sources.eraseDups := by
  rw [Graph.successors, charted, hm]
  rfl

theorem simple : s.registry.graph.Simple := by
  intro name
  cases hm : s.registry.module? name with
  | none =>
      rw [Graph.successors, charted, hm]
      exact List.nodup_nil
  | some m =>
      rw [charted.successors_eq hm]
      exact (firstOccurrences_eraseDups m.value.sources).nodup

theorem dependencies_isSome_iff {name : String} :
    (s.registry.graph.dependencies name).isSome = true ↔ s.registry.isLoaded name = true := by
  rw [charted, Option.isSome_map, Registry.isLoaded_eq]

theorem dependsOn_of_import {name : String} {m : Shared Module} {i : Import}
    (hm : s.registry.module? name = some m) (hi : i ∈ m.value.imports) :
    s.registry.graph.DependsOn name i.module := by
  show i.module ∈ s.registry.graph.successors name
  rw [charted.successors_eq hm]
  exact List.mem_eraseDups.mpr (List.mem_map_of_mem hi)

end Charted

namespace Layered

variable (h : s.Layered D) (charted : s.Charted)

include h charted

theorem earlier_of_dependsOn {name dependency : String}
    (dep : s.registry.graph.DependsOn name dependency) :
    ∃ m m', s.registry.module? name = some m ∧ s.registry.module? dependency = some m' ∧
      m'.id < m.id := by
  obtain ⟨deps, hd, listed⟩ := Graph.dependsOn_iff.mp dep
  rw [charted, Option.map_eq_some_iff] at hd
  obtain ⟨m, hm, rfl⟩ := hd
  obtain ⟨i, hi, rfl⟩ := List.mem_map.mp (List.mem_eraseDups.mp listed)
  obtain ⟨_, m', hm', earlier⟩ := h.imported hm hi
  exact ⟨m, m', hm, hm', earlier⟩

theorem acyclic : s.registry.graph.Acyclic := by
  have earlier : ∀ {name other}, Relation.TransGen s.registry.graph.DependsOn name other →
      ∃ m m', s.registry.module? name = some m ∧ s.registry.module? other = some m' ∧
        m'.id < m.id := by
    intro name other leads
    induction leads with
    | single dep => exact h.earlier_of_dependsOn charted dep
    | tail _ dep ih =>
        obtain ⟨m, m', hm, hm', first⟩ := ih
        obtain ⟨n, m'', hn, hm'', second⟩ := h.earlier_of_dependsOn charted dep
        obtain rfl := Option.some.inj (hn.symm.trans hm')
        exact ⟨m, m'', hm, hm'', Nat.lt_trans second first⟩
  intro name back
  obtain ⟨m, m', hm, hm', later⟩ := earlier back
  obtain rfl := Option.some.inj (hm.symm.trans hm')
  exact Nat.lt_irrefl _ later

theorem mem_names_iff {name : String} :
    name ∈ s.registry.graph.names ↔ s.registry.isLoaded name = true := by
  rw [Graph.mem_names, ← charted.dependencies_isSome_iff, Option.isSome_iff_exists]
  constructor
  · rintro ⟨module, deps, hd, rfl | listed⟩
    · exact ⟨deps, hd⟩
    · have dep := Graph.dependsOn_iff.mpr ⟨deps, hd, listed⟩
      obtain ⟨_, m', _, hm', _⟩ := h.earlier_of_dependsOn charted dep
      exact ⟨_, by rw [charted, hm']; rfl⟩
  · rintro ⟨deps, hd⟩
    exact ⟨name, deps, hd, .inl rfl⟩

/-- There is a load order, which has the published modules once each, and the modules of all imports
before their importers. -/
theorem exists_loadOrder :
    ∃ order, s.registry.loadOrder = .ok order ∧ order.Perm s.registry.moduleNames ∧
      s.registry.graph.Orders order := by
  obtain ⟨order, ho, orders⟩ := Graph.exists_dependencyOrder charted.simple (h.acyclic charted)
  refine ⟨order, ho, ?_, orders⟩
  apply (List.perm_ext_iff_of_nodup orders.nodup Std.ExtTreeMap.nodup_keys).mpr
  intro name
  rw [orders.mem_iff, h.mem_names_iff charted, Registry.isLoaded,
    Std.ExtTreeMap.contains_iff_mem]
  exact Std.ExtTreeMap.mem_keys.symm

end Layered

end Session

/-! ## Registries that only build -/

/-- Whether an operation publishes no module but by building or publishing it for the first time. -/
inductive Operation.Orderly (s : Session σ) : Operation σ → Prop
  | call (c : Call) : Orderly s (.call c)
  | preload : Orderly s .preload
  | publish {name : String} {exports : ExportTable} : s.registry.isLoaded name = false →
      Orderly s (.publish (.ofExports name exports))
  | build {b : Builder} {body : Body σ} : s.registry.isLoaded b.name = false →
      Orderly s (.build b body)

def Session.Proceeds (s t : Session σ) : Prop :=
  ∃ operation : Operation σ, operation.Orderly s ∧ t = operation.perform s.registry.allowance s

/-- Orderly operations keep a session layered, and its graph that of what is published. -/
theorem Operation.Orderly.layered {operation : Operation σ} {s : Session σ}
    (orderly : operation.Orderly s) (h : s.Layered .free) (charted : s.Charted) (allowance : Nat) :
    (operation.perform allowance s).Layered .free ∧ (operation.perform allowance s).Charted := by
  cases orderly with
  | call c =>
      have grown := h.call allowance c
      exact ⟨grown.layered, grown.charted charted⟩
  | preload =>
      have grown := h.loadAll allowance s.registry.options.preload
      exact ⟨grown.layered, grown.charted charted⟩
  | publish new =>
      refine ⟨h.publish trivial (Registry.isLoaded_eq_false_iff.mp new) ?_, charted.publish ?_⟩
      · exact fun i hi => (List.not_mem_nil hi).elim
      · exact fun i hi => (List.not_mem_nil hi).elim
  | @build b body new =>
      have unpublished := Registry.isLoaded_eq_false_iff.mp new
      have built : s.Accrues .free [] [b.name] _ :=
        (Linking.build_accrues (Linking.fetch_accrues allowance) (Discipline.allows_free b body)
          h.follows unpublished List.not_mem_nil (List.nil_subset _)).1
      exact ⟨built.layered h, built.charted charted⟩

/-- As long as modules are only built, by the definitions of the loader and from outside, and
published for the first time, there is a load order: the graph is acyclic, its modules are the
published ones, and the order has each of them once, after the modules of its imports. -/
theorem load_order_of_builds {options : Options} {loader : Option (Loader σ)} {data : σ}
    (builds : ∀ l, loader = some l → l.Follows .free) {s : Session σ}
    (reached : Relation.ReflTransGen Session.Proceeds (.start options loader data) s) :
    s.registry.graph.Acyclic ∧
      (∀ name, name ∈ s.registry.graph.modules ↔ s.registry.isLoaded name = true) ∧
      ∃ order, s.registry.loadOrder = .ok order ∧ order.Perm s.registry.moduleNames ∧
        order.Nodup ∧ ∀ name m i, s.registry.module? name = some m → i ∈ m.value.imports →
          order.idxOf i.module < order.idxOf name := by
  have stacked : s.Layered .free ∧ s.Charted := by
    induction reached with
    | refl => exact ⟨.start (builds _), .start⟩
    | tail _ step ih =>
        obtain ⟨operation, orderly, rfl⟩ := step
        exact orderly.layered ih.1 ih.2 _
  obtain ⟨layered, charted⟩ := stacked
  obtain ⟨order, ho, perm, orders⟩ := layered.exists_loadOrder charted
  refine ⟨layered.acyclic charted, fun name => ?_, order, ho, perm, orders.nodup,
    fun name m i hm hi => ?_⟩
  · rw [← charted.dependencies_isSome_iff, Graph.modules, Std.ExtTreeMap.mem_keys,
      Std.ExtTreeMap.mem_iff_isSome_getElem?]
    rfl
  · exact orders.idxOf_lt (charted.dependsOn_of_import hm hi)

def Loader.tangled : Loader Unit where
  offers name := name ∈ ["A", "B", "C", "D"]
  definition name :=
    if name = "A" then .ofBuilder ⟨name, [⟨"B", "x"⟩]⟩ fun _ => .ofResult (.ok .single)
    else if name = "B" then
      .ofBuilder ⟨name, [⟨"C", "x"⟩, ⟨"A", "x"⟩]⟩ fun _ => .ofResult (.ok .single)
    else if name = "C" then .ofBuilder ⟨name, []⟩ fun _ => .ofResult (.ok .single)
    else if name = "D" then
      .ofBuilder ⟨name, [⟨"C", "x"⟩]⟩ fun found => .ofResult (.error (found.reject "unusable"))
    else .fail (.moduleNotFound name)

theorem Loader.follows_tangled : Loader.tangled.Follows .free := by
  intro name
  unfold Loader.tangled
  dsimp only
  repeat' split
  · exact .build (Discipline.allows_free _ _)
  · exact .build (Discipline.allows_free _ _)
  · exact .build (Discipline.allows_free _ _)
  · exact .build (Discipline.allows_free _ _)
  · exact .refuse _

/-- A session in which a load met a cycle and another one a failing body, after which one of the
modules on the cycle was built from outside with other imports. -/
def Session.afterTangle : Session Unit :=
  (start {} (some .tangled) ()).afterAll
    [.call (.load "A"), .call (.load "D"),
      .build ⟨"A", [⟨"C", "x"⟩]⟩ fun _ => .ofResult (.ok .single)]

theorem load_order_of_builds_after_tangle :
    Session.afterTangle.registry.lastFailure? "B" = some (.circularDependency ["A", "B", "A"]) ∧
      Session.afterTangle.registry.moduleNames = ["A", "C"] ∧
      ∃ order, Session.afterTangle.registry.loadOrder = .ok order ∧ order.Perm ["A", "C"] ∧
        order.idxOf "C" < order.idxOf "A" := by
  have reached : Relation.ReflTransGen Session.Proceeds
      (.start {} (some .tangled) ()) Session.afterTangle := by
    refine .tail (.tail (.tail .refl ⟨_, .call (.load "A"), rfl⟩) ⟨_, .call (.load "D"), rfl⟩)
      ⟨_, .build ?_, rfl⟩
    decide
  have builds : ∀ l, some Loader.tangled = some l → l.Follows .free := by
    intro l hl
    obtain rfl := Option.some.inj hl
    exact Loader.follows_tangled
  obtain ⟨_, _, order, ho, perm, _, later⟩ := load_order_of_builds builds reached
  have names : Session.afterTangle.registry.moduleNames = ["A", "C"] := by decide
  exact ⟨by decide, names, order, ho, names ▸ perm, later "A" _ ⟨"C", "x"⟩ rfl (.head _)⟩

end MibLinker
