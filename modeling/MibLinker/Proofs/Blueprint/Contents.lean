import MibLinker.Proofs.Blueprint.OnDemand

/-!
# Contents of a registry that runs blueprints

All that is published from a table of blueprints is what the blueprints say. So the names that are
published determine the contents of a registry and its graph, whatever was asked for and in which
order.
-/

namespace MibLinker

variable {σ : Type}

def Registry.contents (r : Registry) : NameMap Module := r.modules.map fun _ m => m.value

namespace Registry

theorem getElem?_contents (r : Registry) (name : String) :
    r.contents[name]? = (r.module? name).map Shared.value :=
  Std.ExtTreeMap.getElem?_map

theorem keys_contents (r : Registry) : r.contents.keys = r.moduleNames :=
  Std.ExtTreeMap.keys_map

end Registry

/-- The graph of what is published is told by the contents. -/
theorem Session.Charted.graph_eq {σ' : Type} {s : Session σ} {t : Session σ'}
    (h : s.Charted) (h' : t.Charted) (same : s.registry.contents = t.registry.contents) :
    s.registry.graph = t.registry.graph := by
  apply Graph.ext_dependencies
  intro name
  have contents := congrArg (fun contents : NameMap Module => contents[name]?) same
  simp only [Registry.getElem?_contents] at contents
  rw [h, h']
  have sources := congrArg (Option.map fun m : Module => m.sources.eraseDups) contents
  rw [Option.map_map, Option.map_map] at sources
  exact sources

namespace Blueprints

variable {T : Blueprints}

theorem finds_of_exports {s : Session σ} (h : s.Layered T.discipline) {i : Import}
    (published : s.registry.isLoaded i.module = true) (exported : T.Exports i) : s.Finds i := by
  obtain ⟨m, hm⟩ := Registry.isLoaded_iff.mp published
  obtain ⟨b, hb, hv⟩ := h.made hm
  obtain ⟨b', hb', hi⟩ := exported
  obtain rfl := Option.some.inj (hb.symm.trans hb')
  refine ⟨m, hm, ?_⟩
  rw [hv]
  exact NameMap.mem_iff.mp hi

/-- The contents are told by the names that are published. -/
theorem contents_eq {σ' : Type} {s : Session σ} {t : Session σ'} (h : s.Layered T.discipline)
    (h' : t.Layered T.discipline)
    (same : ∀ name, s.registry.isLoaded name = true ↔ t.registry.isLoaded name = true) :
    s.registry.contents = t.registry.contents := by
  apply Std.ExtTreeMap.ext_getElem?
  intro name
  have both := same name
  simp only [Registry.getElem?_contents, Registry.isLoaded_eq] at both ⊢
  cases hm : s.registry.module? name with
  | none =>
      cases hm' : t.registry.module? name with
      | none => rfl
      | some m' => simp [hm, hm'] at both
  | some m =>
      cases hm' : t.registry.module? name with
      | none => simp [hm, hm'] at both
      | some m' =>
          obtain ⟨b, hb, hv⟩ := h.made hm
          obtain ⟨b', hb', hv'⟩ := h'.made hm'
          obtain rfl := Option.some.inj (hb.symm.trans hb')
          rw [Option.map_some, Option.map_some, hv, hv']

end Blueprints

end MibLinker
