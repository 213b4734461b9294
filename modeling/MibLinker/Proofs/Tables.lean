import Mathlib.Data.List.Basic
import MibLinker.Graph.Lemmas
import MibLinker.Proofs.Moment

/-!
# Agreement of the tables

The publications, the failures and the dependency graph are changed one after the other, with
scripts running in between. They agree all the same, whenever a client or a definition looks.
-/

namespace MibLinker

variable {σ : Type}

/-! ## First occurrences -/

/-- Whether a list holds the names of another list, in the order of their first occurrences. -/
structure FirstOccurrences (names firsts : List String) : Prop where
  ordered : firsts.Pairwise fun a b => names.idxOf a < names.idxOf b
  mem_iff : ∀ name, name ∈ firsts ↔ name ∈ names

private theorem idxOf_cons_lt_iff (c a b : String) (rest : List String) :
    (c :: rest).idxOf a < (c :: rest).idxOf b ↔
      c ≠ b ∧ (c = a ∨ rest.idxOf a < rest.idxOf b) := by
  by_cases hb : c = b
  · simp [hb]
  · rw [List.idxOf_cons_ne _ hb]
    by_cases ha : c = a
    · simpa [ha] using fun heq => hb (ha.trans heq)
    · rw [List.idxOf_cons_ne _ ha]
      simp [ha, hb]

private theorem idxOf_lt_of_filter {p : String → Bool} {names : List String} {a b : String}
    (hb : p b = true)
    (h : (names.filter p).idxOf a < (names.filter p).idxOf b) :
    names.idxOf a < names.idxOf b := by
  induction names with
  | nil => simp at h
  | cons c rest ih =>
      rw [idxOf_cons_lt_iff]
      by_cases hc : p c = true
      · rw [List.filter_cons_of_pos hc, idxOf_cons_lt_iff] at h
        exact ⟨h.1, h.2.imp_right ih⟩
      · rw [List.filter_cons_of_neg hc] at h
        refine ⟨?_, .inr (ih h)⟩
        rintro rfl
        exact hc hb

theorem firstOccurrences_eraseDups (names : List String) :
    FirstOccurrences names names.eraseDups := by
  refine ⟨?_, fun name => List.mem_eraseDups⟩
  match names with
  | [] => simp
  | a :: rest =>
      rw [List.eraseDups_cons, List.pairwise_cons]
      have kept : ∀ {b}, b ∈ (rest.filter fun b => !b == a).eraseDups → (!b == a) = true :=
        fun hb => (List.mem_filter.mp (List.mem_eraseDups.mp hb)).2
      constructor
      · intro b hb
        have hne : a ≠ b := fun heq => by simpa [heq] using kept hb
        exact (idxOf_cons_lt_iff ..).mpr ⟨hne, .inl rfl⟩
      · have later := (firstOccurrences_eraseDups (rest.filter fun b => !b == a)).ordered
        refine later.imp_of_mem fun {b c} hb hc hlt => ?_
        have hne : a ≠ c := fun heq => by simpa [heq] using kept hc
        have hlt := idxOf_lt_of_filter (kept hc) hlt
        exact (idxOf_cons_lt_iff ..).mpr ⟨hne, .inr hlt⟩
termination_by names.length
decreasing_by
  have := List.length_filter_le (fun b => !b == a) rest
  simp only [List.length_cons]
  omega

theorem FirstOccurrences.nodup {names firsts : List String} (h : FirstOccurrences names firsts) :
    firsts.Nodup := by
  refine h.ordered.imp ?_
  rintro a _ earlier rfl
  exact Nat.lt_irrefl _ earlier

/-! ## Coherence -/

/-- Whether the tables agree: no published name has a failure, a published module depends on the
modules that it imports from, and any other name in the graph depends on nothing. -/
structure Registry.Coherent (r : Registry) : Prop where
  unpublished_of_failed : ∀ {name e}, r.lastFailure? name = some e → r.isLoaded name = false
  dependencies_of_published : ∀ {name m}, r.module? name = some m →
    ∃ dependencies, r.graph.dependencies name = some dependencies ∧
      FirstOccurrences (m.value.imports.map Import.module) dependencies
  dependencies_of_unpublished : ∀ {name dependencies}, r.isLoaded name = false →
    r.graph.dependencies name = some dependencies → dependencies = []

namespace Registry

theorem isLoaded_eq_false_iff {r : Registry} {name : String} :
    r.isLoaded name = false ↔ r.module? name = none := by
  rw [isLoaded, module?, Std.ExtTreeMap.contains_eq_isSome_getElem?, Option.isSome_eq_false_iff,
    Option.isNone_iff_eq_none]

theorem isLoaded_iff {r : Registry} {name : String} :
    r.isLoaded name = true ↔ ∃ m, r.module? name = some m := by
  rw [isLoaded, module?, Std.ExtTreeMap.contains_eq_isSome_getElem?, Option.isSome_iff_exists]

/-! What each change does to the tables, read through the questions. -/

theorem module?_publish (r : Registry) (m : Module) (name : String) :
    (r.publish m).2.module? name =
      if m.name = name then some ⟨r.publications, m⟩ else r.module? name := by
  simp only [publish, module?, Std.ExtTreeMap.getElem?_insert, Std.compare_eq_iff_eq]

theorem module?_discard (r : Registry) (discarded name : String) :
    (r.discard discarded).module? name =
      if discarded = name then none else r.module? name := by
  simp only [discard, module?, Std.ExtTreeMap.getElem?_erase, Std.compare_eq_iff_eq]

theorem failures_publish (r : Registry) (m : Module) (name : String) :
    (r.publish m).2.failures[name]? = if m.name = name then none else r.failures[name]? := by
  simp only [publish, Std.ExtTreeMap.getElem?_erase, Std.compare_eq_iff_eq]

theorem failures_recordFailure (r : Registry) (failed name : String) (e : LinkError) :
    (r.recordFailure failed e).failures[name]? =
      if failed = name then some ⟨r.generation, e⟩ else r.failures[name]? := by
  simp only [recordFailure, Std.ExtTreeMap.getElem?_insert, Std.compare_eq_iff_eq]

theorem lastFailure?_eq_some_iff {r : Registry} {name : String} {e : LinkError} :
    r.lastFailure? name = some e ↔ ∃ failure, r.failures[name]? = some failure ∧ failure.error = e :=
  Option.map_eq_some_iff

structure SameTables (q r : Registry) : Prop where
  modules : q.modules = r.modules
  failures : q.failures = r.failures
  graph : q.graph = r.graph

namespace Coherent

variable {r : Registry}

theorem congr {q : Registry} (h : r.Coherent) (same : SameTables q r) : q.Coherent := by
  cases q
  cases r
  obtain ⟨rfl, rfl, rfl⟩ := same
  exact ⟨h.unpublished_of_failed, h.dependencies_of_published, h.dependencies_of_unpublished⟩

theorem ofOptions (options : Options) : (Registry.ofOptions options).Coherent := by
  refine ⟨fun _ => by simp [isLoaded, Registry.ofOptions], fun h => ?_, fun _ h => ?_⟩
  · simp [module?, Registry.ofOptions] at h
  · simp [Registry.ofOptions] at h

theorem publish (h : r.Coherent) (m : Module) : (r.publish m).2.Coherent := by
  have graph : (r.publish m).2.graph = r.graph.setDependencies m.name m.sources := rfl
  constructor
  · intro name e he
    rw [lastFailure?_eq_some_iff, failures_publish] at he
    rw [isLoaded_eq_false_iff, module?_publish]
    by_cases hn : m.name = name
    · simp [hn] at he
    · rw [if_neg hn] at he ⊢
      exact isLoaded_eq_false_iff.mp (h.unpublished_of_failed (lastFailure?_eq_some_iff.mpr he))
  · intro name object hm
    rw [module?_publish] at hm
    rw [graph, Graph.dependencies_setDependencies]
    by_cases hn : m.name = name
    · simp only [if_pos hn, Option.some.injEq] at hm ⊢
      subst hm
      exact ⟨_, rfl, firstOccurrences_eraseDups _⟩
    · rw [if_neg hn] at hm ⊢
      obtain ⟨dependencies, hd, hfirst⟩ := h.dependencies_of_published hm
      refine ⟨dependencies, ?_, hfirst⟩
      split
      · rw [Graph.successors, hd, Option.getD_some]
      · exact hd
  · intro name dependencies hl hd
    rw [isLoaded_eq_false_iff, module?_publish] at hl
    rw [graph, Graph.dependencies_setDependencies] at hd
    by_cases hn : m.name = name
    · simp [hn] at hl
    · rw [if_neg hn] at hl hd
      have before : ∀ {ds}, r.graph.dependencies name = some ds → ds = [] :=
        h.dependencies_of_unpublished (isLoaded_eq_false_iff.mpr hl)
      split at hd
      · cases hg : r.graph.dependencies name with
        | none => simpa [Graph.successors, hg, eq_comm] using hd
        | some ds => simpa [Graph.successors, hg, before hg, eq_comm] using hd
      · exact before hd

theorem discard (h : r.Coherent) (name : String) : (r.discard name).Coherent := by
  have graph : (r.discard name).graph = r.graph.removeModule name := rfl
  constructor
  · intro failed e he
    rw [isLoaded_eq_false_iff, module?_discard]
    split
    · rfl
    · exact isLoaded_eq_false_iff.mp (h.unpublished_of_failed he)
  · intro published m hm
    rw [module?_discard] at hm
    rw [graph, Graph.dependencies_removeModule]
    by_cases hn : name = published
    · simp [hn] at hm
    · rw [if_neg hn] at hm ⊢
      exact h.dependencies_of_published hm
  · intro other dependencies hl hd
    rw [isLoaded_eq_false_iff, module?_discard] at hl
    rw [graph, Graph.dependencies_removeModule] at hd
    by_cases hn : name = other
    · simp [hn] at hd
    · rw [if_neg hn] at hl hd
      exact h.dependencies_of_unpublished (isLoaded_eq_false_iff.mpr hl) hd

theorem recordFailure (h : r.Coherent) {name : String} (e : LinkError)
    (unpublished : r.module? name = none) : (r.recordFailure name e).Coherent := by
  refine ⟨?_, h.dependencies_of_published, h.dependencies_of_unpublished⟩
  intro failed e' he
  change r.isLoaded failed = false
  rw [lastFailure?_eq_some_iff, failures_recordFailure] at he
  by_cases hn : name = failed
  · exact isLoaded_eq_false_iff.mpr (hn ▸ unpublished)
  · rw [if_neg hn] at he
    exact h.unpublished_of_failed (lastFailure?_eq_some_iff.mpr he)

end Coherent

end Registry

/-! ## Coherence of sessions -/

namespace Session

theorem module?_publish (s : Session σ) (m : Module) (name : String) :
    (s.publish m).2.registry.module? name =
      if m.name = name then some ⟨s.registry.publications, m⟩ else s.registry.module? name :=
  Registry.module?_publish s.registry m name

theorem module?_discard (s : Session σ) (discarded name : String) :
    (s.discard discarded).registry.module? name =
      if discarded = name then none else s.registry.module? name := by
  unfold discard
  by_cases hl : s.registry.isLoaded discarded = true
  · rw [if_pos hl]
    exact Registry.module?_discard s.registry discarded name
  · rw [if_neg hl]
    by_cases hn : discarded = name
    · rw [if_pos hn, ← hn]
      exact Registry.isLoaded_eq_false_iff.mp (Bool.not_eq_true _ ▸ hl)
    · rw [if_neg hn]

theorem coherent_discard {s : Session σ} (h : s.registry.Coherent) (name : String) :
    (s.discard name).registry.Coherent := by
  unfold discard
  split
  · exact h.discard name
  · exact h

/-- Every part of linking keeps the tables coherent. A failure is recorded only after the module has
been withdrawn, or when it was not published to begin with. -/
theorem lawful_coherent :
    Lawful fun s t : Session σ => s.registry.Coherent → t.registry.Coherent where
  refl _ h := h
  trans first second h := second (first h)
  find _ _ _ _ h := h
  frame inside h := (inside (h.congr ⟨rfl, rfl, rfl⟩)).congr ⟨rfl, rfl, rfl⟩
  construct _ inside h := (inside (h.congr ⟨rfl, rfl, rfl⟩)).congr ⟨rfl, rfl, rfl⟩
  publish _ m h := h.publish m
  replace _ _ h := h
  desk _ _ h := h
  absent vacant _ h := h.recordFailure _ vacant.unpublished
  failed := by
    intro s t name e vacant inside h
    have closed : t.closed.registry.Coherent := (inside (h.congr ⟨rfl, rfl, rfl⟩)).congr ⟨rfl, rfl, rfl⟩
    refine (coherent_discard closed name).recordFailure e ?_
    rw [module?_discard, if_pos rfl]
  loaded _ inside _ h := (inside (h.congr ⟨rfl, rfl, rfl⟩)).congr ⟨rfl, rfl, rfl⟩

end Session

/-- Whatever is done to a registry, its tables agree whenever anyone can see them, in the middle of a
load too. -/
theorem coherent_of_observable {s : Session σ} (h : Observable s) : s.registry.Coherent :=
  Observable.holds Session.lawful_coherent (fun options _ _ => .ofOptions options)
    (fun h => h.congr ⟨rfl, rfl, rfl⟩) (fun _ h => h.congr ⟨rfl, rfl, rfl⟩)
    (fun _ h => h.congr ⟨rfl, rfl, rfl⟩) h

def Module.twiceFromOne : Module := ⟨"A", [⟨"B", "x"⟩, ⟨"C", "y"⟩, ⟨"B", "z"⟩], ∅⟩

def Loader.failingLate : Loader Unit where
  offers name := name == "A"
  definition _ := .publish .twiceFromOne fun _ => .fail (.moduleNotFound "B")

def Session.beforeLateFailure : Session Unit :=
  ((((Session.start {} (some .failingLate) ()).change .enter).opened "A").publish
    .twiceFromOne).2

theorem coherent_before_late_failure :
    Observable Session.beforeLateFailure ∧
      Session.beforeLateFailure.registry.loading = ["A"] ∧
      Session.beforeLateFailure.registry.isLoaded "A" = true ∧
      Session.beforeLateFailure.registry.Coherent := by
  have seen : Observable Session.beforeLateFailure := by
    refine ⟨{}, some .failingLate, (), .load "A" fun _ => .succeed,
      ⟨63, .script (.fail (.moduleNotFound "B")), .beforeLateFailure⟩, ?_, rfl⟩
    refine .tail (.tail (.tail .refl .load) (.call ⟨?_, ?_, ?_⟩ rfl)) (.advance rfl)
    all_goals decide
  exact ⟨seen, by decide, by decide, coherent_of_observable seen⟩

end MibLinker
