import MibLinker.Proofs.Building.Accrual

/-!
# What building adds

A request to a layered session keeps it layered, whatever the answer. All that was published stays
as it is, and all that is new is reached from what was requested and was not being loaded: so no
module is published twice, and none while its own imports are being found.
-/

namespace MibLinker

variable {σ : Type} {D : Discipline}

namespace Session

structure Grown (D : Discipline) (requested : List String) (s t : Session σ) : Prop where
  layered : t.Layered D
  charted : s.Charted → t.Charted
  loader : t.loader = s.loader
  kept : ∀ {name m}, s.registry.module? name = some m → t.registry.module? name = some m
  reached : ∀ {name}, t.registry.isLoaded name = true → s.registry.isLoaded name = true ∨
    name ∉ s.registry.loading ∧ ∃ root ∈ requested, D.Reaches root name

/-- A layered session grows as publications accrue. -/
theorem Accrues.grown {s t : Session σ} {requested : List String}
    (h : s.Accrues D s.registry.loading requested t) (layered : s.Layered D) :
    Grown D requested s t where
  layered := h.layered layered
  charted := h.charted
  loader := h.loader
  kept := h.kept
  reached := h.reached

namespace Grown

variable {s t u : Session σ} {requested : List String}

theorem refl (h : s.Layered D) : Grown D requested s s := (Accrues.refl s).grown h

theorem trans {more : List String} (first : Grown D requested s t) (steady : s.Steady t)
    (second : Grown D more t u) : Grown D (requested ++ more) s u where
  layered := second.layered
  charted hs := second.charted (first.charted hs)
  loader := second.loader.trans first.loader
  kept hm := second.kept (first.kept hm)
  reached hl := by
    rcases second.reached hl with hl | ⟨offStack, root, hroot, reaches⟩
    · exact (first.reached hl).imp_right fun ⟨offStack, root, hroot, reaches⟩ =>
        ⟨offStack, root, List.mem_append_left _ hroot, reaches⟩
    · rw [steady.loading] at offStack
      exact .inr ⟨offStack, root, List.mem_append_right _ hroot, reaches⟩

theorem mono {more : List String} (h : Grown D requested s t) (within : requested ⊆ more) :
    Grown D more s t where
  layered := h.layered
  charted := h.charted
  loader := h.loader
  kept := h.kept
  reached hl := (h.reached hl).imp_right fun ⟨offStack, root, hroot, reaches⟩ =>
    ⟨offStack, root, within hroot, reaches⟩

theorem unpublished (h : Grown D requested s t) {name : String}
    (stacked : name ∈ s.registry.loading) (new : s.registry.module? name = none) :
    t.registry.module? name = none := by
  apply Registry.isLoaded_eq_false_iff.mp
  refine Bool.eq_false_iff.mpr fun hl => ?_
  rcases h.reached hl with hl | ⟨offStack, _⟩
  · simp [Registry.isLoaded_eq_false_iff.mpr new] at hl
  · exact offStack stacked

theorem isLoaded (h : Grown D requested s t) {name : String}
    (published : s.registry.isLoaded name = true) : t.registry.isLoaded name = true := by
  obtain ⟨m, hm⟩ := Registry.isLoaded_iff.mp published
  exact Registry.isLoaded_iff.mpr ⟨m, h.kept hm⟩

theorem finds (h : Grown D requested s t) {i : Import} : s.Finds i → t.Finds i :=
  fun ⟨m, hm, found⟩ => ⟨m, h.kept hm, found⟩

/-- When the requested modules have been published, what is published is what was before and what
they reach. -/
theorem isLoaded_iff (h : Grown D requested s t) (exact : D.Exact)
    (published : ∀ root ∈ requested, t.registry.isLoaded root = true) {name : String} :
    t.registry.isLoaded name = true ↔
      s.registry.isLoaded name = true ∨ ∃ root ∈ requested, D.Reaches root name := by
  constructor
  · exact fun hl => (h.reached hl).imp_right fun ⟨_, root⟩ => root
  · rintro (before | ⟨root, hroot, reaches⟩)
    · exact h.isLoaded before
    · exact h.layered.isLoaded_of_reaches exact (published root hroot) reaches

end Grown

end Session

/-! ## Requests, one inside the other -/

namespace Linking

open Session

variable {s : Session σ} (n : Nat)

theorem resolveOne_grows (i : Import) (h : s.Layered D) :
    Grown D [i.module] s (resolveOne (fetch n) i s).2 :=
  (resolveOne_accrues (fetch_accrues n) i h.follows).grown h

theorem resolveEach_grows (imports : List Import) (h : s.Layered D) :
    Grown D (imports.map Import.module) s (resolveEach (fetch n) imports s).2 :=
  (resolveEach_accrues (fetch_accrues n) imports h.follows).1.grown h

theorem fetch_grows (name : String) (h : s.Layered D) : Grown D [name] s (fetch n name s).2 :=
  (fetch_accrues n h.follows).grown h

end Linking

/-! ## Requests from outside -/

def Call.requested : Call → List String
  | resolve imports => imports.map Import.module
  | resolveFrom _ imports => imports.map Import.module
  | load name => [name]

namespace Session.Layered

variable {s : Session σ}

theorem load (h : s.Layered D) (allowance : Nat) (name : String) :
    Grown D [name] s (Linking.load (Linking.fetch allowance) name s).2 :=
  (Linking.load_accrues (Linking.fetch_accrues allowance) name h.follows).grown h

theorem loadAll (h : s.Layered D) (allowance : Nat) (names : List String) :
    Grown D names s (Linking.loadAll (Linking.fetch allowance) names s).2 := by
  induction names generalizing s with
  | nil => exact .refl h
  | cons name rest ih =>
      have first := h.load allowance name
      have steady := lawful_steady.load (lawful_steady.fetch allowance) name s
      unfold Linking.loadAll
      rcases hr : Linking.load (Linking.fetch allowance) name s with ⟨e | m, t⟩ <;>
        rw [hr] at first steady
      · exact first.mono (by simp)
      · exact first.trans steady (ih first.layered)

theorem call (h : s.Layered D) (allowance : Nat) (c : Call) :
    Grown D c.requested s (c.perform allowance s) := by
  have accruing : Linking.Accruing σ D allowance := Linking.fetch_accrues allowance
  cases c with
  | resolve imports => exact (Linking.resolve_accrues accruing imports h.follows).grown h
  | resolveFrom requester imports =>
      have resolved := (Linking.resolveFrom_accrues accruing requester imports h.follows).1
      refine (resolved.mono (loading_subset_constructing s requester) ?_).grown h
      exact fun root hroot => ⟨root, hroot, .refl⟩
  | load name => exact h.load allowance name

theorem afterAll (h : s.Layered D) (history : List Call) :
    Grown D (history.flatMap Call.requested) s (s.afterAll (history.map .call)) := by
  induction history generalizing s with
  | nil => exact .refl h
  | cons c rest ih =>
      have first := h.call s.registry.allowance c
      have steady := lawful_steady.call s.registry.allowance s c
      exact first.trans steady (ih first.layered)

end Session.Layered

end MibLinker
