import MibLinker.Proofs.Graph.Exploration

/-!
# The search for cycles step by step

A search looks at one name at a time. It closes a cycle with the name, passes it by or enters it,
and it leaves a module once it has looked at all its dependencies. The modules that are being
visited tell its path and its stack at every step. So a dependency on the stack has its place on the
path, a module that is left leaves both as they were before it was entered, and the steps come to an
end, since every module that is entered is one less to visit. Their making knows of no bound.
-/

namespace MibLinker.Graph

/-- A module that has been entered and not left, and the names that the loop which entered it has
yet to look at. -/
structure Visit where
  module : String
  rest : List String

inductive Walk where
  /-- The names are those that the innermost loop has yet to look at: dependencies of the module
  entered last, or modules of the graph if none is being visited. -/
  | walking (names : List String) (visits : List Visit) (trail : Trail)
  | ended (cycle : Option (List String)) (trail : Trail)

namespace Walk

def start (g : Graph) : Walk := walking g.modules [] .start

def step (g : Graph) : Walk → Option Walk
  | walking (name :: rest) visits t =>
      if name ∈ t.onStack then some (ended (some (t.cycle name)) t)
      else if name ∈ t.visited then some (walking rest visits t)
      else some (walking (g.successors name) (⟨name, rest⟩ :: visits) (t.enter name))
  | walking [] (⟨module, rest⟩ :: visits) t => some (walking rest visits (t.leave module))
  | walking [] [] t => some (ended none t)
  | ended _ _ => none

abbrev Reaches (g : Graph) : Walk → Walk → Prop :=
  Relation.ReflTransGen fun w w' => w.step g = some w'

/-- Where a walk comes to with the result of a part of the search: to its end if that has found a
cycle, and else to the names that are next. -/
def after (names : List String) (visits : List Visit) : Option (List String) × Trail → Walk
  | (some cycle, t) => ended (some cycle) t
  | (none, t) => walking names visits t

end Walk

variable {g : Graph} {name : String} {names rest : List String} {visits : List Visit} {t u : Trail}

/-! ## The walk is the search -/

theorem visitAll_grown {visit : String → Trail → Option (List String) × Trail}
    (grown : ∀ name t, ∀ other ∈ t.visited, other ∈ (visit name t).2.visited)
    (names : List String) (t : Trail) :
    ∀ other ∈ t.visited, other ∈ (visitAll visit names t).2.visited := by
  induction names generalizing t with
  | nil => exact fun _ seen => seen
  | cons name rest ih =>
      intro other seen
      rw [visitAll]
      split
      · exact seen
      · split
        · exact ih t other seen
        · have first := grown name t other seen
          rcases hv : visit name t with ⟨_ | cycle, u⟩ <;> rw [hv] at first
          · exact ih u other first
          · exact first

/-- A search only adds to the names that it has visited. -/
theorem search_grown (g : Graph) (room : Nat) (name : String) (t : Trail) :
    ∀ other ∈ t.visited, other ∈ (g.search room name t).2.visited := by
  induction room generalizing name t with
  | zero => exact fun _ seen => seen
  | succ room ih =>
      intro other seen
      have inner := visitAll_grown ih (g.successors name) (t.enter name) other
        (Trail.mem_visited_enter.mpr (.inr seen))
      rw [search]
      rcases hv : visitAll (g.search room) (g.successors name) (t.enter name) with
        ⟨_ | cycle, u⟩ <;> rw [hv] at inner <;> exact inner

theorem visitAll_walked {room : Nat}
    (walked : ∀ {name rest visits t}, t.unvisited g ≤ room → name ∈ g.names → name ∉ t.visited →
      (Walk.walking (g.successors name) (⟨name, rest⟩ :: visits) (t.enter name)).Reaches g
        (Walk.after rest visits (g.search room name t)))
    (enough : t.unvisited g ≤ room) (known : ∀ name ∈ names, name ∈ g.names) :
    (Walk.walking names visits t).Reaches g
      (Walk.after [] visits (visitAll (g.search room) names t)) := by
  induction names generalizing t with
  | nil => exact .refl
  | cons name rest ih =>
      obtain ⟨first, others⟩ := List.forall_mem_cons.mp known
      rw [visitAll]
      by_cases stacked : name ∈ t.onStack
      · rw [if_pos stacked]
        exact .single (if_pos stacked)
      · rw [if_neg stacked]
        by_cases seen : name ∈ t.visited
        · rw [if_pos seen]
          exact .head ((if_neg stacked).trans (if_pos seen)) (ih enough others)
        · rw [if_neg seen]
          have entered : (Walk.walking (g.successors name) (⟨name, rest⟩ :: visits)
              (t.enter name)).Reaches g (Walk.after rest visits (g.search room name t)) :=
            walked enough first seen
          have grown := search_grown g room name t
          refine .head ((if_neg stacked).trans (if_neg seen)) ?_
          rcases hv : g.search room name t with ⟨_ | cycle, u⟩ <;> rw [hv] at entered grown
          · exact entered.trans (ih ((Trail.unvisited_le_of_grown grown).trans enough) others)
          · exact entered

/-- A walk that enters a module comes to what the search for that module finds, if this has room for
all names that are yet to be visited. -/
theorem search_walked (room : Nat) (enough : t.unvisited g ≤ room) (known : name ∈ g.names)
    (new : name ∉ t.visited) :
    (Walk.walking (g.successors name) (⟨name, rest⟩ :: visits) (t.enter name)).Reaches g
      (Walk.after rest visits (g.search room name t)) := by
  induction room generalizing name rest visits t with
  | zero =>
      have remaining := Trail.unvisited_pos known new
      omega
  | succ room ih =>
      have fewer := Trail.unvisited_enter known new
      have onward : ∀ dependency ∈ g.successors name, dependency ∈ g.names :=
        fun dependency (dep : g.DependsOn name dependency) => dep.mem_names.2
      have inner : (Walk.walking (g.successors name) (⟨name, rest⟩ :: visits)
          (t.enter name)).Reaches g (Walk.after [] (⟨name, rest⟩ :: visits)
            (visitAll (g.search room) (g.successors name) (t.enter name))) :=
        visitAll_walked ih (Nat.le_of_lt_succ (fewer.trans_le enough)) onward
      rw [search]
      rcases hv : visitAll (g.search room) (g.successors name) (t.enter name) with
        ⟨_ | cycle, u⟩ <;> rw [hv] at inner
      · exact inner.tail rfl
      · exact inner

namespace Walk

/-- The walk ends with what the search finds. -/
theorem start_reaches (g : Graph) : ∃ t, (start g).Reaches g (ended g.detectCycle t) := by
  have known : ∀ name ∈ g.modules, name ∈ g.names := fun _ => mem_names_of_mem_modules
  have whole : (start g).Reaches g
      (after [] [] (visitAll (g.search g.names.length) g.modules .start)) :=
    visitAll_walked (search_walked g.names.length) List.countP_le_length known
  rw [detectCycle]
  rcases hv : visitAll (g.search g.names.length) g.modules Trail.start with
    ⟨_ | cycle, t⟩ <;> rw [hv] at whole
  · exact ⟨t, whole.tail rfl⟩
  · exact ⟨t, whole⟩

/-- A walk goes only one way, so whatever it comes by lies before its end. -/
theorem Reaches.before_end {w w' : Walk} {cycle : Option (List String)}
    (ends : w.Reaches g (ended cycle t)) (h : w.Reaches g w') : w'.Reaches g (ended cycle t) := by
  have onward : Relator.RightUnique fun w w' : Walk => w.step g = some w' :=
    fun _ _ _ first second => Option.some.inj (first.symm.trans second)
  exact reaches_end_of_rightUnique onward (fun _ step => Option.some_ne_none _ step.symm) ends h

end Walk

/-! ## What the visits tell -/

/-- Whether visits are nested in one another: each module is a dependency of the one entered before
it, and so are the names that are looked at after it. -/
def Nested (g : Graph) : List String → List Visit → Prop
  | names, [] => ∀ name ∈ names, name ∈ g.names
  | names, v :: visits =>
      (∀ name ∈ names, g.DependsOn v.module name) ∧ Nested g (v.module :: v.rest) visits

namespace Nested

theorem tail (h : g.Nested (name :: names) visits) : g.Nested names visits := by
  cases visits with
  | nil => exact (List.forall_mem_cons.mp h).2
  | cons v visits => exact ⟨(List.forall_mem_cons.mp h.1).2, h.2⟩

theorem known (h : g.Nested (name :: names) visits) : name ∈ g.names := by
  cases visits with
  | nil => exact h name (.head _)
  | cons v visits => exact (h.1 name (.head _)).mem_names.2

/-- The modules that are being visited lead from one to the next, and the last of them to what is
looked at. -/
theorem chain (h : g.Nested (name :: names) visits) :
    ((visits.map Visit.module).reverse ++ [name]).IsChain g.DependsOn := by
  induction visits generalizing name names with
  | nil => exact .singleton name
  | cons v visits ih =>
      rw [List.map_cons, List.reverse_cons, List.append_assoc]
      exact List.isChain_append_cons_cons.mpr ⟨ih h.2, h.1 name (.head _), .singleton name⟩

theorem known_of_visit (h : g.Nested names visits) {v : Visit} (hv : v ∈ visits) :
    v.module ∈ g.names := by
  induction visits generalizing names with
  | nil => cases hv
  | cons first visits ih =>
      rcases List.mem_cons.mp hv with rfl | later
      · exact Nested.known h.2
      · exact ih h.2 later

theorem enter (h : g.Nested (name :: names) visits) :
    g.Nested (g.successors name) (⟨name, names⟩ :: visits) := ⟨fun _ dep => dep, h⟩

end Nested

theorem Trail.Sound.leave {before : List String} (h : t.Sound g) (last : t.path = before ++ [name]) :
    (t.leave name).Sound g := by
  have path : (t.leave name).path = before := by
    rw [Trail.leave, last, List.dropLast_concat]
  have chain := h.chain
  have nodup := h.nodup
  rw [last] at chain nodup
  constructor
  case chain => exact path ▸ chain.left_of_append
  case nodup => exact path ▸ (List.nodup_append.mp nodup).1
  case onStack =>
    intro other
    have absent : name ∉ before := fun hb =>
      (List.nodup_append.mp nodup).2.2 name hb name (.head _) rfl
    rw [Trail.mem_onStack_leave, h.onStack, path, last, List.mem_append, List.mem_singleton]
    constructor
    · rintro ⟨unlike, earlier | same⟩
      · exact earlier
      · exact (unlike same.symm).elim
    · intro earlier
      exact ⟨fun same => absent (same ▸ earlier), .inl earlier⟩

/-- Whether a trail tells what is being visited, and as what it has been entered. -/
structure Kept (g : Graph) (names : List String) (visits : List Visit) (t : Trail) : Prop where
  nested : g.Nested names visits
  path : t.path = (visits.map Visit.module).reverse
  sound : t.Sound g
  stacked : ∀ name ∈ t.onStack, name ∈ t.visited

namespace Kept

theorem start (g : Graph) : g.Kept g.modules [] .start where
  nested _ := mem_names_of_mem_modules
  path := rfl
  sound := Trail.sound_start
  stacked := (Trail.tidy_start (g := g)).stacked

theorem chain (h : g.Kept (name :: names) visits t) :
    (t.path ++ [name]).IsChain g.DependsOn := h.path ▸ h.nested.chain

theorem pass (h : g.Kept (name :: names) visits t) : g.Kept names visits t :=
  { h with nested := h.nested.tail }

theorem enter (h : g.Kept (name :: names) visits t) (new : name ∉ t.onStack) :
    g.Kept (g.successors name) (⟨name, names⟩ :: visits) (t.enter name) where
  nested := h.nested.enter
  path := by
    rw [Trail.enter, h.path, List.map_cons, List.reverse_cons]
  sound := h.sound.enter h.chain new
  stacked other stacked := by
    rw [Trail.mem_onStack_enter] at stacked
    exact Trail.mem_visited_enter.mpr (stacked.imp_right (h.stacked other))

theorem leave {v : Visit} (h : g.Kept [] (v :: visits) t) :
    g.Kept v.rest visits (t.leave v.module) where
  nested := h.nested.2.tail
  path := by
    rw [Trail.leave, h.path, List.map_cons, List.reverse_cons, List.dropLast_concat]
  sound := h.sound.leave (h.path.trans (by rw [List.map_cons, List.reverse_cons]))
  stacked other stacked := h.stacked other (Trail.mem_onStack_leave.mp stacked).2

/-- What is being visited has been entered already, so there is room for it besides what is not. -/
theorem room (h : g.Kept names visits t) : t.unvisited g + visits.length ≤ g.names.length := by
  have length : t.path.length = visits.length := by
    rw [h.path, List.length_reverse, List.length_map]
  have entered : t.path ⊆ g.names.filter fun name => name ∈ t.visited := by
    intro name hp
    have seen := h.stacked name ((h.sound.onStack name).mpr hp)
    rw [h.path, List.mem_reverse, List.mem_map] at hp
    obtain ⟨v, hv, rfl⟩ := hp
    have known := h.nested.known_of_visit hv
    exact List.mem_filter.mpr ⟨known, decide_eq_true seen⟩
  have fewer := h.sound.nodup.length_le_of_subset entered
  have all := List.length_eq_countP_add_countP (l := g.names) fun name => name ∈ t.visited
  rw [← List.countP_eq_length_filter] at fewer
  simp only [decide_eq_true_eq] at all
  rw [Trail.unvisited]
  omega

end Kept

def Walk.Kept (g : Graph) : Walk → Prop
  | walking names visits t => g.Kept names visits t
  | ended _ _ => True

theorem Walk.Kept.step {w w' : Walk} (h : w.Kept g) (hs : w.step g = some w') : w'.Kept g := by
  match w, h with
  | walking (name :: rest) visits t, h =>
      have kept : g.Kept (name :: rest) visits t := h
      rw [Walk.step] at hs
      split at hs
      · exact Option.some.inj hs ▸ trivial
      · next new =>
          split at hs
          · exact Option.some.inj hs ▸ kept.pass
          · exact Option.some.inj hs ▸ kept.enter new
  | walking [] (v :: visits) t, h =>
      have kept : g.Kept [] (v :: visits) t := h
      exact Option.some.inj hs ▸ kept.leave
  | walking [] [] t, _ => exact Option.some.inj hs ▸ trivial
  | ended cycle t, _ => cases hs

theorem Walk.Kept.run {w w' : Walk} (h : w.Kept g) (hr : w.Reaches g w') : w'.Kept g := by
  induction hr with
  | refl => exact h
  | tail _ hs ih => exact ih.step hs

theorem kept_of_reached (h : (Walk.start g).Reaches g (.walking names visits t)) :
    g.Kept names visits t :=
  Walk.Kept.run (w := Walk.start g) (Kept.start g) h

/-- The search for cycles keeps its books. At every step the path holds the modules that are being
visited, in the order of entering. They lead from one to the next, none of them comes twice, and the
stack holds the same names, all of them visited; between modules of the outermost loop there are
none. There is room for them besides the names that are yet to be visited. A name on the stack has
its place on the path. A name that has not been visited is one less to visit once it is entered, and
the walk comes to what the search for it finds. If that is no cycle, the stack and the path are as
they were, and what had been visited still is. From every step on the walk comes to its end, with
what the whole search finds. -/
theorem detectCycle_bookkeeping (g : Graph) :
    (∃ t, (Walk.start g).Reaches g (.ended g.detectCycle t)) ∧
      ∀ names visits t, (Walk.start g).Reaches g (.walking names visits t) →
        (t.path = (visits.map Visit.module).reverse ∧ t.Sound g ∧
          (∀ name ∈ t.onStack, name ∈ t.visited) ∧
          t.unvisited g + visits.length ≤ g.names.length) ∧
        (visits = [] → t.path = [] ∧ t.onStack = ∅) ∧
        (∃ u, (Walk.walking names visits t).Reaches g (.ended g.detectCycle u)) ∧
        ∀ name rest, names = name :: rest →
          (name ∈ t.onStack → ∃ place, t.path.idxOf? name = some place) ∧
          (name ∉ t.visited →
            (t.enter name).unvisited g < t.unvisited g ∧
            ∀ room, t.unvisited g ≤ room →
              (Walk.walking (g.successors name) (⟨name, rest⟩ :: visits) (t.enter name)).Reaches g
                (Walk.after rest visits (g.search room name t)) ∧
              ∀ u, g.search room name t = (none, u) →
                t.SameStack u ∧ ∀ other ∈ t.visited, other ∈ u.visited) := by
  obtain ⟨last, ends⟩ := Walk.start_reaches g
  refine ⟨⟨last, ends⟩, fun names visits t reached => ?_⟩
  have kept := kept_of_reached reached
  refine ⟨⟨kept.path, kept.sound, kept.stacked, kept.room⟩, ?_, ⟨last, ends.before_end reached⟩, ?_⟩
  · rintro rfl
    have path : t.path = [] := kept.path
    refine ⟨path, Std.ExtTreeSet.ext_mem fun name => ?_⟩
    rw [kept.sound.onStack, path]
    simp
  · rintro name rest rfl
    refine ⟨fun stacked => ?_, fun new => ?_⟩
    · have met : name ∈ t.path := (kept.sound.onStack name).mp stacked
      exact Option.isSome_iff_exists.mp (List.isSome_idxOf?.mpr met)
    · have known := kept.nested.known
      refine ⟨Trail.unvisited_enter known new, fun room enough => ?_⟩
      refine ⟨search_walked room enough known new, fun u found => ?_⟩
      have searched := search_searched room kept.sound kept.chain
        fun stacked => new (kept.stacked name stacked)
      have grown := search_grown g room name t
      rw [found] at searched grown
      exact ⟨searched, grown⟩

/-- A circle with a way to it, and a module beside the way that depends on nothing. -/
def circled : Graph :=
  ((empty.setDependencies "A" ["D", "B"]).setDependencies "B" ["C"]).setDependencies "C" ["B"]

/-- The module beside the way is entered and left before the circle is closed. -/
theorem detectCycle_bookkeeping_of_circled :
    (∃ t, (Walk.start circled).Reaches circled (.walking ["D", "B"] [⟨"A", ["B", "C", "D"]⟩] t) ∧
      ∃ u, circled.search 3 "D" t = (none, u) ∧ t.SameStack u) ∧
    ∃ t, (Walk.start circled).Reaches circled
        (.walking ["B"] [⟨"C", []⟩, ⟨"B", []⟩, ⟨"A", ["B", "C", "D"]⟩] t) ∧
      t.path = ["A", "B", "C"] ∧ (∃ place, t.path.idxOf? "B" = some place) ∧
      ∃ u, (Walk.start circled).Reaches circled (.ended (some ["B", "C", "B"]) u) := by
  obtain ⟨ends, every⟩ := detectCycle_bookkeeping circled
  have cycle : circled.detectCycle = some ["B", "C", "B"] := by decide
  have beside : (Walk.start circled).Reaches circled
      (.walking ["D", "B"] [⟨"A", ["B", "C", "D"]⟩] (Trail.start.enter "A")) := .single rfl
  obtain ⟨-, -, -, look⟩ := every _ _ _ beside
  obtain ⟨-, call⟩ := look "D" ["B"] rfl
  obtain ⟨-, back⟩ := call (by decide)
  obtain ⟨-, restored⟩ := back 3 (by decide)
  obtain ⟨t, closing⟩ : ∃ t, (Walk.start circled).Reaches circled
      (.walking ["B"] [⟨"C", []⟩, ⟨"B", []⟩, ⟨"A", ["B", "C", "D"]⟩] t) :=
    ⟨_, beside.trans (.head rfl (.head rfl (.head rfl (.head rfl .refl))))⟩
  obtain ⟨⟨path, sound, -⟩, -, -, look⟩ := every _ _ _ closing
  have stacked : "B" ∈ t.onStack := (sound.onStack "B").mpr (by rw [path]; decide)
  exact ⟨⟨_, beside, _, rfl, (restored _ rfl).1⟩,
    t, closing, path, (look "B" [] rfl).1 stacked, cycle ▸ ends⟩

end MibLinker.Graph
