import Mathlib.Data.List.Chain

/-!
# Paths along a relation

Where a relation leads one way only, all that a path comes by lies before its end. Where it leads
round, a stack whose entries lead from one to the next, and the last of them back to one that is on
it, holds a closed path. Both searches for cycles, along the load stack and in the dependency graph,
cut that path out of a stack.
-/

namespace MibLinker

variable {α : Type} {r : α → α → Prop}

/-- Whatever is come by on the only way to an end lies before the end. -/
theorem reaches_end_of_rightUnique (unique : Relator.RightUnique r) {first last other : α}
    (stuck : ∀ next, ¬ r last next) (ends : Relation.ReflTransGen r first last)
    (h : Relation.ReflTransGen r first other) : Relation.ReflTransGen r other last := by
  rcases Relation.ReflTransGen.total_of_right_unique unique h ends with before | past
  · exact before
  · cases past using Relation.ReflTransGen.head_induction_on with
    | refl => exact .refl
    | head onward _ => exact (stuck _ onward).elim

/-- A path along a relation that ends where it starts, and meets nothing else twice. -/
structure Circuit (r : α → α → Prop) (path : List α) : Prop where
  two_le : 2 ≤ path.length
  closed : path.head? = path.getLast?
  nodup : path.dropLast.Nodup
  chain : path.IsChain r

namespace Circuit

theorem exists_dropWhile_eq_cons [DecidableEq α] {stack : List α} {name : α} (h : name ∈ stack) :
    ∃ rest, stack.dropWhile (· != name) = name :: rest := by
  induction stack with
  | nil => cases h
  | cons first others ih =>
      by_cases heq : first = name
      · exact ⟨others, by simp [heq]⟩
      · obtain ⟨rest, hrest⟩ := ih ((List.mem_cons.mp h).resolve_left (Ne.symm heq))
        exact ⟨rest, by simp [heq, hrest]⟩

/-- The part of a stack from a name on, and the name that the stack leads to once more. -/
theorem of_stack [DecidableEq α] {stack : List α} {name : α} (nodup : stack.Nodup)
    (chain : (stack ++ [name]).IsChain r) (h : name ∈ stack) :
    Circuit r (stack.dropWhile (· != name) ++ [name]) := by
  obtain ⟨rest, hrest⟩ := exists_dropWhile_eq_cons h
  have suffix : stack.dropWhile (· != name) <:+ stack := List.dropWhile_suffix _
  constructor
  case two_le => simp [hrest]
  case closed =>
    rw [List.getLast?_concat, hrest]
    rfl
  case nodup =>
    rw [List.dropLast_concat]
    exact nodup.sublist suffix.sublist
  case chain =>
    obtain ⟨before, hb⟩ := suffix
    rw [← hb, List.append_assoc] at chain
    exact chain.right_of_append

/-- A circuit leads from its first entry back to it. -/
theorem exists_transGen {path : List α} (h : Circuit r path) :
    ∃ x, Relation.TransGen r x x := by
  match path, h.two_le with
  | first :: second :: rest, _ =>
      have closed := h.closed
      obtain ⟨step, chain⟩ := List.isChain_cons_cons.mp h.chain
      have back : Relation.ReflTransGen r second ((second :: rest).getLast (by simp)) :=
        List.relationReflTransGen_of_exists_isChain_cons rest chain rfl
      have last : (second :: rest).getLast (by simp) = first := by
        simpa [List.getLast?_eq_getLast_of_ne_nil, eq_comm] using closed
      exact ⟨first, .head' step (last ▸ back)⟩

end Circuit

end MibLinker
