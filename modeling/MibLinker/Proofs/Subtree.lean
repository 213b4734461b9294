import MibLinker.Node

/-!
# Subtrees

The order of identifiers puts a position before the positions below it, and nothing else between
them, so a subtree is an interval. An instance stands in the subtree of its template, at the index
that it was bound to, so two templates of which neither stands in the subtree of the other have no
instance in common.
-/

namespace MibLinker

namespace Oid

/-! ## The order -/

theorem root_le (oid : Oid) : (⟨[]⟩ : Oid) ≤ oid := List.isLE_compare_nil_left

theorem not_cons_le_root (x : UInt32) (xs : List UInt32) : ¬ (⟨x :: xs⟩ : Oid) ≤ ⟨[]⟩ := by
  intro h
  exact List.cons_ne_nil x xs (List.isLE_compare_nil_right.mp h)

/-- The first arcs decide, unless they are the same. -/
theorem cons_le_cons_iff {x y : UInt32} {xs ys : List UInt32} :
    (⟨x :: xs⟩ : Oid) ≤ ⟨y :: ys⟩ ↔ x < y ∨ x = y ∧ (⟨xs⟩ : Oid) ≤ ⟨ys⟩ := by
  show (compare (x :: xs) (y :: ys)).isLE = true ↔ x < y ∨ x = y ∧ (compare xs ys).isLE = true
  rw [List.compare_cons_cons, Ordering.isLE_then_iff_or, Std.compare_eq_iff_eq, Std.compare_eq_lt]

/-! ## Prefixes -/

theorem isAncestorOf_iff_prefix_arcs {above below : Oid} :
    above.isAncestorOf below = true ↔ above.arcs <+: below.arcs := List.isPrefixOf_iff_prefix

theorem isAncestorOf_append (oid : Oid) (suffix : List UInt32) :
    oid.isAncestorOf (oid.append suffix) = true := isAncestorOf_iff.mpr ⟨suffix, rfl⟩

theorem root_isAncestorOf (oid : Oid) : (⟨[]⟩ : Oid).isAncestorOf oid = true :=
  isAncestorOf_iff.mpr ⟨oid.arcs, rfl⟩

theorem cons_isAncestorOf_cons {x y : UInt32} {xs ys : List UInt32} :
    (⟨x :: xs⟩ : Oid).isAncestorOf ⟨y :: ys⟩ = true ↔
      x = y ∧ (⟨xs⟩ : Oid).isAncestorOf ⟨ys⟩ = true := by
  rw [isAncestorOf_iff_prefix_arcs, isAncestorOf_iff_prefix_arcs, List.cons_prefix_cons]

/-- A position comes no later than the positions below it. -/
theorem le_of_isAncestorOf {a b : Oid} (h : a.isAncestorOf b = true) : a ≤ b := by
  obtain ⟨suffix, rfl⟩ := isAncestorOf_iff.mp h
  obtain ⟨arcs⟩ := a
  induction arcs with
  | nil => exact root_le _
  | cons x xs ih => exact cons_le_cons_iff.mpr (.inr ⟨rfl, ih (isAncestorOf_append ..)⟩)

/-- What comes between a position and one below it is below it too. -/
theorem isAncestorOf_of_between {a b c : Oid} (h : a.isAncestorOf b = true) (after : a ≤ c)
    (before : c ≤ b) : a.isAncestorOf c = true := by
  obtain ⟨a⟩ := a
  obtain ⟨b⟩ := b
  obtain ⟨c⟩ := c
  induction a generalizing b c with
  | nil => exact root_isAncestorOf _
  | cons x xs ih =>
      cases c with
      | nil => exact absurd after (not_cons_le_root x xs)
      | cons z zs =>
          cases b with
          | nil => exact absurd before (not_cons_le_root z zs)
          | cons y ys =>
              obtain ⟨rfl, below⟩ := cons_isAncestorOf_cons.mp h
              rw [cons_le_cons_iff] at after before
              -- The arc of `c` is between the arcs of `a` and `b`, which are the same.
              rcases after with less | ⟨rfl, after⟩
              · rcases before with more | ⟨rfl, -⟩
                · exact absurd (UInt32.lt_trans less more) (UInt32.lt_irrefl _)
                · exact absurd less (UInt32.lt_irrefl _)
              · rcases before with more | ⟨-, before⟩
                · exact absurd more (UInt32.lt_irrefl _)
                · exact cons_isAncestorOf_cons.mpr ⟨rfl, ih ys below zs after before⟩

/-- One position comes no later than another exactly when the other is in its subtree, or has the
larger arc where the two ways from the root part. -/
theorem le_iff {a b : Oid} :
    a ≤ b ↔ a.isAncestorOf b = true ∨
      ∃ common x y, x < y ∧ common ++ [x] <+: a.arcs ∧ common ++ [y] <+: b.arcs := by
  constructor
  · intro h
    obtain ⟨a⟩ := a
    obtain ⟨b⟩ := b
    induction a generalizing b with
    | nil => exact .inl (root_isAncestorOf _)
    | cons x xs ih =>
        cases b with
        | nil => exact absurd h (not_cons_le_root x xs)
        | cons y ys =>
            rcases cons_le_cons_iff.mp h with less | ⟨rfl, rest⟩
            · exact .inr ⟨[], x, y, less, by simp, by simp⟩
            · rcases ih ys rest with below | ⟨common, u, v, less, left, right⟩
              · exact .inl (cons_isAncestorOf_cons.mpr ⟨rfl, below⟩)
              · exact .inr ⟨x :: common, u, v, less, by simpa using left, by simpa using right⟩
  · rintro (below | ⟨common, x, y, less, ⟨s, left⟩, ⟨t, right⟩⟩)
    · exact le_of_isAncestorOf below
    · obtain ⟨a⟩ := a
      obtain ⟨b⟩ := b
      subst left right
      induction common with
      | nil => exact cons_le_cons_iff.mpr (.inl less)
      | cons z common ih => exact cons_le_cons_iff.mpr (.inr ⟨rfl, ih⟩)

theorem append_left_cancel {oid : Oid} {s t : List UInt32} (h : oid.append s = oid.append t) :
    s = t := List.append_cancel_left (congrArg arcs h)

end Oid

/-- The order of identifiers is that of subtrees: a position is above another just when the other is
the position with more arcs behind it, it comes no later than the positions below it, and whatever
comes between them is below it too. Two instances at one position have templates of which one is
above the other, and if the templates stand at one position then the instances have one index. -/
theorem subtrees_contiguous :
    (∀ a b : Oid, a.isAncestorOf b = true ↔ ∃ suffix, b = a.append suffix) ∧
    (∀ a b : Oid, a ≤ b ↔ a.isAncestorOf b = true ∨
      ∃ common x y, x < y ∧ common ++ [x] <+: a.arcs ∧ common ++ [y] <+: b.arcs) ∧
    (∀ a b : Oid, a.isAncestorOf b = true → a ≤ b) ∧
    (∀ a b c : Oid, a.isAncestorOf b = true → a ≤ c → c ≤ b → a.isAncestorOf c = true) ∧
    ∀ (t₁ t₂ : TypedNode) (i₁ i₂ : List UInt32),
      (InstanceNode.bind t₁ i₁).path = (InstanceNode.bind t₂ i₂).path →
        (t₁.path.isAncestorOf t₂.path = true ∨ t₂.path.isAncestorOf t₁.path = true) ∧
          (t₁.path = t₂.path → i₁ = i₂) := by
  refine ⟨fun _ _ => Oid.isAncestorOf_iff, fun _ _ => Oid.le_iff,
    fun _ _ => Oid.le_of_isAncestorOf, fun _ _ _ => Oid.isAncestorOf_of_between, ?_⟩
  intro t₁ t₂ i₁ i₂ met
  have same : t₁.path.append i₁ = t₂.path.append i₂ := met
  constructor
  · have first : t₁.path.arcs <+: (t₁.path.append i₁).arcs := ⟨i₁, rfl⟩
    have second : t₂.path.arcs <+: (t₁.path.append i₁).arcs := ⟨i₂, congrArg Oid.arcs same.symm⟩
    rw [Oid.isAncestorOf_iff_prefix_arcs, Oid.isAncestorOf_iff_prefix_arcs]
    exact List.prefix_or_prefix_of_prefix first second
  · intro level
    rw [level] at same
    exact Oid.append_left_cancel same

def TypedNode.placed (label : String) (path : Oid) : TypedNode where
  label := label
  path := path
  value := none
  valueSyntax := none
  access := none
  status := none
  module := none

/-- What comes between the node of the system group and its third object is in the group. When the
node is the position of a template as well, it has an instance where the object has one, and stands
above the object. -/
theorem subtrees_contiguous_at_system :
    let node : Oid := ⟨[1, 3, 6, 1, 2, 1, 1]⟩
    let object := TypedNode.placed "sysUpTime" ⟨[1, 3, 6, 1, 2, 1, 1, 3]⟩
    let group := TypedNode.placed "system" node
    node ≤ ⟨[1, 3, 6, 1, 2, 1, 1, 2]⟩ ∧ (⟨[1, 3, 6, 1, 2, 1, 1, 2]⟩ : Oid) ≤ object.path ∧
      node.isAncestorOf ⟨[1, 3, 6, 1, 2, 1, 1, 2]⟩ = true ∧
      (InstanceNode.bind object [0]).path = (InstanceNode.bind group [3, 0]).path ∧
      (object.path.isAncestorOf node = true ∨ node.isAncestorOf object.path = true) := by
  intro node object group
  have after : node ≤ ⟨[1, 3, 6, 1, 2, 1, 1, 2]⟩ := by rfl
  have before : (⟨[1, 3, 6, 1, 2, 1, 1, 2]⟩ : Oid) ≤ object.path := by rfl
  have met : (InstanceNode.bind object [0]).path = (InstanceNode.bind group [3, 0]).path := by rfl
  obtain ⟨-, -, -, between, meeting⟩ := subtrees_contiguous
  exact ⟨after, before, between node object.path _ (by decide) after before, met,
    (meeting object group [0] [3, 0] met).1⟩

end MibLinker
