import Mathlib.Data.List.Forall2
import MibLinker.Oid
import MibLinker.Proofs.Numerals

/-!
# Dotted notation and back

A text is read segment by segment, and an identifier is written arc by arc. No digit is a dot, so
the segments of what is written are the arcs in decimal, and reading gives the identifier back. Many
texts are read as one identifier, and the one that is written is told from the others by its
segments: each is without a sign and without padding.
-/

namespace MibLinker.Oid

open MibLinker.Text

def segments (text : String) : List (List Char) := List.splitOn '.' text.toList

def digits (arc : UInt32) : List Char := Nat.toDigits 10 arc.toNat

/-! ## Segments and arcs -/

theorem arc?_eq_some_iff {segment : List Char} {arc : UInt32} :
    arc? segment = some arc ↔ Decimal.read maxArc segment = some arc.toNat := by
  rw [arc?, Option.map_eq_some_iff]
  constructor
  · rintro ⟨n, h, rfl⟩
    have bound : n < UInt32.size := Nat.lt_succ_of_le (Decimal.read_le h)
    rw [h, Nat.toUInt32_eq, UInt32.toNat_ofNat_of_lt' bound]
  · intro h
    exact ⟨arc.toNat, h, by simp⟩

theorem arc?_digits (arc : UInt32) : arc? (digits arc) = some arc := by
  have bound : arc.toNat ≤ maxArc := Nat.le_of_lt_succ arc.toNat_lt
  exact arc?_eq_some_iff.mpr (Decimal.read_toDigits bound)

/-- An arc that was read is written as it was read exactly when there was no sign and no padding. -/
theorem digits_eq_iff {segment : List Char} {arc : UInt32} (h : arc? segment = some arc) :
    digits arc = segment ↔
      Decimal.isSigned segment = false ∧ Decimal.isPadded segment = false :=
  Decimal.toDigits_eq_iff_of_read (arc?_eq_some_iff.mp h)

theorem dot_not_mem_digits (arc : UInt32) : '.' ∉ digits arc := by
  intro h
  have digit : Char.isDigit '.' = true := Nat.isDigit_of_mem_toDigits (by decide) (by decide) h
  exact absurd digit (by decide)

/-! ## Reading -/

theorem mapM_eq_some_iff {α β : Type} {f : α → Option β} {xs : List α} {ys : List β} :
    xs.mapM f = some ys ↔ List.Forall₂ (fun x y => f x = some y) xs ys := by
  induction xs generalizing ys with
  | nil => cases ys <;> simp
  | cons x xs ih =>
      rw [List.mapM_cons]
      cases ys with
      | nil => cases f x <;> cases xs.mapM f <;> simp
      | cons y ys =>
          rw [List.forall₂_cons, ← ih]
          cases f x <;> cases xs.mapM f <;> simp

theorem ofDotted?_empty : ofDotted? "" = some empty := rfl

/-- A text that is not empty is read with one arc for each segment. -/
theorem ofDotted?_eq_some_iff {text : String} (h : text ≠ "") {oid : Oid} :
    ofDotted? text = some oid ↔
      List.Forall₂ (fun segment arc => arc? segment = some arc) (segments text) oid.arcs := by
  have nonempty : text.toList ≠ [] := by simpa using h
  rw [← mapM_eq_some_iff, segments, ofDotted?]
  split
  · contradiction
  · cases oid
    simp

/-! ## Writing -/

theorem toList_dotted (oid : Oid) :
    oid.dotted.toList = List.intercalate ['.'] (oid.arcs.map digits) := by
  rw [dotted, String.toList_intercalate, List.map_map]
  congr 1
  exact List.map_congr_left fun arc _ => Nat.toList_repr

/-- What is written has one segment for each arc. -/
theorem segments_dotted {oid : Oid} (h : oid.arcs ≠ []) :
    segments oid.dotted = oid.arcs.map digits := by
  rw [segments, toList_dotted]
  refine List.splitOn_intercalate '.' ?_ (by simpa using h)
  simp only [List.mem_map]
  rintro _ ⟨arc, -, rfl⟩
  exact dot_not_mem_digits arc

theorem dotted_eq_iff {oid : Oid} {text : String} (h : oid.arcs ≠ []) :
    oid.dotted = text ↔ oid.arcs.map digits = segments text := by
  constructor
  · rintro rfl
    exact (segments_dotted h).symm
  · intro same
    rw [← String.toList_inj, toList_dotted, same, segments, List.intercalate_splitOn]

theorem dotted_ne_empty {oid : Oid} (h : oid.arcs ≠ []) : oid.dotted ≠ "" := by
  rw [ne_eq, dotted_eq_iff h]
  intro same
  cases hr : oid.arcs with
  | nil => exact h hr
  | cons arc rest =>
      rw [hr] at same
      simp [segments, digits] at same

/-- Segments that were read as these arcs are the arcs in decimal exactly when none of them has a
sign or padding. -/
theorem map_digits_eq_iff {parts : List (List Char)} {arcs : List UInt32}
    (h : List.Forall₂ (fun segment arc => arc? segment = some arc) parts arcs) :
    arcs.map digits = parts ↔
      ∀ segment ∈ parts, Decimal.isSigned segment = false ∧ Decimal.isPadded segment = false := by
  induction h with
  | nil => simp
  | cons first rest ih =>
      rw [List.map_cons, List.cons.injEq, digits_eq_iff first, ih, List.forall_mem_cons]

theorem ofDotted?_dotted (oid : Oid) : ofDotted? oid.dotted = some oid := by
  by_cases h : oid.arcs = []
  · obtain ⟨arcs⟩ := oid
    subst h
    exact ofDotted?_empty
  · rw [ofDotted?_eq_some_iff (dotted_ne_empty h), segments_dotted h, List.forall₂_map_left_iff,
      List.forall₂_same]
    exact fun arc _ => arc?_digits arc

theorem dotted_eq_iff_of_read {text : String} {oid : Oid} (h : ofDotted? text = some oid) :
    oid.dotted = text ↔
      ∀ segment ∈ segments text,
        Decimal.isSigned segment = false ∧ Decimal.isPadded segment = false := by
  by_cases blank : text = ""
  · subst blank
    obtain rfl : empty = oid := Option.some.inj h
    exact iff_of_true rfl (by decide)
  · have arcs := (ofDotted?_eq_some_iff blank).mp h
    have nonempty : oid.arcs ≠ [] := by
      intro none
      rw [none, List.forall₂_nil_right_iff] at arcs
      exact List.splitOn_ne_nil _ _ arcs
    rw [dotted_eq_iff nonempty, map_digits_eq_iff arcs]

/-- The text of an identifier is read as that identifier, so no two identifiers have one text. A
text that can be read is the text of what it is read as exactly when none of its segments has a
sign or padding. -/
theorem dotted_round_trip :
    (∀ oid : Oid, ofDotted? oid.dotted = some oid) ∧
      Function.Injective dotted ∧
      ∀ (text : String) (oid : Oid), ofDotted? text = some oid →
        (oid.dotted = text ↔
          ∀ segment ∈ segments text,
            Decimal.isSigned segment = false ∧ Decimal.isPadded segment = false) := by
  refine ⟨ofDotted?_dotted, fun x y same => ?_, fun _ _ => dotted_eq_iff_of_read⟩
  have read : some x = some y := by
    rw [← ofDotted?_dotted x, ← ofDotted?_dotted y, same]
  exact Option.some.inj read

theorem dotted_round_trip_of_padded :
    ofDotted? "01.+2" = some ⟨[1, 2]⟩ ∧ dotted ⟨[1, 2]⟩ ≠ "01.+2" ∧
      dotted ⟨[1, 2]⟩ = "1.2" := by
  have padded : ofDotted? "01.+2" = some ⟨[1, 2]⟩ := by decide +kernel
  have plain : ofDotted? "1.2" = some ⟨[1, 2]⟩ := by decide +kernel
  refine ⟨padded, fun same => ?_, (dotted_round_trip.2.2 _ _ plain).mpr (by decide)⟩
  have clean := (dotted_round_trip.2.2 _ _ padded).mp same ['0', '1'] (by decide)
  exact absurd clean.2 (by decide)

end MibLinker.Oid
