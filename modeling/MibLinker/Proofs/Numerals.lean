import MibLinker.Text

/-!
# Numerals and the numbers they write

A number has many numerals: a sign may stand in front, and zeros after it. The digits of the number
are the one numeral that has neither, so reading the digits of a number gives the number back, and
a numeral that was read is the digits of what was read exactly when it has neither.
-/

namespace MibLinker.Text.Decimal

def isSigned (text : List Char) : Bool := text.head? == some '+'

/-- Whether the digits open with a zero that is not the only one of them. -/
def isPadded (text : List Char) : Bool :=
  match unsigned text with
  | '0' :: _ :: _ => true
  | _ => false

theorem isDigits_iff {text : List Char} :
    isDigits text = true ↔ text ≠ [] ∧ ∀ c ∈ text, c.isDigit = true := by
  simp [isDigits]

theorem read_eq_some_iff {limit n : Nat} {text : List Char} :
    read limit text = some n ↔
      isDigits (unsigned text) = true ∧ value (unsigned text) = n ∧ n ≤ limit := by
  simp only [read, Option.ite_none_right_eq_some, Bool.and_eq_true, decide_eq_true_eq,
    Option.some.injEq]
  constructor
  · rintro ⟨⟨digits, bound⟩, rfl⟩
    exact ⟨digits, rfl, bound⟩
  · rintro ⟨digits, rfl, bound⟩
    exact ⟨⟨digits, bound⟩, rfl⟩

theorem unsigned_of_isSigned_eq_false {text : List Char} (h : isSigned text = false) :
    unsigned text = text := by
  unfold unsigned
  split
  · simp [isSigned] at h
  · rfl

/-! ## The digits of a number -/

theorem isDigits_toDigits (n : Nat) : isDigits (Nat.toDigits 10 n) = true :=
  isDigits_iff.mpr
    ⟨Nat.toDigits_ne_nil, fun _ => Nat.isDigit_of_mem_toDigits (by decide) (by decide)⟩

theorem isSigned_eq_false_of_isDigits {text : List Char} (h : isDigits text = true) :
    isSigned text = false := by
  cases text with
  | nil => rfl
  | cons c rest =>
      have digit : c.isDigit = true := (isDigits_iff.mp h).2 c (by simp)
      have unlike : c ≠ '+' := by
        rintro rfl
        exact absurd digit (by decide)
      simp [isSigned, unlike]

theorem unsigned_toDigits (n : Nat) : unsigned (Nat.toDigits 10 n) = Nat.toDigits 10 n :=
  unsigned_of_isSigned_eq_false (isSigned_eq_false_of_isDigits (isDigits_toDigits n))

/-- Reading the digits of a number gives the number back. -/
theorem read_toDigits {limit n : Nat} (h : n ≤ limit) :
    read limit (Nat.toDigits 10 n) = some n := by
  rw [read_eq_some_iff, unsigned_toDigits]
  exact ⟨isDigits_toDigits n, Nat.ofDigitChars_ten_toDigits, h⟩

theorem head?_toDigits_ne_zero {n : Nat} (positive : 0 < n) :
    (Nat.toDigits 10 n).head? ≠ some '0' := by
  induction n using Nat.strongRecOn with
  | ind n ih =>
      by_cases small : n < 10
      · rw [Nat.toDigits_of_lt_base small]
        intro h
        have zero : (Nat.digitChar n).toNat = '0'.toNat :=
          congrArg Char.toNat (Option.some.inj h)
        rw [Nat.toNat_digitChar_of_lt_ten small] at zero
        have none : n = 0 := by simpa using zero
        omega
      · -- The last digit is written behind others, which are there already.
        rw [Nat.toDigits_of_base_le (by decide) (by omega), List.head?_append,
          List.head?_eq_some_head Nat.toDigits_ne_nil, Option.some_or,
          ← List.head?_eq_some_head Nat.toDigits_ne_nil]
        exact ih (n / 10) (by omega) (by omega)

theorem isPadded_toDigits (n : Nat) : isPadded (Nat.toDigits 10 n) = false := by
  unfold isPadded
  rw [unsigned_toDigits]
  split
  case h_1 digit rest h =>
    rcases Nat.eq_zero_or_pos n with rfl | positive
    · simp at h
    · exact absurd (by rw [h]; rfl) (head?_toDigits_ne_zero positive)
  case h_2 => rfl

/-! ## Numerals without a sign and without padding -/

theorem digitChar_toNat_sub {c : Char} (h : c.isDigit = true) :
    c.toNat - 48 < 10 ∧ Nat.digitChar (c.toNat - 48) = c := by
  have range : 48 ≤ c.toNat ∧ c.toNat ≤ 57 := by
    simpa [Char.isDigit, UInt32.le_iff_toNat_le] using h
  refine ⟨by omega, Char.toNat_inj.mp ?_⟩
  rw [Nat.toNat_digitChar_of_lt_ten (by omega)]
  omega

/-- Digits that are written behind a number other than zero stand behind its digits. -/
theorem toDigits_append_digits {digits : List Char} (h : ∀ c ∈ digits, c.isDigit = true) :
    ∀ {n : Nat}, 0 < n →
      Nat.toDigits 10 n ++ digits = Nat.toDigits 10 (Nat.ofDigitChars 10 digits n) := by
  induction digits with
  | nil => intros; simp
  | cons c rest ih =>
      intro n positive
      obtain ⟨small, digit⟩ := digitChar_toNat_sub (h c (by simp))
      have one : Nat.toDigits 10 n ++ [c] = Nat.toDigits 10 (10 * n + (c.toNat - 48)) := by
        rw [← Nat.toDigits_append_toDigits (by decide) positive small,
          Nat.toDigits_of_lt_base small, digit]
      calc Nat.toDigits 10 n ++ c :: rest
          = (Nat.toDigits 10 n ++ [c]) ++ rest := by simp
        _ = Nat.toDigits 10 (10 * n + (c.toNat - 48)) ++ rest := by rw [one]
        _ = Nat.toDigits 10 (Nat.ofDigitChars 10 rest (10 * n + (c.toNat - 48))) :=
            ih (fun d hd => h d (by simp [hd])) (by omega)
        _ = Nat.toDigits 10 (Nat.ofDigitChars 10 (c :: rest) n) := by rw [Nat.ofDigitChars_cons]; rfl

/-- Digits without padding are the digits of the number that they write. -/
theorem toDigits_value {digits : List Char} (h : isDigits digits = true)
    (plain : isPadded digits = false) : Nat.toDigits 10 (value digits) = digits := by
  obtain ⟨nonempty, all⟩ := isDigits_iff.mp h
  cases digits with
  | nil => contradiction
  | cons c rest =>
      obtain ⟨small, digit⟩ := digitChar_toNat_sub (all c (by simp))
      have first : Nat.toDigits 10 (c.toNat - 48) = [c] := by
        rw [Nat.toDigits_of_lt_base small, digit]
      have split : value (c :: rest) = Nat.ofDigitChars 10 rest (c.toNat - 48) := by
        rw [value, Nat.ofDigitChars_cons]
        simp
      cases rest with
      | nil => rw [split, Nat.ofDigitChars_nil, first]
      | cons d rest =>
          have positive : 0 < c.toNat - 48 := by
            refine Nat.pos_of_ne_zero fun zero => ?_
            have opening : c = '0' := by
              rw [← digit, zero]
              rfl
            subst opening
            simp [isPadded, unsigned] at plain
          rw [split, ← toDigits_append_digits (fun e he => all e (by simp [he])) positive, first]
          rfl

/-- A numeral is the digits of what it is read as exactly when it has no sign and no padding. -/
theorem toDigits_eq_iff_of_read {limit n : Nat} {text : List Char}
    (h : read limit text = some n) :
    Nat.toDigits 10 n = text ↔ isSigned text = false ∧ isPadded text = false := by
  obtain ⟨digits, rfl, -⟩ := read_eq_some_iff.mp h
  constructor
  · intro same
    rw [← same]
    exact ⟨isSigned_eq_false_of_isDigits (isDigits_toDigits _), isPadded_toDigits _⟩
  · rintro ⟨unsigned, plain⟩
    rw [unsigned_of_isSigned_eq_false unsigned] at digits ⊢
    exact toDigits_value digits plain

end MibLinker.Text.Decimal
