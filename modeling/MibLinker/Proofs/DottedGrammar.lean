import Mathlib.Data.List.Induction
import Mathlib.Data.Nat.Digits.Defs
import MibLinker.Proofs.DottedNotation

/-!
# The grammar of dotted notation

Dotted notation is a grammar: numerals with dots between them, where a numeral is an optional plus
sign and then digits, as many as one likes. Reading accepts the texts of the grammar, with the
numbers that their numerals stand for, and refuses every other text on account of a segment in which
one can point at what is wrong.
-/

namespace MibLinker.Text.Decimal

/-! ## Numerals -/

def shown (digits : List (Fin 10)) : List Char := digits.map fun d => Nat.digitChar d.val

def number (digits : List (Fin 10)) : Nat := Nat.ofDigits 10 (digits.reverse.map Fin.val)

/-- Whether a text is a numeral of a number: a plus sign or none, and then one or more digits. -/
def IsNumeral (text : List Char) (n : Nat) : Prop :=
  ∃ digits, digits ≠ [] ∧ number digits = n ∧ (text = shown digits ∨ text = '+' :: shown digits)

/-- What keeps a text from being a numeral of a number up to a limit. -/
inductive Malformed (limit : Nat) : List Char → Prop
  | blank : Malformed limit []
  | bareSign : Malformed limit ['+']
  /-- A character is neither a digit nor a plus sign in front. -/
  | stray {before : List Char} {c : Char} {after : List Char} :
      c.isDigit = false → (before = [] → c ≠ '+') → Malformed limit (before ++ c :: after)
  | excessive {text : List Char} {n : Nat} : IsNumeral text n → limit < n → Malformed limit text

theorem isDigit_of_mem_shown {digits : List (Fin 10)} {c : Char} (h : c ∈ shown digits) :
    c.isDigit = true := by
  obtain ⟨d, -, rfl⟩ := List.mem_map.mp h
  simp [Nat.isDigit_digitChar]

theorem isDigits_shown {digits : List (Fin 10)} (h : digits ≠ []) :
    isDigits (shown digits) = true :=
  isDigits_iff.mpr ⟨by simp [shown, h], fun _ => isDigit_of_mem_shown⟩

theorem value_shown (digits : List (Fin 10)) : value (shown digits) = number digits := by
  induction digits using List.reverseRecOn with
  | nil => simp [value, shown, number]
  | append_singleton digits d ih =>
      have ones : (Nat.digitChar d).toNat - '0'.toNat = d := by
        rw [Nat.toNat_digitChar_of_lt_ten d.isLt]
        simp
      rw [value, shown] at ih
      simp only [value, shown, number, List.map_append, List.map_cons, List.map_nil,
        Nat.ofDigitChars_append, Nat.ofDigitChars_cons, Nat.ofDigitChars_nil, List.reverse_append,
        List.reverse_cons, List.reverse_nil, List.nil_append, List.cons_append, Nat.ofDigits_cons,
        ones, ih]
      omega

theorem exists_shown {text : List Char} (h : ∀ c ∈ text, c.isDigit = true) :
    ∃ digits, shown digits = text := by
  induction text with
  | nil => exact ⟨[], rfl⟩
  | cons c rest ih =>
      obtain ⟨digits, same⟩ := ih fun d hd => h d (by simp [hd])
      obtain ⟨small, digit⟩ := digitChar_toNat_sub (h c (by simp))
      refine ⟨⟨c.toNat - 48, small⟩ :: digits, ?_⟩
      rw [← same, shown, List.map_cons, digit]
      rfl

theorem unsigned_eq_shown_iff {text : List Char} {digits : List (Fin 10)} (h : digits ≠ []) :
    unsigned text = shown digits ↔ text = shown digits ∨ text = '+' :: shown digits := by
  have unsigned_shown : unsigned (shown digits) = shown digits :=
    unsigned_of_isSigned_eq_false (isSigned_eq_false_of_isDigits (isDigits_shown h))
  constructor
  · intro same
    unfold unsigned at same
    split at same
    · exact .inr (congrArg _ same)
    · exact .inl same
  · rintro (rfl | rfl)
    · exact unsigned_shown
    · rfl

theorem isNumeral_iff {text : List Char} {n : Nat} :
    IsNumeral text n ↔ isDigits (unsigned text) = true ∧ value (unsigned text) = n := by
  constructor
  · rintro ⟨digits, nonempty, rfl, written⟩
    rw [(unsigned_eq_shown_iff nonempty).mpr written]
    exact ⟨isDigits_shown nonempty, value_shown digits⟩
  · rintro ⟨digital, rfl⟩
    obtain ⟨nonempty, all⟩ := isDigits_iff.mp digital
    obtain ⟨digits, same⟩ := exists_shown all
    have filled : digits ≠ [] := by
      rintro rfl
      exact nonempty same.symm
    have written := (unsigned_eq_shown_iff filled).mp same.symm
    exact ⟨digits, filled, by rw [← same, value_shown], written⟩

/-- What is read is the number that the numeral stands for, if that does not pass the limit. -/
theorem read_eq_some_iff_isNumeral {limit n : Nat} {text : List Char} :
    read limit text = some n ↔ IsNumeral text n ∧ n ≤ limit := by
  rw [read_eq_some_iff, isNumeral_iff, and_assoc]

theorem not_mem_of_isNumeral {text : List Char} {n : Nat} (h : IsNumeral text n) {c : Char}
    (other : c.isDigit = false) (unsigned : c ≠ '+') : c ∉ text := by
  obtain ⟨digits, -, -, rfl | rfl⟩ := h <;> intro mem
  · simp [isDigit_of_mem_shown mem] at other
  · rcases List.mem_cons.mp mem with rfl | mem
    · exact unsigned rfl
    · simp [isDigit_of_mem_shown mem] at other

/-! ## What is wrong with other texts -/

theorem IsNumeral.unique {text : List Char} {m n : Nat} (h : IsNumeral text m)
    (h' : IsNumeral text n) : m = n :=
  (isNumeral_iff.mp h).2.symm.trans (isNumeral_iff.mp h').2

/-- A text that is no numeral of any number is blank or a bare sign, or has a stray character. -/
theorem malformed_of_not_isDigits {limit : Nat} {text : List Char}
    (h : isDigits (unsigned text) = false) : Malformed limit text := by
  by_cases empty : unsigned text = []
  · unfold unsigned at empty
    split at empty
    · rw [empty]
      exact .bareSign
    · rw [empty]
      exact .blank
  · obtain ⟨c, mem, other⟩ : ∃ c ∈ unsigned text, c.isDigit = false := by
      simpa [isDigits, empty] using h
    obtain ⟨before, after, split⟩ := List.append_of_mem mem
    unfold unsigned at split
    split at split
    · rw [split]
      rw [← List.cons_append]
      exact .stray other (by simp)
    · next unsigned =>
      rw [split]
      refine .stray other ?_
      rintro rfl rfl
      exact unsigned after split

theorem not_isNumeral_of_stray {before after : List Char} {c : Char} (other : c.isDigit = false)
    (inside : before = [] → c ≠ '+') (n : Nat) : ¬ IsNumeral (before ++ c :: after) n := by
  rintro ⟨digits, -, -, same | same⟩
  · have mem : c ∈ shown digits := by simp [← same]
    simp [isDigit_of_mem_shown mem] at other
  · cases before with
    | nil => exact inside rfl (List.cons.inj same).1
    | cons d before =>
        have mem : c ∈ shown digits := by simp [← (List.cons.inj same).2]
        simp [isDigit_of_mem_shown mem] at other

/-- A text is not read exactly when one can point at what is wrong with it. -/
theorem read_eq_none_iff {limit : Nat} {text : List Char} :
    read limit text = none ↔ Malformed limit text := by
  constructor
  · intro unread
    cases digital : isDigits (unsigned text) with
    | false => exact malformed_of_not_isDigits digital
    | true =>
        have numeral : IsNumeral text (value (unsigned text)) := isNumeral_iff.mpr ⟨digital, rfl⟩
        refine .excessive numeral (Nat.lt_of_not_le fun within => ?_)
        rw [read_eq_some_iff_isNumeral.mpr ⟨numeral, within⟩] at unread
        cases unread
  · intro malformed
    refine Option.eq_none_iff_forall_ne_some.mpr fun n reads => ?_
    obtain ⟨numeral, within⟩ := read_eq_some_iff_isNumeral.mp reads
    cases malformed with
    | blank =>
        obtain ⟨digital, -⟩ := isNumeral_iff.mp numeral
        cases digital
    | bareSign =>
        obtain ⟨digital, -⟩ := isNumeral_iff.mp numeral
        cases digital
    | stray other inside => exact not_isNumeral_of_stray other inside n numeral
    | excessive other beyond =>
        have same := numeral.unique other
        omega

/-! ## Padding -/

theorem number_padded (zeros : Nat) (digits : List (Fin 10)) :
    number (List.replicate zeros 0 ++ digits) = number digits := by
  simp [number, Nat.ofDigits_append_replicate_zero]

/-- The digits of a number behind any number of zeros are a numeral of it. -/
theorem isNumeral_padded (zeros n : Nat) :
    IsNumeral (List.replicate zeros '0' ++ Nat.toDigits 10 n) n := by
  obtain ⟨nonempty, all⟩ := isDigits_iff.mp (isDigits_toDigits n)
  obtain ⟨digits, same⟩ := exists_shown all
  have numbered : number digits = n := by
    rw [← value_shown, same]
    exact Nat.ofDigitChars_ten_toDigits
  have filled : digits ≠ [] := by
    rintro rfl
    exact nonempty same.symm
  refine ⟨List.replicate zeros 0 ++ digits, by simp [filled], ?_, .inl ?_⟩
  · rw [number_padded, numbered]
  · rw [← same, shown, shown, List.map_append, List.map_replicate]
    rfl

end MibLinker.Text.Decimal

namespace MibLinker.Oid

open MibLinker.Text

/-! ## Segments -/

theorem arc?_eq_some_iff_isNumeral {segment : List Char} {arc : UInt32} :
    arc? segment = some arc ↔ Decimal.IsNumeral segment arc.toNat := by
  have within : arc.toNat ≤ maxArc := Nat.le_of_lt_succ arc.toNat_lt
  rw [arc?_eq_some_iff, Decimal.read_eq_some_iff_isNumeral]
  exact and_iff_left within

theorem arc?_eq_none_iff {segment : List Char} :
    arc? segment = none ↔ Decimal.Malformed maxArc segment := by
  rw [arc?, Option.map_eq_none_iff, Decimal.read_eq_none_iff]

theorem mapM_eq_none_iff {α β : Type} {f : α → Option β} {xs : List α} :
    xs.mapM f = none ↔ ∃ x ∈ xs, f x = none := by
  induction xs with
  | nil => simp
  | cons x xs ih =>
      rw [List.mapM_cons, List.exists_mem_cons_iff, ← ih]
      cases f x <;> cases xs.mapM f <;> simp

/-- A text is refused exactly when one of its segments is. -/
theorem ofDotted?_eq_none_iff {text : String} (h : text ≠ "") :
    ofDotted? text = none ↔ ∃ segment ∈ segments text, Decimal.Malformed maxArc segment := by
  have nonempty : text.toList ≠ [] := by simpa using h
  simp only [← arc?_eq_none_iff]
  rw [← mapM_eq_none_iff, segments, ofDotted?]
  split
  · contradiction
  · simp

/-- Parts that are numerals, with dots between them, are the segments of the whole. -/
theorem segments_eq_of_isNumeral {text : String} {parts : List (List Char)}
    (nonempty : parts ≠ []) (whole : text.toList = List.intercalate ['.'] parts)
    (numerals : ∀ part ∈ parts, ∃ n, Decimal.IsNumeral part n ∧ n ≤ maxArc) :
    text ≠ "" ∧ segments text = parts := by
  have split : segments text = parts := by
    rw [segments, whole]
    refine List.splitOn_intercalate '.' (fun part mem => ?_) nonempty
    obtain ⟨n, numeral, -⟩ := numerals part mem
    exact Decimal.not_mem_of_isNumeral numeral (by decide) (by decide)
  refine ⟨?_, split⟩
  rintro rfl
  obtain ⟨n, numeral, -⟩ := numerals [] (by simp [← split, segments])
  obtain ⟨digital, -⟩ := Decimal.isNumeral_iff.mp numeral
  cases digital

theorem numerals_of_arcs {parts : List (List Char)} {arcs : List UInt32}
    (h : List.Forall₂ (fun part arc => Decimal.IsNumeral part arc.toNat) parts arcs) :
    ∀ part ∈ parts, ∃ n, Decimal.IsNumeral part n ∧ n ≤ maxArc := by
  induction h with
  | nil => simp
  | @cons part arc _ _ numeral _ ih =>
      rw [List.forall_mem_cons]
      exact ⟨⟨arc.toNat, numeral, Nat.le_of_lt_succ arc.toNat_lt⟩, ih⟩

theorem whole_segments (text : String) :
    segments text ≠ [] ∧ text.toList = List.intercalate ['.'] (segments text) :=
  ⟨List.splitOn_ne_nil _ _, (List.intercalate_splitOn '.').symm⟩

/-! ## Texts -/

/-- Dotted notation is the empty text for the empty identifier, and otherwise numerals of the arcs
with dots between them. -/
theorem ofDotted?_eq_some_iff_numerals {text : String} {oid : Oid} :
    ofDotted? text = some oid ↔
      text = "" ∧ oid = empty ∨
        ∃ parts, parts ≠ [] ∧ text.toList = List.intercalate ['.'] parts ∧
          List.Forall₂ (fun part arc => Decimal.IsNumeral part arc.toNat) parts oid.arcs := by
  constructor
  · intro reads
    by_cases blank : text = ""
    · subst blank
      exact .inl ⟨rfl, (Option.some.inj reads).symm⟩
    · obtain ⟨nonempty, whole⟩ := whole_segments text
      have arcs := (ofDotted?_eq_some_iff blank).mp reads
      exact .inr ⟨_, nonempty, whole, arcs.imp fun _ _ => arc?_eq_some_iff_isNumeral.mp⟩
  · rintro (⟨rfl, rfl⟩ | ⟨parts, nonempty, whole, arcs⟩)
    · exact ofDotted?_empty
    · obtain ⟨written, split⟩ :=
        segments_eq_of_isNumeral nonempty whole (numerals_of_arcs arcs)
      rw [ofDotted?_eq_some_iff written, split]
      exact arcs.imp fun _ _ => arc?_eq_some_iff_isNumeral.mpr

theorem isSome_ofDotted?_iff {text : String} :
    (ofDotted? text).isSome = true ↔
      text = "" ∨ ∃ parts, parts ≠ [] ∧ text.toList = List.intercalate ['.'] parts ∧
        ∀ part ∈ parts, ∃ n, Decimal.IsNumeral part n ∧ n ≤ maxArc := by
  constructor
  · intro accepted
    obtain ⟨oid, reads⟩ := Option.isSome_iff_exists.mp accepted
    rcases ofDotted?_eq_some_iff_numerals.mp reads with ⟨blank, -⟩ | ⟨parts, nonempty, whole, arcs⟩
    · exact .inl blank
    · exact .inr ⟨parts, nonempty, whole, numerals_of_arcs arcs⟩
  · rintro (rfl | ⟨parts, nonempty, whole, numerals⟩)
    · rfl
    · obtain ⟨written, split⟩ := segments_eq_of_isNumeral nonempty whole numerals
      rw [Option.isSome_iff_ne_none, ne_eq, ofDotted?_eq_none_iff written, split]
      rintro ⟨part, mem, malformed⟩
      obtain ⟨n, numeral⟩ := numerals part mem
      have reads : Decimal.read maxArc part = some n :=
        Decimal.read_eq_some_iff_isNumeral.mpr numeral
      rw [Decimal.read_eq_none_iff.mpr malformed] at reads
      cases reads

theorem segments_append_dot (before after : String) :
    segments (before ++ "." ++ after) = segments before ++ segments after := by
  have spelled : (before ++ "." ++ after).toList = before.toList ++ '.' :: after.toList := by simp
  rw [segments, spelled, List.splitOn_append_cons_self]
  rfl

theorem segments_empty : segments "" = [[]] := rfl

/-- An empty segment anywhere spoils a text in which there is a dot. -/
theorem ofDotted?_of_empty_segment (before after : String)
    (empty : [] ∈ segments before ∨ [] ∈ segments after) :
    ofDotted? (before ++ "." ++ after) = none := by
  have nonblank : before ++ "." ++ after ≠ "" := by simp
  rw [ofDotted?_eq_none_iff nonblank, segments_append_dot]
  exact ⟨[], List.mem_append.mpr empty, .blank⟩

/-- The digits of a number behind zeros are read as one arc if the number fits into one, however
many zeros there are. -/
theorem ofDotted?_padded (zeros n : Nat) :
    ofDotted? (String.ofList (List.replicate zeros '0' ++ Nat.toDigits 10 n)) =
      if n ≤ maxArc then some ⟨[n.toUInt32]⟩ else none := by
  let text := String.ofList (List.replicate zeros '0' ++ Nat.toDigits 10 n)
  have numeral : Decimal.IsNumeral text.toList n := by
    rw [String.toList_ofList]
    exact Decimal.isNumeral_padded zeros n
  have nonblank : text ≠ "" := by
    simp [text]
  have one : segments text = [text.toList] :=
    List.splitOn_eq_singleton (Decimal.not_mem_of_isNumeral numeral (by decide) (by decide))
  split_ifs with fits
  · have value : n.toUInt32.toNat = n := UInt32.toNat_ofNat_of_lt' (Nat.lt_succ_of_le fits)
    rw [ofDotted?_eq_some_iff nonblank, one, List.forall₂_cons]
    exact ⟨arc?_eq_some_iff_isNumeral.mpr (value.symm ▸ numeral), .nil⟩
  · rw [ofDotted?_eq_none_iff nonblank, one]
    exact ⟨_, List.mem_singleton_self _, .excessive numeral (Nat.lt_of_not_le fits)⟩

/-- Dotted notation is read exactly as its grammar says: the empty text as the empty identifier, and
numerals of numbers below 2^32, with dots between them, as the arcs of these numbers in order. Every
other text is refused, on account of a segment that is blank or a bare sign, has a character that
does not belong there, or stands for a number that is too large. So a dot in front, a dot at the end
or a dot behind another one spoils the text, while zeros in front of a number never do. -/
theorem dotted_grammar_exact :
    (∀ (text : String) (oid : Oid), ofDotted? text = some oid ↔
      text = "" ∧ oid = empty ∨
        ∃ parts, parts ≠ [] ∧ text.toList = List.intercalate ['.'] parts ∧
          List.Forall₂ (fun part arc => Decimal.IsNumeral part arc.toNat) parts oid.arcs) ∧
    (∀ text : String, (ofDotted? text).isSome = true ↔
      text = "" ∨ ∃ parts, parts ≠ [] ∧ text.toList = List.intercalate ['.'] parts ∧
        ∀ part ∈ parts, ∃ n, Decimal.IsNumeral part n ∧ n ≤ 4294967295) ∧
    (∀ text : String, text ≠ "" →
      (ofDotted? text = none ↔ ∃ segment ∈ segments text, Decimal.Malformed 4294967295 segment)) ∧
    (∀ before after : String, ofDotted? ("." ++ after) = none ∧ ofDotted? (before ++ ".") = none ∧
      ofDotted? (before ++ ".." ++ after) = none) ∧
    ∀ zeros n : Nat, ofDotted? (String.ofList (List.replicate zeros '0' ++ Nat.toDigits 10 n)) =
      if n ≤ 4294967295 then some ⟨[n.toUInt32]⟩ else none := by
  refine ⟨fun text oid => ofDotted?_eq_some_iff_numerals, fun text => isSome_ofDotted?_iff,
    fun text => ofDotted?_eq_none_iff, fun before after => ⟨?front, ?back, ?double⟩,
    ofDotted?_padded⟩
  case front =>
    have spoilt := ofDotted?_of_empty_segment "" after (.inl (by simp [segments_empty]))
    rwa [String.empty_append] at spoilt
  case back =>
    have spoilt := ofDotted?_of_empty_segment before "" (.inr (by simp [segments_empty]))
    rwa [String.append_empty] at spoilt
  case double =>
    have empty : [] ∈ segments ("" ++ "." ++ after) := by
      rw [segments_append_dot]
      simp [segments_empty]
    have spoilt := ofDotted?_of_empty_segment before ("" ++ "." ++ after) (.inr empty)
    have same : before ++ "." ++ ("" ++ "." ++ after) = before ++ ".." ++ after := by
      simp [← String.toList_inj]
    rwa [same] at spoilt

/-- The largest arc behind zeros and a sign is read; one more than that spoils the text. -/
theorem dotted_grammar_exact_at_limit :
    ofDotted? "+004294967295.0" = some ⟨[4294967295, 0]⟩ ∧ ofDotted? "1.4294967296.2" = none := by
  have largest : Decimal.IsNumeral "+004294967295".toList 4294967295 :=
    ⟨[0, 0, 4, 2, 9, 4, 9, 6, 7, 2, 9, 5], by simp, by decide, .inr rfl⟩
  have zero : Decimal.IsNumeral "0".toList 0 := ⟨[0], by simp, by decide, .inl rfl⟩
  have beyond : Decimal.IsNumeral "4294967296".toList 4294967296 :=
    ⟨[4, 2, 9, 4, 9, 6, 7, 2, 9, 6], by simp, by decide, .inl rfl⟩
  constructor
  · exact (dotted_grammar_exact.1 _ _).mpr (.inr ⟨["+004294967295".toList, "0".toList], by simp,
      by decide, .cons largest (.cons zero .nil)⟩)
  · exact (dotted_grammar_exact.2.2.1 _ (by simp)).mpr
      ⟨"4294967296".toList, by decide, .excessive beyond (by decide)⟩

end MibLinker.Oid
