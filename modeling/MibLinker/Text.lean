import MibLinker.Text.Printable

/-!
# Texts

How texts are taken apart and put together. Trimming takes away the characters of the `White_Space`
property at both ends. A decimal numeral is an optional `+` followed by one or more digits, with
leading zeros or without. A quoted text stands between double quotes and shows what is not printable
by a letter or by a number, so it fits into one line with others.
-/

namespace MibLinker

namespace Text

/-! ## White space -/

/-- The ranges of code points with the `White_Space` property, ends included. -/
def blankRanges : List (Nat × Nat) :=
  [(0x9, 0xD), (0x20, 0x20), (0x85, 0x85), (0xA0, 0xA0), (0x1680, 0x1680), (0x2000, 0x200A),
    (0x2028, 0x2029), (0x202F, 0x202F), (0x205F, 0x205F), (0x3000, 0x3000)]

def isBlank (c : Char) : Bool :=
  blankRanges.any fun (first, last) => first ≤ c.toNat && c.toNat ≤ last

/-- The text without the white space before its first and after its last other character. -/
def trim (text : List Char) : List Char :=
  ((text.dropWhile isBlank).reverse.dropWhile isBlank).reverse

/-! ## Decimal numerals -/

namespace Decimal

/-- The digits of a numeral: what follows its optional sign. -/
def unsigned : List Char → List Char
  | '+' :: digits => digits
  | digits => digits

def isDigits (text : List Char) : Bool :=
  !text.isEmpty && text.all Char.isDigit

def value (digits : List Char) : Nat :=
  Nat.ofDigitChars 10 digits 0

/-- Reads a numeral whose value is at most `limit`. -/
def read (limit : Nat) (text : List Char) : Option Nat :=
  let digits := unsigned text
  if isDigits digits && value digits ≤ limit then some (value digits) else none

theorem read_le {limit : Nat} {text : List Char} {n : Nat} (h : read limit text = some n) :
    n ≤ limit := by
  simp only [read] at h
  split at h
  · simp_all
  · simp at h

end Decimal

/-! ## Quoted texts -/

namespace Quoted

/-- The code point of a character in hexadecimal, between braces. -/
def codePoint (c : Char) : List Char :=
  ['\\', 'u', '{'] ++ Nat.toDigits 16 c.toNat ++ ['}']

/-- One character as it stands inside the quotes. -/
def encodeChar (c : Char) : List Char :=
  match c with
  | '\x00' => ['\\', '0']
  | '\t' => ['\\', 't']
  | '\n' => ['\\', 'n']
  | '\r' => ['\\', 'r']
  | '"' => ['\\', '"']
  | '\\' => ['\\', '\\']
  | c => if isPrintable c then [c] else codePoint c

def encode (text : String) : String :=
  String.ofList ('"' :: text.toList.flatMap encodeChar ++ ['"'])

def encodeList (texts : List String) : String :=
  "[" ++ ", ".intercalate (texts.map encode) ++ "]"

end Quoted

end Text

/-- A record: its name, and its fields between braces. -/
def describe (name : String) (fields : List (String × String)) : String :=
  name ++ " \x7b " ++ ", ".intercalate (fields.map fun (key, value) => key ++ ": " ++ value)
    ++ " \x7d"

end MibLinker
