/-!
Classes of characters, given as ranges of code points. Main statement: a character is in the class
exactly when one of the ranges holds its code point.
-/

namespace DocPages.Text

/-- Whether the code point of `c` lies in one of the ranges, both ends included. -/
def inRanges (ranges : List (Nat × Nat)) (c : Char) : Bool :=
  ranges.any fun r => r.1 ≤ c.toNat && c.toNat ≤ r.2

theorem inRanges_iff {ranges : List (Nat × Nat)} {c : Char} :
    inRanges ranges c = true ↔ ∃ r ∈ ranges, r.1 ≤ c.toNat ∧ c.toNat ≤ r.2 := by
  simp [inRanges]

/-- Whether `c` is one of the 32 punctuation characters of ASCII. -/
def isAsciiPunctuation (c : Char) : Bool :=
  inRanges [(0x21, 0x2F), (0x3A, 0x40), (0x5B, 0x60), (0x7B, 0x7E)] c

/-- Whether `c` is a digit of base sixteen. -/
def isHexDigit (c : Char) : Bool :=
  inRanges [(0x30, 0x39), (0x41, 0x46), (0x61, 0x66)] c

/-- The value of a digit of base sixteen, and zero for every other character. -/
def hexValue (c : Char) : Nat :=
  if c.isDigit then c.toNat - 0x30
  else if inRanges [(0x41, 0x46)] c then c.toNat - 0x41 + 10
  else if inRanges [(0x61, 0x66)] c then c.toNat - 0x61 + 10
  else 0

/-- The number that digits spell in a base up to sixteen, most significant digit first. -/
def digitsValue (base : Nat) (digits : List Char) : Nat :=
  digits.foldl (fun n c => n * base + hexValue c) 0

/-- The lower-case form of the ASCII letters; every other character stays. -/
def asciiLower (cs : List Char) : List Char := cs.map Char.toLower

end DocPages.Text
