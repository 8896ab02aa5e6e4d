import DocPages.Text.Ranges

/-!
A place in a YAML text: what is left of it, and the line and the column reached. Main statement: a
step never lengthens what is left.
-/

namespace DocPages.Yaml

/-- A place in a text. The index counts characters from the start of the text. -/
structure Place where
  rest : List Char
  line : Nat
  column : Nat
  index : Nat
  deriving Inhabited

/-! ## Characters -/

/-- A character that a text may hold at all. -/
def isAllowed (c : Char) : Bool :=
  Text.inRanges [(0x09, 0x0A), (0x0D, 0x0D), (0x20, 0x7E), (0x85, 0x85), (0xA0, 0xD7FF),
    (0xE000, 0xFFFD), (0x10000, 0x10FFFF)] c

/-- A space or a tab. -/
def isGap (c : Char) : Bool := c == ' ' || c == '\t'

/-- A character that ends a line. -/
def isBreak (c : Char) : Bool :=
  c == '\n' || c == '\r' || Text.inRanges [(0x85, 0x85), (0x2028, 0x2029)] c

/-- The byte order mark. -/
def isByteOrderMark (c : Char) : Bool := c.toNat == 0xFEFF

/-- A character of the names of anchors, handles and directives. -/
def isWord (c : Char) : Bool := c.isAlphanum || c == '_' || c == '-'

/-- Whether a text is at its end, or a space, a tab or the end of a line comes next. -/
def atGap : List Char → Bool
  | [] => true
  | c :: _ => isGap c || isBreak c

/-- Whether three equal characters that stand alone come next. -/
def isMark (mark : Char) : List Char → Bool
  | a :: b :: c :: rest => a == mark && b == mark && c == mark && atGap rest
  | _ => false

/-- What a line break stands for inside a scalar: two rare ones stay, all others are a line feed. -/
def breakText (c : Char) : List Char :=
  if Text.inRanges [(0x2028, 0x2029)] c then [c] else ['\n']

namespace Place

/-- The start of a text. -/
def start (cs : List Char) : Place := ⟨cs, 0, 0, 0⟩

/-- The place behind one character. -/
def next (p : Place) : Place :=
  match p.rest with
  | [] => p
  | _ :: cs => ⟨cs, p.line, p.column + 1, p.index + 1⟩

/-- The place behind some characters of the same line. -/
def skip (p : Place) (n : Nat) : Place := ⟨p.rest.drop n, p.line, p.column + n, p.index + n⟩

/-- The place behind the characters at the front for which `keep` holds. -/
def skipWhile (p : Place) (keep : Char → Bool) : Place := p.skip (p.rest.takeWhile keep).length

/-- The place behind a line break; a carriage return and a line feed are one break. -/
def nextLine (p : Place) : Place :=
  match p.rest with
  | '\r' :: '\n' :: cs => ⟨cs, p.line + 1, 0, p.index + 2⟩
  | _ :: cs => ⟨cs, p.line + 1, 0, p.index + 1⟩
  | [] => p

/-- The place at the end of the line. -/
def lineEnd (p : Place) : Place := p.skipWhile fun c => !isBreak c

/-- The place behind spaces, tabs and a comment, and behind the line break if one follows; none if
something else does. -/
def afterLine? (p : Place) : Option Place :=
  let p := p.skipWhile isGap
  let p := if p.rest.head? == some '#' then p.lineEnd else p
  match p.rest with
  | [] => some p
  | c :: _ => if isBreak c then some p.nextLine else none

/-- Whether a mark between documents stands at this place. -/
def atDocumentMark (p : Place) : Bool :=
  p.column == 0 && (isMark '-' p.rest || isMark '.' p.rest)

end Place

end DocPages.Yaml
