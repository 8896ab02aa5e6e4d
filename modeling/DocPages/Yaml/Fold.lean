import DocPages.Yaml.Source

/-!
Scalars that run over several lines: how white space and line breaks between their words come out.
Spaces within a line stay, a single line break becomes a space, and of several breaks the first one
is dropped.
-/

namespace DocPages.Yaml

/-- The text of a scalar so far, and the white space behind its last word: the spaces if no line
break has come, otherwise the first break and the further ones. All parts are kept last character
first, but for the breaks. -/
structure Fold where
  text : List Char
  spaces : List Char
  broken : Bool
  firstBreak : List Char
  breaks : List Char
  deriving Inhabited

namespace Fold

/-- Nothing has been read. -/
def empty : Fold := ⟨[], [], false, [], []⟩

/-- Whether white space stands behind the last word. -/
def pending (f : Fold) : Bool := f.broken || !f.spaces.isEmpty

/-- The white space behind the last word joined to the text. -/
def flush (f : Fold) : Fold :=
  if f.broken then
    let gap :=
      if f.firstBreak == ['\n'] then (if f.breaks.isEmpty then [' '] else f.breaks)
      else f.firstBreak ++ f.breaks
    ⟨gap.reverse ++ f.text, [], false, [], []⟩
  else ⟨f.spaces ++ f.text, [], false, [], []⟩

/-- One more character of a word. -/
def add (f : Fold) (c : Char) : Fold :=
  let f := f.flush
  { f with text := c :: f.text }

/-- A space or a tab; at the start of a line it counts for nothing. -/
def addGap (f : Fold) (c : Char) : Fold :=
  if f.broken then f else { f with spaces := c :: f.spaces }

/-- A line break. -/
def addBreak (f : Fold) (c : Char) : Fold :=
  if f.broken then { f with breaks := f.breaks ++ breakText c }
  else { f with spaces := [], broken := true, firstBreak := breakText c }

/-- A line break that counts for nothing, as do the spaces behind it. -/
def addHiddenBreak (f : Fold) : Fold := { f.flush with broken := true }

/-- The whole text, with the white space at its end. -/
def closed (f : Fold) : List Char := f.flush.text.reverse

/-- The text without the white space at its end. -/
def words (f : Fold) : List Char := f.text.reverse

end Fold

end DocPages.Yaml
