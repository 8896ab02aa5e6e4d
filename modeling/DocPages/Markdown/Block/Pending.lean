import DocPages.Markdown.Block.Scan

/-!
What is open between two lines: a block of code, raw markup, or a line that is the head of a table
if the next line says so.
-/

namespace DocPages.Markdown.Block

/-- The opening of a block of code between fences, or of a formula: its mark, the number of marks,
and the number of columns in front of it. -/
structure Fence where
  mark : Char
  size : Nat
  inset : Nat
  deriving DecidableEq, Inhabited

/-- The group of what stands between fences. -/
def Fence.group (f : Fence) : Group := if f.mark == '$' then .formula else .fenced

/-- What ends a block of raw markup. -/
inductive MarkupEnd where
  | comment
  | instruction
  | declaration
  | literal
  | rawTag
  | blankLine
  deriving DecidableEq, Inhabited

/-- A block that may go on behind the line break `ending`. Indented code remembers the events in
front of that line break and the blank lines behind it, which belong to the code only if more code
comes. A line that may be the head of a table is given whole, with the events in front of it. -/
inductive Pending where
  | nothing
  | fence (fence : Fence) (ending : List Slot)
  | indented (events : List Event) (ending : List Slot) (blank : List (List Slot))
  | markup (close : MarkupEnd) (ending : List Slot)
  | head (events : List Event) (line : List Slot)
  deriving Inhabited

namespace Scan

/-- Goes on behind the line break. -/
def takeEnding : Scan (List Slot) := take 1

/-- Leaves a group in front of a line break that has been passed. -/
def exitAt (g : Group) (ending : List Slot) : Scan Unit :=
  emit (.exit g (ending.head?.elim 0 Slot.pos))

end Scan

end DocPages.Markdown.Block
