import DocPages.Text.Blank

/-!
The text of a page as a row of slots: one for each character, one for each line break however it is
written, and one for each column that a tab reaches over. Reading goes from slot to slot, so that a
part of a tab can belong to the mark of a container and the rest of it to what stands inside. No
character gets lost: the slots of a text, read off one after another, spell the text.
-/

namespace DocPages.Markdown

/-- A place in the text of a page. `char` is what a reader of the page meets: a line feed at every
line break, and a space at each column of a tab but its first. `source` is what the text holds for
the slot, `inset` counts the columns of the same tab in front, and `pos` numbers the slots of the
page. `before` and `behind` are the characters of the text next to it, and `gap` is the text of the
marks of containers in front of the first slot of a line. -/
structure Slot where
  char : Char
  source : List Char
  inset : Nat
  pos : Nat
  before : Option Char
  behind : Option Char
  gap : List Char
  deriving DecidableEq, Inhabited

namespace Slot

/-- The number of columns between two stops of a tab. -/
def tabStop : Nat := 4

/-- The number of columns of a tab at a column, counted from one. -/
def tabWidth (column : Nat) : Nat :=
  if column % tabStop == 0 then 1 else tabStop - column % tabStop + 1

/-- The further columns of a tab, from the inset `inset` on. -/
def tabSlots (before behind : Option Char) (pos : Nat) : Nat → Nat → List Slot
  | _, 0 => []
  | inset, count + 1 =>
    ⟨' ', [], inset, pos, before, behind, []⟩ ::
      tabSlots before behind (pos + 1) (inset + 1) count

/-- The slots of a text that starts at a column. -/
def readFrom (column pos : Nat) (before : Option Char) : List Char → List Slot
  | [] => []
  | '\r' :: '\n' :: cs =>
    ⟨'\n', ['\r', '\n'], 0, pos, before, cs.head?, []⟩ :: readFrom 1 (pos + 1) (some '\n') cs
  | c :: cs =>
    if c == '\n' || c == '\r' then
      ⟨'\n', [c], 0, pos, before, cs.head?, []⟩ :: readFrom 1 (pos + 1) (some c) cs
    else if c == '\t' then
      let width := tabWidth column
      ⟨'\t', [c], 0, pos, before, cs.head?, []⟩ ::
        (tabSlots before cs.head? (pos + 1) 1 (width - 1) ++
          readFrom (column + width) (pos + width) (some c) cs)
    else
      ⟨c, [c], 0, pos, before, cs.head?, []⟩ ::
        readFrom (column + c.utf8Size) (pos + 1) (some c) cs

/-- The slots of a text. -/
def read (cs : List Char) : List Slot := readFrom 1 0 none cs

/-- The characters of slots in a row; the columns of a tab whose first one is missing are left
out. -/
def text (slots : List Slot) : List Char := slots.flatMap Slot.source

/-- The characters of slots in a row, with spaces for the columns of a tab whose first one is
missing. They are counted as if every tab had its full width. -/
def padded (slots : List Slot) : List Char :=
  match slots with
  | s :: _ => List.replicate (if s.inset == 0 then 0 else tabStop - s.inset) ' ' ++ text slots
  | [] => []

/-- The characters of the page from the first slot to the last one, marks of containers between
them included. -/
def spelled (slots : List Slot) : List Char :=
  match slots with
  | s :: rest => s.source ++ rest.flatMap fun t => t.gap ++ t.source
  | [] => []

/-- A line break. -/
def isBreak (s : Slot) : Bool := s.char == '\n'

/-- A space or a column of a tab. -/
def isBlank (s : Slot) : Bool := Text.isSpaceOrTab s.char

/-- The lines of a page, each with its line break, given the slots of the line at hand, last one
first. -/
def linesFrom (line : List Slot) : List Slot → List (List Slot)
  | [] => if line.isEmpty then [] else [line.reverse]
  | s :: rest =>
    if s.isBreak then (s :: line).reverse :: linesFrom [] rest else linesFrom (s :: line) rest

/-- The lines of a page, each with its line break. -/
def lines (slots : List Slot) : List (List Slot) := linesFrom [] slots

/-- The position behind slots in a row; `here` if there are none. -/
def stop (here : Nat) (slots : List Slot) : Nat :=
  match slots.getLast? with
  | some s => s.pos + 1
  | none => here

end Slot

end DocPages.Markdown
