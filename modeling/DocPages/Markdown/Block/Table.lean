import DocPages.Markdown.Block.Pending

/-!
The rows of tables. A line is the head of a table if the next line is a row of dashes with as many
cells. Bars part the cells of a row; a backslash in front of a bar makes it part of a cell.
-/

namespace DocPages.Markdown.Block

/-! ## Rows -/

/-- Each slot of a row, with whether it is a bar between cells. The flag says that a backslash
stands in front. -/
def rowBars : Bool → List Slot → List (Slot × Bool)
  | _, [] => []
  | escaped, s :: rest =>
    if escaped && (s.char == '|' || s.char == '\\') then (s, false) :: rowBars false rest
    else (s, s.char == '|') :: rowBars (s.char == '\\') rest

/-- The slots between the bars of a row. -/
def rowSegments : List (Slot × Bool) → List (List Slot)
  | [] => [[]]
  | (s, bar) :: rest =>
    match rowSegments rest with
    | [] => []
    | segment :: segments =>
      if bar then [] :: segment :: segments else (s :: segment) :: segments

/-- The slots without the white space around them. -/
def trimSlots (slots : List Slot) : List Slot :=
  ((slots.dropWhile Slot.isBlank).reverse.dropWhile Slot.isBlank).reverse

/-- The segments without the last one if it is empty and not the only one. -/
def dropLastEmpty (segments : List (List Slot)) : List (List Slot) :=
  match segments.reverse with
  | [] :: segment :: rest => (segment :: rest).reverse
  | _ => segments

/-- The cells of a row. A bar in front of the first cell and one behind the last cell part nothing.
-/
def rowCells (slots : List Slot) : List (List Slot) :=
  let segments := (rowSegments (rowBars false slots)).map trimSlots
  dropLastEmpty
    (match segments with
    | [] :: segment :: rest => segment :: rest
    | _ => segments)

/-- Meets the cells of a row. -/
def emitCells (here : Nat) : List (List Slot) → Scan Unit
  | [] => Scan.done ()
  | cell :: rest => do
    let start := (cell.head?.map Slot.pos).getD here
    let stop := Slot.stop start cell
    Scan.emit (.enter .cell start)
    Scan.emitLeaf (.text false) cell
    Scan.emit (.exit .cell stop)
    emitCells stop rest

/-- Meets a row. -/
def emitRow (start : Nat) (slots : List Slot) : Scan Unit := do
  Scan.emit (.enter .row start)
  emitCells start (rowCells slots)
  Scan.exit .row

/-! ## The head -/

/-- What has been counted in a row: whether a bar was met last, the cells, and the words and
bars. -/
structure RowCount where
  bar : Bool
  cells : Nat
  pieces : Nat

/-- Counts a word or a bar. A cell counts as soon as something follows its bar. -/
def RowCount.add (n : RowCount) (bar : Bool) : RowCount :=
  ⟨bar, if n.bar then n.cells + 1 else n.cells, n.pieces + 1⟩

/-- Counts the words and bars of a row. The flag says that a word has begun. -/
def RowCount.addAll : Bool → RowCount → List (Slot × Bool) → RowCount
  | _, n, [] => n
  | inWord, n, (s, bar) :: rest =>
    if bar then RowCount.addAll false (n.add true) rest
    else if s.isBlank then RowCount.addAll false n rest
    else RowCount.addAll true (if inWord then n else n.add false) rest

/-- A line that may be the head of a table. It has to hold more than a single bar. -/
def tableHead : Scan Pending := do
  let whole ← Scan.look
  Scan.note fun r => { r with soft := true }
  let _ ← Scan.indent
  let first ← Scan.peek
  if first.any Text.isSpaceOrTab then Scan.fail
  let barFirst := first == some '|'
  if !barFirst then Scan.note fun r => { r with bar := true }
  let slots ← Scan.takeWhile fun s => !s.isBreak
  let r ← Scan.look
  let n := RowCount.addAll false ⟨r.bar, r.size, if barFirst then 0 else 1⟩ (rowBars false slots)
  if (← Scan.peek).isNone || n.pieces ≤ 1 then
    Scan.note fun r => { r with bar := false, size := 0 }
    Scan.fail
  Scan.note fun r => { r with bar := n.bar, size := n.cells, interrupt := true }
  Scan.emit (.enter .tableHead whole.here)
  emitRow whole.here slots
  Scan.emitLeaf .lineEnding (← Scan.takeEnding)
  return .head whole.events whole.rest

/-! ## The row of dashes -/

/-- The rows of dashes from a cell on: how the columns are aligned, and whether there is a colon or
a bar. The first argument bounds the number of cells. -/
def dashCells : Nat → Bool → List Slot → Option (List Align × Bool)
  | 0, _, _ => none
  | fuel + 1, marked, slots =>
    let left := (slots.head?.map Slot.char) == some ':'
    let behind := if left then slots.drop 1 else slots
    let dashes := behind.takeWhile fun s => s.char == '-'
    let behind := behind.drop dashes.length
    let right := (behind.head?.map Slot.char) == some ':'
    let behind := (if right then behind.drop 1 else behind).dropWhile Slot.isBlank
    let align : Align :=
      match left, right with
      | false, false => .unset
      | true, false => .left
      | false, true => .right
      | true, true => .center
    if dashes.isEmpty then none
    else
      match behind with
      | [] => some ([align], marked || left || right)
      | s :: rest =>
        if s.char == '|' then
          match rest.dropWhile Slot.isBlank with
          | [] => some ([align], true)
          | slots => (dashCells fuel true slots).map fun r => (align :: r.1, r.2)
        else none

/-- A row of dashes, given without white space in front: how the columns are aligned. There has to
be a colon or a bar. -/
def dashRow? (slots : List Slot) : Option (List Align) :=
  let barFirst := (slots.head?.map Slot.char) == some '|'
  let slots := if barFirst then (slots.drop 1).dropWhile Slot.isBlank else slots
  match dashCells (slots.length + 1) barFirst slots with
  | some (aligns, true) => some aligns
  | _ => none

/-- The row of dashes below the head of a table. -/
def dashRow : Scan Unit := do
  Scan.note fun r => { r with interrupt := false }
  let r ← Scan.look
  if r.lazy || r.pierce then
    Scan.note fun r => { r with size := 0 }
    Scan.fail
  let _ ← Scan.indent
  let slots ← Scan.restOfLine
  Scan.note fun r => { r with bar := false, size := 0 }
  match dashRow? slots with
  | some aligns =>
    if aligns.length != r.size then Scan.fail
    Scan.emitLeaf (.columns aligns) slots
    Scan.exit .tableHead
  | none => Scan.fail

/-- A line that was not the head of a table, as a line of a paragraph. -/
def emitContentLine (line : List Slot) : Scan Unit := do
  Scan.emitLeaf (.content false) (line.takeWhile fun s => !s.isBreak)
  Scan.emitLeaf .lineEnding (line.dropWhile fun s => !s.isBreak)
  Scan.note fun r => { r with interrupt := true }

/-- Goes on behind a line that may be the head of a table. -/
def resumeHead (events : List Event) (line : List Slot) : Scan (Option Pending) :=
  Scan.orElse
    (do
      dashRow
      return some .nothing)
    (do
      Scan.note fun r => { r with events := events }
      emitContentLine line
      return none)

/-! ## The body -/

/-- Whether the last block is a row of a table. -/
def behindRow (events : List Event) : Bool :=
  match Event.passBack ⟨[.lineEnding, .blank], []⟩ events with
  | .exit .tableHead _ :: _ => true
  | .exit .row _ :: _ => true
  | _ => false

/-- A row of a table below its head. -/
def bodyRow : Scan Unit := do
  if (← Scan.look).lazy then Scan.fail
  let start := (← Scan.look).here
  emitRow start (← Scan.restOfLine)

/-- A row of a table, or a line that may be the head of one. -/
def tableLine : Scan Pending := do
  let r ← Scan.look
  if !r.pierce && behindRow r.events then
    bodyRow
    return .nothing
  else tableHead

end DocPages.Markdown.Block
