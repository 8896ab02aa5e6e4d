import DocPages.Markdown.Event

/-!
The plain pieces of a text: pieces that touch are put together, and white space next to line breaks
and at the ends of the text is taken off. Two spaces or more in front of a line break are a hard
line break.
-/

namespace DocPages.Markdown.Inline

/-- The events with plain pieces that touch put together. -/
def joinData : List Event → List Event
  | [] => []
  | .leaf .data slots :: rest =>
    match joinData rest with
    | .leaf .data more :: rest => .leaf .data (slots ++ more) :: rest
    | rest => .leaf .data slots :: rest
  | e :: rest => e :: joinData rest

/-- The fewest spaces that are a hard line break. -/
def hardBreakSpaces : Nat := 2

/-- The first column of a tab that the slot of a later column belongs to. -/
def tabOf (s : Slot) : Slot := { s with char := '\t', source := ['\t'], inset := 0 }

/-- A plain piece without the white space in front of it. Where it starts inside a tab, the tab
counts as one more character in front, and is the last to be taken off. -/
def trimFront (slots : List Slot) : List Slot :=
  let full := slots.filter fun s => s.inset == 0
  let space := full.takeWhile Slot.isBlank
  match slots with
  | s :: _ =>
    if s.inset == 0 then full.drop space.length else (tabOf s :: full).drop space.length
  | [] => []

/-- A plain piece without the white space that is to be taken off, as events. -/
def trimData (front behind hard : Bool) (slots : List Slot) : List Event :=
  let full := slots.filter fun s => s.inset == 0
  let space := if behind then (full.reverse.takeWhile Slot.isBlank).reverse else []
  let leaf : Leaf :=
    if hard && hardBreakSpaces ≤ space.length && space.all fun s => s.char == ' ' then .hardBreak
    else .blank
  if behind && space.length == full.length then [.leaf leaf slots]
  else
    let body := if behind then (slots.reverse.dropWhile Slot.isBlank).reverse else slots
    let last := leafOf leaf space
    if front then
      if body.all fun s => s.isBlank then .leaf .blank body :: last
      else
        let kept := trimFront body
        leafOf .blank (body.takeWhile Slot.isBlank) ++ .leaf .data kept :: last
    else .leaf .data body :: last

/-- Trims the plain pieces next to line breaks, and at the ends of the text if `whole` says so.
`before` is the event in front. -/
def trimAll (whole hard : Bool) (before : Option Event) : List Event → List Event
  | [] => []
  | .leaf .data slots :: rest =>
    let nextTo (e : Option Event) : Bool :=
      match e with
      | some e => e.isLeaf .lineEnding
      | none => whole
    trimData (nextTo before) (nextTo rest.head?) (hard && !rest.isEmpty) slots ++
      trimAll whole hard (some (.leaf .data slots)) rest
  | e :: rest => e :: trimAll whole hard (some e) rest

end DocPages.Markdown.Inline
