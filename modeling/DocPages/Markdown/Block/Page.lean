import DocPages.Markdown.Block.Container
import DocPages.Markdown.Block.Flow

/-!
A page line after line. The marks of containers stand in front of a line, and the rest of it belongs
to the blocks inside. Which containers a line leaves may show only when its text has been read: a
line without marks may go on with the paragraph at hand. So the ends of containers are noted line by
line, and put among the blocks when all lines have been read.
-/

namespace DocPages.Markdown.Block

/-- The page read so far: its blocks, the open containers, outermost first, the events of the marks,
last one first, the containers that end at each line, last line first, whether the last line was one
that a line without marks may go on with, and the labels of the notes. -/
structure Page where
  flow : Flow
  containers : List Container
  events : List Event
  ends : List (List Group)
  soft : Bool
  notes : List (List Char)
  deriving Inhabited

namespace Page

/-- Nothing has been read. -/
def empty : Page := ⟨.empty, [], [], [], false, []⟩

/-! ## The marks in front of a line -/

/-- A line while its marks are read: the page, the number of containers that the line goes on with,
and the rest of the line. -/
structure Line where
  page : Page
  kept : Nat
  rest : List Slot

/-- Meets the events of a mark. -/
def meet (p : Page) (events : List Event) : Page :=
  { p with events := events.reverse ++ p.events }

/-- The open containers that a line goes on with: how many, all of them as they are behind the line,
the events of their marks, and the rest of the line. -/
def further : List Container → List Slot → Nat × List Container × List Event × List Slot
  | [], rest => (0, [], [], rest)
  | c :: containers, rest =>
    match c.further? rest with
    | none => (0, c.behind rest :: containers, [], rest)
    | some m =>
      let (kept, later, events, behind) := further containers m.rest
      (kept + 1, c.behind rest :: later, m.events ++ events, behind)

/-- Ends the containers behind the first `kept` ones at the line before the last `back` ones. -/
def endContainers (p : Page) (kept back : Nat) : Page :=
  let ended := ((p.containers.drop kept).map Container.group).reverse
  let (later, earlier) := p.ends.splitAt back
  { p with
    containers := p.containers.take kept
    ends := later ++
      match earlier with
      | [] => []
      | groups :: rest => (groups ++ ended) :: rest
    flow :=
      if p.flow.unread.isEmpty then
        { p.flow with reader := { p.flow.reader with interrupt := false } }
      else p.flow }

/-- Opens a container. Those that the line does not go on with end first. -/
def openContainer (flavor : Flavor) (l : Line) (c : Container) (m : Marked) : Line :=
  let p := l.page
  let p :=
    if l.kept == p.containers.length then p
    else ({ p with flow := p.flow.close flavor } : Page).endContainers l.kept 0
  let flow := { p.flow with reader := { p.flow.reader with pierce := true } }
  ⟨({ p with containers := p.containers ++ [c], flow := flow } : Page).meet m.events,
    l.kept + 1, m.rest⟩

/-- The container that starts here, its mark, and its label if it is a note. -/
def newContainer? (flavor : Flavor) (interrupt : Bool) (rest : List Slot) :
    Option (Container × Marked × Option (List Slot)) :=
  match newQuote? rest with
  | some (c, m) => some (c, m, none)
  | none =>
    match newItem? interrupt rest with
    | some (c, m) => some (c, m, none)
    | none =>
      if flavor.extended then (newNote? rest).map fun n => (.note, n.2, some n.1) else none

/-- Opens the containers that start on a line. The first argument bounds their number. -/
def openAll (flavor : Flavor) : Nat → Line → Line
  | 0, l => l
  | fuel + 1, l =>
    let all := l.kept == l.page.containers.length
    let r := l.page.flow.reader
    if all && r.concrete then l
    else
      match newContainer? flavor (all && r.interrupt) l.rest with
      | none => l
      | some (c, m, label) =>
        let l := openContainer flavor l c m
        let notes := l.page.notes ++ (label.map fun slots => labelKey (Slot.text slots)).toList
        openAll flavor fuel { l with page := { l.page with notes := notes } }

/-! ## The text of a line -/

/-- The rest of a line behind its marks, with the text of the marks noted at its first slot. -/
def behindMarks (line rest : List Slot) : List Slot :=
  match rest with
  | s :: later => { s with gap := Slot.text (line.take (line.length - rest.length)) } :: later
  | [] => []

/-- Reads what stands behind the marks of a line. -/
def readText (flavor : Flavor) (last : Bool) (l : Line) (rest : List Slot) : Page :=
  let p := l.page
  let lazy := l.kept != p.containers.length
  let flow := { p.flow with reader := { p.flow.reader with lazy := lazy } }
  let more := p.events.any fun e => e.isLeaf (.line true) || e.isLeaf (.line false)
  let p := p.meet (leafOf (.line more) rest)
  let (flow, soft) := flow.feed flavor rest
  let flow :=
    if flow.unread.isEmpty then { flow with reader := { flow.reader with pierce := false } }
    else flow
  let kept := if lazy && p.soft && soft then p.containers.length else l.kept
  let p : Page := { p with flow := flow, ends := [] :: p.ends, soft := soft }
  let p := if kept == p.containers.length then p else p.endContainers kept 1
  if last then ({ p with flow := p.flow.close flavor } : Page).endContainers 0 0 else p

/-- Takes in a line. -/
def readLine (flavor : Flavor) (last : Bool) (p : Page) (line : List Slot) : Page :=
  let (kept, containers, events, rest) := further p.containers line
  let p := ({ p with containers := containers } : Page).meet events
  let l := openAll flavor (line.length + 1) ⟨p, kept, rest⟩
  readText flavor last l (behindMarks line l.rest)

/-- Takes in lines. -/
def readLines (flavor : Flavor) (p : Page) : List (List Slot) → Page
  | [] => p
  | [line] => p.readLine flavor true line
  | line :: lines => (p.readLine flavor false line).readLines flavor lines

/-- Takes in the slots of a page. A byte order mark in front counts for nothing. -/
def ofSlots (flavor : Flavor) (slots : List Slot) : Page :=
  match slots with
  | s :: rest =>
    if s.char == Char.ofNat 0xFEFF then
      let p := empty.meet [.leaf .byteOrderMark [s]]
      match Slot.lines rest with
      | [] => p
      | lines => p.readLines flavor lines
    else empty.readLines flavor (Slot.lines slots)
  | [] => empty

/-! ## All events -/

/-- The ends of groups in front, and the rest. -/
def exitsInFront : List Event → List Event × List Event
  | .exit g pos :: rest =>
    let (exits, rest) := exitsInFront rest
    (.exit g pos :: exits, rest)
  | events => ([], events)

/-- The position of the last event. -/
def lastPos (here : Nat) (events : List Event) : Nat := (events.getLast?.map Event.pos).getD here

/-- The events of blocks with the ends of containers, which are given line by line. They stand in
front of a line break, unless groups end behind it. The first argument bounds the number of
events. -/
def withEnds : Nat → List (List Group) → List Event → List Event × List (List Group)
  | 0, ends, events => (events, ends)
  | _ + 1, ends, [] => ([], ends)
  | fuel + 1, ends, e :: rest =>
    if e.isLineBreak then
      let (exits, behind) := exitsInFront rest
      let pos := lastPos e.pos exits
      let here := (ends.headD []).map fun g => Event.exit g pos
      let (later, left) := withEnds fuel (ends.drop 1) behind
      if exits.isEmpty then (here ++ e :: later, left)
      else (e :: exits ++ here ++ later, left)
    else
      let (later, left) := withEnds fuel ends rest
      (e :: later, left)

/-- Whether a leaf is a line, and whether it goes on with the lines before. -/
def lineFlag? : Leaf → Option Bool
  | .line more => some more
  | _ => none

/-- All events of a page: its marks and its blocks in the order of the page. -/
def allEvents (p : Page) : List Event :=
  let blocks := p.flow.reader.events.reverse
  let (inside, left) := withEnds (blocks.length + 1) p.ends.reverse blocks
  let events := Event.spread lineFlag? (fun _ _ => inside) [] [] p.events.reverse
  events ++ (left.headD []).map fun g => Event.exit g (Slot.stop 0 [])

end Page

end DocPages.Markdown.Block
