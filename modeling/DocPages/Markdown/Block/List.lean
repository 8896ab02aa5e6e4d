import DocPages.Markdown.Event

/-!
Lists. Items with the same mark make one list if nothing but line breaks and marks of quotes stands
between them. A list is entered in front of its first item and left behind its last one.
-/

namespace DocPages.Markdown.Block

/-! ## Going on behind items -/

/-- The number of events of the items in front. `inside` says that an item has been entered, and how
many groups are open in it. -/
def itemsSize : Option Nat → List Event → Nat
  | _, [] => 0
  | none, e :: rest =>
    match e with
    | .enter .item _ => itemsSize (some 0) rest + 1
    | _ => 0
  | some depth, e :: rest =>
    match e with
    | .enter .. => itemsSize (some (depth + 1)) rest + 1
    | .leaf .. => itemsSize (some depth) rest + 1
    | .exit g _ =>
      itemsSize (if depth == 0 && g == .item then none else some (depth - 1)) rest + 1

/-- The number of events of what may stand between two items of a list. `inside` says that the mark
of a quote has been entered, and how many groups are open in it. -/
def gapSize : Option Nat → List Event → Nat
  | _, [] => 0
  | none, e :: rest =>
    match e with
    | .leaf .blank _ => gapSize none rest + 1
    | .leaf .lineEnding _ => gapSize none rest + 1
    | .leaf .blankLine _ => gapSize none rest + 1
    | .enter .quoteMark _ => gapSize (some 0) rest + 1
    | _ => 0
  | some depth, e :: rest =>
    match e with
    | .enter .. => gapSize (some (depth + 1)) rest + 1
    | .leaf .. => gapSize (some depth) rest + 1
    | .exit g _ =>
      gapSize (if depth == 0 && g == .quoteMark then none else some (depth - 1)) rest + 1

/-! ## Putting items together -/

/-- Items in a row: their mark, the number of items around them, the number of their first event and
of the first one behind them, and the number of the event that the next item of the list has to
start with. -/
structure Run where
  mark : Option Char
  depth : Nat
  start : Nat
  stop : Nat
  next : Nat
  pos : Nat
  deriving DecidableEq, Inhabited

/-- The mark of an item. -/
def itemMark? : List Event → Option Char
  | [] => none
  | .leaf .bullet slots :: _ => slots.head?.map Slot.char
  | _ :: rest => itemMark? rest

/-- Every item alone, given the number of the first event and of the open items. -/
def itemRuns : Nat → Nat → List Event → List Run
  | _, _, [] => []
  | index, depth, .enter .item pos :: rest =>
    let size := itemsSize (some 0) rest + 1
    let stop := index + size
    ⟨itemMark? rest, depth, index, stop, stop + gapSize none (rest.drop (size - 1)), pos⟩ ::
      itemRuns (index + 1) (depth + 1) rest
  | index, depth, .exit .item _ :: rest => itemRuns (index + 1) (depth - 1) rest
  | index, depth, _ :: rest => itemRuns (index + 1) depth rest

/-- The open lists with an item added to the first one that it belongs to, and the lists inside that
one, last one first. -/
def joinRun? (item : Run) : List Run → Option (List Run × List Run)
  | [] => none
  | run :: rest =>
    if run.mark == item.mark && run.depth == item.depth && run.next == item.start then
      some ({ run with stop := item.stop, next := item.next } :: rest, [])
    else (joinRun? item rest).map fun r => (r.1, run :: r.2)

/-- Adds items to the open lists, the innermost one first; `closed` are the lists that have ended.
-/
def joinRuns (opened closed : List Run) : List Run → List Run
  | [] => closed ++ opened.reverse
  | item :: items =>
    match joinRun? item opened with
    | some (opened, inner) => joinRuns opened (closed ++ inner.reverse) items
    | none =>
      let ended := opened.takeWhile fun run => run.stop ≤ item.start
      joinRuns (item :: opened.drop ended.length) (closed ++ ended.reverse) items

/-- The lists of a page. -/
def listRuns (events : List Event) : List Run := joinRuns [] [] (itemRuns 0 0 events)

/-! ## Entering and leaving lists -/

/-- Events to be put in front of the event with a number. -/
structure Insert where
  index : Nat
  events : List Event

/-- One more insertion, behind those at the same place. -/
def addInsert (new : Insert) : List Insert → List Insert
  | [] => [new]
  | i :: rest => if new.index < i.index then new :: i :: rest else i :: addInsert new rest

/-- The events with insertions, given in order, from the event with the number `index` on. -/
def insertAll : Nat → List Insert → List Event → List Event
  | _, inserts, [] => inserts.flatMap Insert.events
  | index, inserts, e :: rest =>
    let here := inserts.takeWhile fun i => i.index == index
    here.flatMap Insert.events ++ e :: insertAll (index + 1) (inserts.drop here.length) rest

/-- The events of a page with its lists. -/
def withLists (events : List Event) : List Event :=
  let inserts := (listRuns events).foldl
    (fun inserts run =>
      let group : Group := .list (run.mark == some '.' || run.mark == some ')')
      addInsert ⟨run.stop, [.exit group run.pos]⟩
        (addInsert ⟨run.start, [.enter group run.pos]⟩ inserts))
    []
  insertAll 0 inserts events

end DocPages.Markdown.Block
