import DocPages.Markdown.Inline.Target

/-!
Lines of text that follow each other make one stretch, whatever marks of containers stand in front
of them. A stretch starts with the definitions of labels; the rest of it is a paragraph. An
underline makes a heading of the paragraph above it, and is text where there is none.
-/

namespace DocPages.Markdown.Block

open Inline (definition?)

/-! ## Stretches of text -/

/-- Whether the next line of text follows here, with nothing but marks in front. -/
def contentFollows : List Event → Bool
  | .leaf .blank _ :: rest => contentFollows rest
  | .enter .quoteMark _ :: rest => contentFollows rest
  | .exit .quoteMark _ :: rest => contentFollows rest
  | .leaf (.content _) _ :: _ => true
  | _ => false

/-- The events with lines of text that follow each other put together. The flag says that the next
line of text goes on with the one before. -/
def joinContent : Bool → List Event → List Event
  | _, [] => []
  | more, .leaf (.content _) slots :: .leaf .lineEnding ending :: rest =>
    if contentFollows rest then .leaf (.content more) (slots ++ ending) :: joinContent true rest
    else .leaf (.content more) slots :: .leaf .lineEnding ending :: joinContent false rest
  | more, .leaf (.content _) slots :: rest => .leaf (.content more) slots :: joinContent false rest
  | more, e :: rest => e :: joinContent more rest

/-- Whether a leaf is a stretch of text, and whether it goes on. -/
def contentFlag? : Leaf → Option Bool
  | .content more => some more
  | _ => none

/-- The definitions in front of a stretch, and the rest of it. The first argument bounds the number
of definitions. -/
def definitions : Nat → List Slot → List Event × List Slot
  | 0, slots => ([], slots)
  | fuel + 1, slots =>
    match definition? slots with
    | none => ([], slots)
    | some m =>
      match m.rest with
      | [] => (m.value, [])
      | s :: rest =>
        let (events, rest) := definitions fuel rest
        (m.value ++ .leaf .lineEnding [s] :: events, rest)

/-- The lines of a paragraph. -/
def textLines (more : Bool) : List (List Slot) → List Event
  | [] => []
  | line :: rest => .leaf (.text more) line :: textLines true rest

/-- What a stretch of text holds. -/
def contentEvents (slots : List Slot) : List Event :=
  let (events, rest) := definitions (slots.length + 1) slots
  if rest.isEmpty then events
  else
    events ++ .enter .paragraph (startOf rest) :: textLines false (Slot.lines rest) ++
      [.exit .paragraph (Slot.stop 0 rest)]

/-- The events of a page with its definitions and paragraphs. -/
def withParagraphs (events : List Event) : List Event :=
  Event.spread contentFlag? (fun _ => contentEvents) [] [] (joinContent false events)

/-- The labels that are defined. -/
def definedLabels : List Event → List (List Char)
  | [] => []
  | .leaf .definitionLabel slots :: rest => labelKey (Slot.spelled slots) :: definedLabels rest
  | _ :: rest => definedLabels rest

/-! ## Underlines -/

/-- The events in front of an underline, last one first, with the paragraph at their end as the text
of a heading; nothing if there is no paragraph. `inside` says that the end of the paragraph has been
met. -/
def underlinedFront? (inside : Bool) : List Event → Option (List Event)
  | [] => none
  | .exit .paragraph pos :: rest =>
    if inside then none
    else (underlinedFront? true rest).map fun r => .exit .underlinedText pos :: r
  | .enter .paragraph pos :: rest =>
    if inside then some (.enter .underlinedText pos :: .enter .underlined pos :: rest) else none
  | e :: rest =>
    if inside then (underlinedFront? true rest).map fun r => e :: r
    else
      match e with
      | .leaf .blank _ => (underlinedFront? false rest).map fun r => e :: r
      | .leaf .lineEnding _ => (underlinedFront? false rest).map fun r => e :: r
      | .enter .quoteMark _ => (underlinedFront? false rest).map fun r => e :: r
      | .exit .quoteMark _ => (underlinedFront? false rest).map fun r => e :: r
      | _ => none

/-- Puts the underlines of a page in their place; `front` are the events in front, last one
first. -/
def placeUnderlines (front : List Event) : List Event → List Event
  | [] => front.reverse
  | .leaf .underline slots :: .leaf .lineEnding ending :: .enter .paragraph pos ::
      .leaf (.text more) text :: rest =>
    match underlinedFront? false front with
    | some front =>
      placeUnderlines
        (.enter .paragraph pos :: .leaf .lineEnding ending ::
          .exit .underlined (Slot.stop 0 slots) :: .leaf .underline slots :: front)
        (.leaf (.text more) text :: rest)
    | none =>
      placeUnderlines
        (.leaf (.text true) text :: .leaf (.text false) (slots ++ ending) ::
          .enter .paragraph (startOf slots) :: front)
        rest
  | .leaf .underline slots :: rest =>
    match underlinedFront? false front with
    | some front =>
      placeUnderlines
        (.exit .underlined (Slot.stop 0 slots) :: .leaf .underline slots :: front) rest
    | none =>
      placeUnderlines
        (.exit .paragraph (Slot.stop 0 slots) :: .leaf (.text false) slots ::
          .enter .paragraph (startOf slots) :: front)
        rest
  | e :: rest => placeUnderlines (e :: front) rest

/-- The events of a page with its underlined headings. -/
def withUnderlines (events : List Event) : List Event := placeUnderlines [] events

/-! ## Tables -/

/-- Whether a row comes before the head of another table. -/
def rowFollows : List Event → Bool
  | [] => false
  | .enter .tableHead _ :: _ => false
  | .enter .row _ :: _ => true
  | _ :: rest => rowFollows rest

/-- Where in a table the events at hand stand. -/
inductive TablePlace where
  | outside
  | head
  | behindHead
  | body
  deriving DecidableEq, Inhabited

/-- The events of a page with its tables. A table ends behind its last row. -/
def withTables (place : TablePlace) : List Event → List Event
  | [] => []
  | .enter .tableHead pos :: rest =>
    .enter .table pos :: .enter .tableHead pos :: withTables .head rest
  | .exit .tableHead pos :: rest =>
    if rowFollows rest then .exit .tableHead pos :: withTables .behindHead rest
    else .exit .tableHead pos :: .exit .table pos :: withTables .outside rest
  | .enter .row pos :: rest =>
    if place == .behindHead then
      .enter .tableBody pos :: .enter .row pos :: withTables .body rest
    else .enter .row pos :: withTables place rest
  | .exit .row pos :: rest =>
    if place == .body && !rowFollows rest then
      .exit .row pos :: .exit .tableBody pos :: .exit .table pos :: withTables .outside rest
    else .exit .row pos :: withTables place rest
  | e :: rest => e :: withTables place rest

end DocPages.Markdown.Block
