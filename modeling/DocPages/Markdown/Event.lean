import DocPages.Markdown.Node
import DocPages.Markdown.Slot

/-!
What a reading of a page meets, one event after another: a group is entered and left, and leaves
stand for the text itself. Groups need not nest: a container may end while a block inside it has
just begun.

A stretch of text that is read later stands as a leaf for each of its lines. `spread` puts what such
a stretch turns out to hold in the places of its lines.
-/

namespace DocPages.Markdown

/-- The parts of a page with events inside. -/
inductive Group where
  | quote
  | quoteMark
  | item
  | itemMark
  | note
  | noteMark
  | list (ordered : Bool)
  | paragraph
  | heading
  | underlined
  | underlinedText
  | indented
  | fenced
  | formula
  | fence
  | markup
  | table
  | tableHead
  | tableBody
  | row
  | cell
  | definition
  | emphasis
  | strong
  | strike
  | link
  | image
  | call
  | label
  | labelText
  | resource
  | referral
  | code
  | inlineFormula
  | tag
  deriving DecidableEq, Inhabited

/-- What an address that is a link by itself begins with if it is left out. -/
inductive Scheme where
  | written
  | mail
  | web
  deriving DecidableEq, Inhabited

/-- The parts of a page without events inside. The flag `more` of a stretch of text says that it
goes on with the stretch of the same kind before it. -/
inductive Leaf where
  | byteOrderMark
  | blank
  | lineEnding
  | blankLine
  | line (more : Bool)
  | content (more : Bool)
  | text (more : Bool)
  | rule
  | underline
  | headingMark
  | info
  | moreInfo
  | codeLine
  | markupLine
  | bullet
  | number
  | noteLabel
  | columns (aligns : List Align)
  | definitionLabel
  | destination
  | title
  | reference
  | data
  | escaped
  | characterReference
  | hardBreak
  | run
  | opener
  | address (scheme : Scheme) (free : Bool)
  | box (checked : Bool)
  | codeText
  deriving DecidableEq, Inhabited

/-- One step of a reading. The position of a group's end is the one behind its last slot. -/
inductive Event where
  | enter (group : Group) (pos : Nat)
  | exit (group : Group) (pos : Nat)
  | leaf (leaf : Leaf) (slots : List Slot)
  deriving DecidableEq, Inhabited

/-- A leaf, unless it is empty. -/
def leafOf (leaf : Leaf) (slots : List Slot) : List Event :=
  if slots.isEmpty then [] else [.leaf leaf slots]

/-- The position of the first slot. -/
def startOf (slots : List Slot) : Nat := (slots.head?.map Slot.pos).getD 0

namespace Event

/-- Where an event stands. -/
def pos : Event → Nat
  | .enter _ pos => pos
  | .exit _ pos => pos
  | .leaf _ slots => startOf slots

/-- Whether an event is the leaf `l`. -/
def isLeaf (l : Leaf) : Event → Bool
  | .leaf m _ => m == l
  | _ => false

/-- Whether an event is a line break, in a text or behind a blank line. -/
def isLineBreak (e : Event) : Bool := e.isLeaf .lineEnding || e.isLeaf .blankLine

/-- Whether an event enters or leaves the group `g`. -/
def isOf (g : Group) : Event → Bool
  | .enter h _ => h == g
  | .exit h _ => h == g
  | .leaf .. => false

/-! ## Passing over what has been read

The events of a reading are given last one first. -/

/-- What is passed over: leaves and whole groups. -/
structure Passing where
  leaves : List Leaf
  groups : List Group

/-- The events that are left when those at the end that `p` names have been passed over. `inside`
tells of the group whose end has been met: which one it is, and how many groups are open between. -/
def passBackFrom (p : Passing) : Option (Group × Nat) → List Event → List Event
  | _, [] => []
  | none, e :: rest =>
    match e with
    | .leaf l _ => if p.leaves.contains l then passBackFrom p none rest else e :: rest
    | .exit g _ => if p.groups.contains g then passBackFrom p (some (g, 0)) rest else e :: rest
    | .enter .. => e :: rest
  | some (g, depth), e :: rest =>
    match e with
    | .leaf .. => passBackFrom p (some (g, depth)) rest
    | .exit .. => passBackFrom p (some (g, depth + 1)) rest
    | .enter h _ =>
      if depth == 0 && h == g then passBackFrom p none rest
      else passBackFrom p (some (g, depth - 1)) rest

/-- The events that are left when those at the end that `p` names have been passed over. -/
def passBack (p : Passing) (events : List Event) : List Event := passBackFrom p none events

/-! ## Stretches of text -/

/-- The positions at which an event may turn out to belong to a further line: its own one, and the
one behind its last slot if it is a leaf in one line. -/
def places : Event → List Nat
  | .leaf _ slots =>
    if slots.dropLast.any Slot.isBreak then [startOf slots]
    else [startOf slots, Slot.stop (startOf slots) slots]
  | e => [e.pos]

/-- Goes on by at most one line for each of the positions, given where the line at hand and the
further ones but the last end. The lines that are left come first, and then the others. -/
def advance : List Nat → List Nat → List Nat × List Nat
  | [], _ => ([], [])
  | stops, [] => ([], stops)
  | stop :: stops, pos :: places =>
    if stop < pos then
      let (passed, left) := advance stops places
      (stop :: passed, left)
    else advance (stop :: stops) places

/-- The events of a stretch line by line, given where the line at hand and the further ones but the
last end, and the events of the line at hand, last one first. -/
def byLine : List Nat → List Event → List Event → List (List Event)
  | stops, now, [] => now.reverse :: stops.map fun _ => []
  | stops, now, e :: rest =>
    match advance stops e.places with
    | (_ :: passed, left) => now.reverse :: (passed.map fun _ => []) ++ byLine left [e] rest
    | ([], left) => byLine left (e :: now) rest

/-- The further lines of a stretch; `flag?` tells for a leaf of the kind whether it goes on with a
stretch. -/
def furtherLines (flag? : Leaf → Option Bool) : List Event → List (List Slot)
  | [] => []
  | .leaf l slots :: rest =>
    match flag? l with
    | some true => slots :: furtherLines flag? rest
    | some false => []
    | none => furtherLines flag? rest
  | _ :: rest => furtherLines flag? rest

/-- The events of a stretch of lines, line by line. -/
def stretch (inside : List Slot → List Event) (lines : List (List Slot)) : List (List Event) :=
  byLine (lines.dropLast.map (Slot.stop 0)) [] (inside lines.flatten)

/-- The events with those that each stretch of a kind holds put in the places of its lines.
`inside` reads a stretch, given the events in front of it, last one first, and `held` are the events
of the further lines of the stretch at hand. -/
def spread (flag? : Leaf → Option Bool) (inside : List Event → List Slot → List Event)
    (front : List Event) (held : List (List Event)) : List Event → List Event
  | [] => held.flatten
  | e :: rest =>
    match e with
    | .leaf l slots =>
      match flag? l with
      | some more =>
        let lines :=
          if more then held else stretch (inside front) (slots :: furtherLines flag? rest)
        lines.headD [] ++ spread flag? inside (e :: front) (lines.drop 1) rest
      | none => e :: spread flag? inside (e :: front) held rest
    | _ => e :: spread flag? inside (e :: front) held rest

end Event

end DocPages.Markdown
