import DocPages.Markdown.Event

/-!
Reading one line of a page. A reading may fail, and then another one is tried from the same place.
It may also run short: the line at hand may be the last one and not be complete yet, and what it
holds depends on whether more comes.

A failed reading leaves its events behind, but not what it has noted about the blocks at hand.
-/

namespace DocPages.Markdown.Block

/-- The state of a reading: the events met so far, last one first, what is left of the line, and the
position reached. `soft` says that the part at hand is a paragraph or the head of a table.

The other flags are about the blocks at hand: whether a block that starts now would interrupt a
paragraph, whether the block at hand takes the next line before a container may open, whether the
line lacks the mark of an open container, and whether a container has opened on it. `bar` and `size`
are what a table that turned out to be none has left: whether a bar was met last, and the number of
cells. -/
structure Reader where
  events : List Event
  rest : List Slot
  here : Nat
  soft : Bool
  interrupt : Bool
  concrete : Bool
  lazy : Bool
  pierce : Bool
  bar : Bool
  size : Nat
  deriving Inhabited

/-- How a reading ends. -/
inductive Outcome (α : Type) where
  | done (value : α) (reader : Reader)
  | failed (reader : Reader)
  | short (reader : Reader)

/-- A reading of a part of a line. The flag says that nothing comes behind the line at hand. -/
def Scan (α : Type) : Type := Bool → Reader → Outcome α

namespace Scan

variable {α β : Type}

/-- Reads nothing. -/
def done (value : α) : Scan α := fun _ r => .done value r

/-- One reading behind another. -/
def andThen (first : Scan α) (next : α → Scan β) : Scan β := fun last r =>
  match first last r with
  | .done value r => next value last r
  | .failed r => .failed r
  | .short r => .short r

instance : Monad Scan where
  pure := done
  bind := andThen

/-- Fails. -/
def fail : Scan α := fun _ r => .failed r

/-- What has been noted so far. -/
def look : Scan Reader := fun _ r => .done r r

/-- Notes something. -/
def note (f : Reader → Reader) : Scan Unit := fun _ r => .done () (f r)

/-- The place of `r` with the notes of `later`. -/
def back (r later : Reader) : Reader :=
  { later with events := r.events, rest := r.rest, here := r.here, soft := r.soft }

/-- The first reading, or the second one from the same place if it fails. -/
def orElse (first second : Scan α) : Scan α := fun last r =>
  match first last r with
  | .failed later => second last (back r later)
  | outcome => outcome

/-- The next character; nothing behind the last line. A container that has opened on the last line
counts no more behind it. -/
def peek : Scan (Option Char) := fun last r =>
  match r.rest with
  | s :: _ => .done (some s.char) r
  | [] => if last then .done none { r with pierce := false } else .short r

/-- Goes on behind the first `count` slots of the line, which are the result. -/
def take (count : Nat) : Scan (List Slot) := fun _ r =>
  let slots := r.rest.take count
  .done slots { r with rest := r.rest.drop count, here := Slot.stop r.here slots }

/-- Goes on behind the slots in front that `p` holds of, at most `most` of them. -/
def takeUpTo (most : Nat) (p : Slot → Bool) : Scan (List Slot) := fun last r =>
  take (min most (r.rest.takeWhile p).length) last r

/-- Goes on behind the slots in front that `p` holds of. -/
def takeWhile (p : Slot → Bool) : Scan (List Slot) := fun last r =>
  take (r.rest.takeWhile p).length last r

/-- Goes on behind white space, at most three columns of it. -/
def indent : Scan (List Slot) := takeUpTo 3 Slot.isBlank

/-- Goes on to the end of the line. -/
def restOfLine : Scan (List Slot) := do
  let slots ← takeWhile fun s => !s.isBreak
  let _ ← peek
  return slots

/-- Meets an event. -/
def emit (e : Event) : Scan Unit := note fun r => { r with events := e :: r.events }

/-- Meets a leaf, unless it is empty. -/
def emitLeaf (leaf : Leaf) (slots : List Slot) : Scan Unit :=
  if slots.isEmpty then done () else emit (.leaf leaf slots)

/-- Enters a group. -/
def enter (g : Group) : Scan Unit := note fun r => { r with events := .enter g r.here :: r.events }

/-- Leaves a group. -/
def exit (g : Group) : Scan Unit := note fun r => { r with events := .exit g r.here :: r.events }

/-- Whether the line ends here. -/
def atEnd : Scan Bool := do
  match ← peek with
  | none => return true
  | some c => return c == '\n'

/-- Goes on only at the end of the line. -/
def needEnd : Scan Unit := do
  if ← atEnd then return () else fail

/-- A block has ended. What comes next interrupts nothing, and containers may open. -/
def finish : Scan Unit := note fun r => { r with interrupt := false, concrete := false }

end Scan

end DocPages.Markdown.Block
