import DocPages.Markdown.Block.Code
import DocPages.Markdown.Block.Heading
import DocPages.Markdown.Block.Markup
import DocPages.Markdown.Block.Table
import DocPages.Markdown.Flavor

/-!
The blocks of a page without the marks of its containers. The lines are read one after another; a
block that may go on is held between two lines.

What a line may start depends on its first character, if that is no white space. A line that starts
with the mark of one kind of block and turns out not to hold one is text.
-/

namespace DocPages.Markdown.Block

open Scan (orElse)

/-! ## One line -/

/-- A line of text. It belongs to a paragraph, or defines what a label stands for. -/
def contentLine : Scan Pending := do
  Scan.note fun r => { r with soft := true }
  Scan.emitLeaf (.content false) (← Scan.restOfLine)
  Scan.note fun r => { r with interrupt := true }
  return .nothing

/-- A blank line, up to its line break. -/
def blankLine : Scan Unit := do
  Scan.emitLeaf .blank (← Scan.takeWhile Slot.isBlank)
  Scan.needEnd

/-- A block of a single line. -/
def single (block : Scan Unit) : Scan Pending := do
  block
  return .nothing

/-- A block of raw markup, where raw markup is in use. -/
def markupIn (flavor : Flavor) : Scan Pending := if flavor.rawHtml then markup else Scan.fail

/-- A line of a table, where the extensions are in use. -/
def tableIn (flavor : Flavor) : Scan Pending := if flavor.extended then tableLine else Scan.fail

/-- The block that a line starts behind the kinds that may not stand there. -/
def laterBlock (flavor : Flavor) : Scan Pending :=
  orElse (single heading) (orElse (single underline) (orElse (single rule)
    (orElse (tableIn flavor) contentLine)))

/-- The block that a line starts. -/
def anyBlock (flavor : Flavor) : Scan Pending :=
  orElse indented (orElse (openFence flavor.math) (orElse (markupIn flavor) (laterBlock flavor)))

/-- What stands behind a block. -/
def lineEnd (pending : Pending) : Scan Pending := do
  match pending with
  | .nothing =>
    if (← Scan.peek).isSome then Scan.emitLeaf .lineEnding (← Scan.takeEnding)
    return .nothing
  | pending => return pending

/-- What stands behind a blank line. -/
def blankEnd : Scan Pending := do
  if (← Scan.peek).isSome then
    Scan.emitLeaf .blankLine (← Scan.takeEnding)
    Scan.note fun r => { r with interrupt := false }
  return .nothing

/-- A line from its start on. -/
def startLine (flavor : Flavor) : Scan Pending := do
  match (← Scan.look).rest with
  | [] => return .nothing
  | s :: _ =>
    let c := s.char
    if c == '#' then lineEnd (← orElse (single heading) contentLine)
    else if c == '$' || c == '\x60' || c == '~' then
      lineEnd (← orElse (openFence flavor.math) contentLine)
    else if c == '*' || c == '_' then lineEnd (← orElse (single rule) contentLine)
    else if c == '<' then lineEnd (← orElse (markupIn flavor) (laterBlock flavor))
    else if c == 'e' || c == 'i' || c == '\x7b' then lineEnd (← contentLine)
    else if ← orElse (do blankLine; return true) (Scan.done false) then blankEnd
    else lineEnd (← anyBlock flavor)

/-- Goes on with what is open. The result is nothing if that has ended in front of the line, which
is then still to be read. -/
def resume : Pending → Scan (Option Pending)
  | .nothing => Scan.done none
  | .fence f ending => resumeFence f ending
  | .indented events ending blank => resumeIndented events ending blank
  | .markup close ending => resumeMarkup close ending
  | .head events line => resumeHead events line

/-- A line behind what is open. -/
def readLine (flavor : Flavor) (pending : Pending) : Scan Pending := do
  match ← resume pending with
  | some pending => lineEnd pending
  | none => startLine flavor

/-! ## Line after line -/

/-- The blocks read so far: the state behind the last line, and what is open. The last line is held
back while it is not clear whether it is complete. -/
structure Flow where
  reader : Reader
  pending : Pending
  unread : List Slot
  deriving Inhabited

namespace Flow

/-- Nothing has been read. -/
def empty : Flow := ⟨⟨[], [], 0, false, false, false, false, false, false, 0⟩, .nothing, []⟩

/-- Reads the line at hand. -/
def run (flavor : Flavor) (last : Bool) (f : Flow) (line : List Slot) : Outcome Pending :=
  let start := (line.head?.map Slot.pos).getD f.reader.here
  readLine flavor f.pending last
    { f.reader with rest := line, here := start, soft := false }

/-- Whether what has been read ends in a paragraph, or in a line that may be the head of a table. -/
def endsSoft (f : Flow) : Bool :=
  match f.pending with
  | .head .. => true
  | _ =>
    match Event.passBack ⟨[.lineEnding], []⟩ f.reader.events with
    | .leaf (.content _) _ :: _ => true
    | .leaf .underline _ :: _ => true
    | _ => false

/-- Takes in a line without the marks of its containers. The flag says whether the line is one that
a paragraph may go on with though marks are missing. -/
def feed (flavor : Flavor) (f : Flow) (line : List Slot) : Flow × Bool :=
  if line.isEmpty then (f, f.endsSoft)
  else
    match f.run flavor false line with
    | .done pending reader =>
      let f : Flow := ⟨reader, pending, []⟩
      (f, f.endsSoft)
    | .failed reader => (⟨reader, f.pending, []⟩, false)
    | .short reader => (⟨f.reader, f.pending, line⟩, reader.soft)

/-- Ends what is open, as no line comes behind the last one. -/
def close (flavor : Flavor) (f : Flow) : Flow :=
  match f.run flavor true f.unread with
  | .done _ reader => ⟨reader, .nothing, []⟩
  | .failed reader => ⟨reader, .nothing, []⟩
  | .short reader => ⟨reader, .nothing, []⟩

end Flow

end DocPages.Markdown.Block
