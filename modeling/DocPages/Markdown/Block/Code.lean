import DocPages.Markdown.Block.Pending

/-!
Blocks of code: between fences, or indented. A formula that stands on lines of its own is written
between fences, too.
-/

namespace DocPages.Markdown.Block

/-! ## Between fences -/

/-- The fewest marks in a fence. -/
def Fence.fewest (mark : Char) : Nat := if mark == '$' then 2 else 3

/-- Whether `mark` may make a fence. -/
def isFenceMark (formulas : Bool) (mark : Char) : Bool :=
  mark == '\x60' || mark == '~' || (formulas && mark == '$')

/-- The end of a line inside fences. On the last line the block ends. -/
def endFenceLine (f : Fence) : Scan Pending := do
  match ← Scan.peek with
  | none =>
    Scan.exit f.group
    Scan.finish
    return .nothing
  | some _ => return .fence f (← Scan.takeEnding)

/-- What stands behind the marks of a fence: the language, and more. A mark of the fence's own kind
must not stand there, except for `~`. -/
def fenceInfo (f : Fence) : Scan Unit := do
  let clash (slots : List Slot) : Bool := f.mark != '~' && slots.any fun s => s.char == f.mark
  if f.mark != '$' then
    let info ← Scan.takeWhile fun s => !s.isBlank && !s.isBreak
    let _ ← if clash info then Scan.fail else Scan.peek
    Scan.emitLeaf .info info
    let _ ← Scan.takeWhile Slot.isBlank
  let more ← Scan.takeWhile fun s => !s.isBreak
  let _ ← if clash more then Scan.fail else Scan.peek
  Scan.emitLeaf .moreInfo more

/-- The opening of a block between fences. -/
def openFence (formulas : Bool) : Scan Pending := do
  let space ← Scan.indent
  Scan.emitLeaf .blank space
  match ← Scan.peek with
  | none => Scan.fail
  | some mark =>
    if !isFenceMark formulas mark then Scan.fail
    let r ← Scan.look
    let marks ← Scan.takeWhile fun s => s.char == mark
    let _ ← Scan.peek
    Scan.note fun r => { r with size := 0 }
    let f : Fence := ⟨mark, r.size + marks.length, (Slot.padded space).length⟩
    if f.size < Fence.fewest mark then Scan.fail
    Scan.note fun later =>
      { later with events := .enter .fence r.here :: .enter f.group r.here :: r.events }
    let _ ← Scan.takeWhile Slot.isBlank
    fenceInfo f
    Scan.exit .fence
    Scan.note fun r => { r with concrete := true }
    endFenceLine f

/-- The closing fence of a block. -/
def closeFence (f : Fence) : Scan Pending := do
  Scan.enter .fence
  let _ ← Scan.indent
  let marks ← Scan.takeWhile fun s => s.char == f.mark
  let _ ← Scan.peek
  if marks.isEmpty || marks.length < f.size then Scan.fail
  let _ ← Scan.takeWhile Slot.isBlank
  Scan.needEnd
  Scan.exit .fence
  Scan.exit f.group
  Scan.finish
  return .nothing

/-- A line between fences. White space in front of it is left out as far as the opening fence had
it. -/
def fenceLine (f : Fence) : Scan Pending := do
  Scan.emitLeaf .blank (← Scan.takeUpTo f.inset Slot.isBlank)
  Scan.emitLeaf .codeLine (← Scan.restOfLine)
  endFenceLine f

/-- Goes on with a block between fences. A line that lacks the mark of a container ends it, and is
then still to be read. -/
def resumeFence (f : Fence) (ending : List Slot) : Scan (Option Pending) := do
  if (← Scan.look).lazy then
    Scan.exitAt f.group ending
    Scan.finish
    Scan.emitLeaf .lineEnding ending
    return none
  else
    Scan.emitLeaf .lineEnding ending
    return some (← Scan.orElse (closeFence f) (fenceLine f))

/-! ## Indented -/

/-- The white space in front of indented code. -/
def codeIndent : Scan Unit := do
  let space ← Scan.takeUpTo Slot.tabStop Slot.isBlank
  if space.length < Slot.tabStop then
    let _ ← Scan.peek
    Scan.fail
  Scan.emitLeaf .blank space

/-- The text of a line of indented code. Where a container has opened on the line, or one is
missing, the code ends with the line. -/
def indentedText : Scan Pending := do
  Scan.emitLeaf .codeLine (← Scan.restOfLine)
  let r ← Scan.look
  if (← Scan.peek).isNone || r.lazy || r.pierce then
    Scan.exit .indented
    Scan.finish
    return .nothing
  else
    let ending ← Scan.takeEnding
    Scan.emitLeaf .lineEnding ending
    return .indented r.events ending []

/-- Indented code. It does not interrupt a paragraph. -/
def indented : Scan Pending := do
  if (← Scan.look).interrupt then Scan.fail
  Scan.enter .indented
  codeIndent
  indentedText

/-- A blank line behind indented code. -/
def blankInCode : Scan Unit := do
  Scan.emitLeaf .blank (← Scan.takeWhile Slot.isBlank)
  match ← Scan.peek with
  | none => Scan.fail
  | some c =>
    if c != '\n' then Scan.fail
    Scan.emitLeaf .lineEnding (← Scan.takeEnding)

/-- Meets a blank line as one between blocks. -/
def emitBlankLine (line : List Slot) : Scan Unit := do
  Scan.emitLeaf .blank (line.takeWhile Slot.isBlank)
  Scan.emitLeaf .blankLine (line.dropWhile Slot.isBlank)

/-- Meets blank lines as lines between blocks. -/
def emitBlankLines : List (List Slot) → Scan Unit
  | [] => Scan.done ()
  | line :: rest => do
    emitBlankLine line
    emitBlankLines rest

/-- Ends indented code in front of a line break, as the blank lines behind it do not belong to the
code. The line at hand is still to be read. -/
def endIndented (events : List Event) (ending : List Slot) (blank : List (List Slot)) :
    Scan (Option Pending) := do
  Scan.note fun r => { r with events := events }
  Scan.exitAt .indented ending
  Scan.finish
  Scan.emitLeaf .lineEnding ending
  emitBlankLines blank
  return none

/-- Goes on with indented code. -/
def resumeIndented (events : List Event) (ending : List Slot) (blank : List (List Slot)) :
    Scan (Option Pending) := do
  let r ← Scan.look
  let stay : Scan (Option Pending) := do
    if r.lazy || r.pierce then Scan.fail
    Scan.orElse
      (do
        codeIndent
        return some (← indentedText))
      (do
        blankInCode
        return some (.indented events ending (blank ++ [r.rest])))
  Scan.orElse stay (endIndented events ending blank)

end DocPages.Markdown.Block
