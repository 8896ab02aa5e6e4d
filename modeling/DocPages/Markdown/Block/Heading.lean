import DocPages.Markdown.Block.Scan

/-!
The blocks of a single line: headings behind number signs, underlines, and rules.
-/

namespace DocPages.Markdown.Block

/-! ## Headings behind number signs -/

/-- The most number signs in front of a heading. -/
def headingSigns : Nat := 6

/-- Each slot of a heading, with whether it belongs to the text: number signs at the start of a word
do not. The flag says that a word may start. -/
def headingText : Bool → List Slot → List (Slot × Bool)
  | _, [] => []
  | start, s :: rest =>
    if s.isBlank then (s, false) :: headingText true rest
    else if start && s.char == '#' then (s, false) :: headingText true rest
    else (s, true) :: headingText false rest

/-- The slots from the first to the last one that is marked. -/
def markedStretch (slots : List (Slot × Bool)) : List Slot :=
  let front := slots.dropWhile fun s => !s.2
  ((front.reverse.dropWhile fun s => !s.2).reverse).map (·.1)

/-- A heading: up to six number signs and white space, or the end of the line. -/
def heading : Scan Unit := do
  Scan.enter .heading
  let _ ← Scan.indent
  if (← Scan.peek) != some '#' then Scan.fail
  let r ← Scan.look
  let signs ← Scan.takeUpTo (headingSigns - r.size) fun s => s.char == '#'
  let next ← Scan.peek
  Scan.note fun r => { r with size := 0 }
  match next with
  | some c =>
    if !Text.isSpaceOrTab c && c != '\n' then Scan.fail
  | none => pure ()
  Scan.emitLeaf .headingMark signs
  let rest ← Scan.restOfLine
  Scan.emitLeaf (.text false) (markedStretch (headingText true rest))
  Scan.exit .heading
  Scan.finish

/-! ## Underlines -/

/-- Whether the last block is a paragraph or an underline, so that an underline may follow. -/
def mayUnderline (events : List Event) : Bool :=
  match Event.passBack ⟨[.lineEnding, .blank], []⟩ events with
  | .leaf (.content _) _ :: _ => true
  | .leaf .underline _ :: _ => true
  | _ => false

/-- An underline: equals signs or dashes in a row, with white space around them. -/
def underline : Scan Unit := do
  let r ← Scan.look
  if r.lazy || r.pierce || !mayUnderline r.events then Scan.fail
  let _ ← Scan.indent
  match ← Scan.peek with
  | some c =>
    if c == '=' || c == '-' then
      let _ ← Scan.takeWhile fun s => s.char == c
      let _ ← Scan.peek
      let _ ← Scan.takeWhile Slot.isBlank
      Scan.needEnd
      Scan.emitLeaf .underline (r.rest.takeWhile fun s => !s.isBreak)
      Scan.finish
    else Scan.fail
  | none => Scan.fail

/-! ## Rules -/

/-- The fewest marks in a rule. -/
def ruleMarks : Nat := 3

/-- A rule: three or more stars, dashes or underscores of one kind, with white space between
them. -/
def rule : Scan Unit := do
  let r ← Scan.look
  let _ ← Scan.indent
  match ← Scan.peek with
  | some c =>
    if c == '*' || c == '-' || c == '_' then
      let slots ← Scan.takeWhile fun s => s.char == c || s.isBlank
      let marks := r.size + (slots.filter fun s => s.char == c).length
      let ended ← Scan.atEnd
      Scan.note fun r => { r with size := 0 }
      if ended && ruleMarks ≤ marks then
        Scan.emitLeaf .rule (r.rest.takeWhile fun s => !s.isBreak)
        Scan.finish
      else Scan.fail
    else Scan.fail
  | none => Scan.fail

end DocPages.Markdown.Block
