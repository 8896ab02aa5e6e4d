import DocPages.Markdown.Block.Markup
import DocPages.Markdown.Html.Loose
import DocPages.Markdown.Html.Note
import DocPages.Markdown.Reading

/-!
The markup of a page, written event by event. Blocks start on lines of their own, and the line
breaks of the page stay between them. A paragraph of a tight list stands bare in its item. The
definitions of labels are collected first, as a label may be used in front of its definition.
-/

namespace DocPages.Markdown.Html

/-! ## Raw markup -/

/-- The tags that are not let through. -/
def barredTags : List String :=
  ["iframe", "noembed", "noframes", "plaintext", "script", "style", "title", "textarea", "xmp"]

/-- Whether a barred tag stands behind a `<`. -/
def isBarred (cs : List Char) : Bool :=
  let cs := if cs.head? == some '/' then cs.drop 1 else cs
  let name := cs.takeWhile Char.isAlphanum
  Block.isTagIn barredTags name &&
    (cs.drop name.length).head?.all fun c =>
      Text.isSpaceOrTab c || Text.isLineBreak c || c == Char.ofNat 0x0C || c == '/' || c == '>'

/-- Raw markup with barred tags written as text. -/
def filterTags : List Char → List Char
  | [] => []
  | c :: cs => (if c == '<' && isBarred cs then ['&', 'l', 't', ';'] else [c]) ++ filterTags cs

/-- Raw markup as it is written. -/
def rawChars (markup : List Char) : List Char :=
  (filterTags markup).map fun c => if c == '\x00' then Char.ofNat 0xFFFD else c

/-! ## Targets -/

/-- The target that a definition gives its label, from the inside of the definition on. -/
def targetIn : List Event → Target
  | [] => default
  | e :: rest =>
    match e with
    | .exit .definition _ => default
    | .leaf .definitionLabel slots =>
      { targetIn rest with key := labelKey (Slot.spelled slots) }
    | .leaf .destination slots => { targetIn rest with url := Inline.plainText slots }
    | .leaf .title slots => { targetIn rest with title := some (Inline.plainText slots) }
    | _ => targetIn rest

/-- The targets that the definitions of a page give, in order. The first one of a label counts. -/
def targets : List Event → List Target
  | [] => []
  | .enter .definition _ :: rest => targetIn rest :: targets rest
  | _ :: rest => targets rest

/-! ## Groups -/

/-- How the columns of the table that has been entered are aligned. -/
def columnsOf : List Event → List Align
  | [] => []
  | .leaf (.columns aligns) _ :: _ => aligns
  | _ :: rest => columnsOf rest

/-- The tag of a list without its end. -/
def listTag (ordered : Bool) : String := if ordered then "ol" else "ul"

/-- Changes a table. -/
def inTable (w : Writer) (f : Writer → Table → Writer) : Writer :=
  match w.table with
  | some t => f w t
  | none => w

/-- Enters a group, given the events in front, last one first, and those behind. -/
def enterGroup (w : Writer) (front rest : List Event) : Group → Writer
  | .quote => (w.enterContainer false).line "<blockquote>"
  | .note => w.enterContainer false
  | .noteMark => w.buffer
  | .list ordered =>
    let loose := isLooseList (.list ordered) front 1 rest
    { (w.enterContainer !loose).line ("<" ++ listTag ordered) with firstItem := true }
  | .paragraph => if w.isTight then w else w.line "<p>"
  | .underlinedText => w.buffer
  | .indented => w.enterCode false false
  | .fenced => w.enterCode true false
  | .formula => w.enterCode true true
  | .markup => w.freshLine
  | .table => { w.line "<table>" with table := some ⟨columnsOf rest, 0, true⟩ }
  | .tableHead => w.line "<thead>"
  | .tableBody => w.put "<tbody>"
  | .row => w.line "<tr>"
  | .cell => inTable w Writer.enterCell
  | .emphasis => w.putTag "<em>"
  | .strong => w.putTag "<strong>"
  | .strike => w.putTag "<del>"
  | .link => w.enterMedium false
  | .image => w.enterMedium true
  | .call => w.enterMedium false
  | .label => w.buffer
  | .resource => w.buffer.noteMedium fun m => { m with target := some default }
  | .referral => w.buffer
  | .code => { (w.putTag "<code>").buffer with inCode := true }
  | .inlineFormula =>
    { (w.putTag "<code class=\"language-math math-inline\">").buffer with inCode := true }
  | _ => w

/-- What an item may end in without a mark of it in the markup. -/
def itemTail : Event.Passing :=
  ⟨[.blankLine, .lineEnding, .blank], [.quoteMark, .definition, .note]⟩

/-- Leaves an item, given the events in front, last one first. An item that is nothing but its mark,
or that ends in a bare paragraph, ends on the same line. -/
def exitItem (w : Writer) (front : List Event) : Writer :=
  let bare :=
    match Event.passBack itemTail front with
    | e :: _ => (w.isTight && e.isOf .paragraph) || e.isOf .itemMark
    | [] => false
  { (if bare then w else w.freshLine) with slurp := false }.put "</li>"

/-- Leaves a group, given the events in front, last one first. -/
def exitGroup (w : Writer) (front : List Event) : Group → Writer
  | .quote => { w.leaveContainer.line "</blockquote>" with slurp := false }
  | .item => exitItem w front
  | .note => w.exitNote
  | .noteMark => w.unbuffer.buffer
  | .list ordered => w.leaveContainer.line ("</" ++ listTag ordered ++ ">")
  | .paragraph => if w.isTight then { w with slurp := true } else w.put "</p>"
  | .heading => w.put ("</h" ++ toString w.depth ++ ">")
  | .underlinedText => { w.unbuffer with underlined := w.buffered, slurp := true }
  | .fence => w.exitFence
  | .indented => w.exitCode false
  | .fenced => w.exitCode (front.head?.any fun e => e.isOf .fence)
  | .formula => w.exitCode (front.head?.any fun e => e.isOf .fence)
  | .table => { w with table := none }.line "</table>"
  | .tableHead =>
    inTable (w.line "</thead>") fun w t => { w with table := some { t with inHead := false } }
  | .tableBody => w.line "</tbody>"
  | .row => inTable w Writer.exitRow
  | .cell => inTable w Writer.exitCell
  | .emphasis => w.putTag "</em>"
  | .strong => w.putTag "</strong>"
  | .strike => w.putTag "</del>"
  | .link => w.exitMedium
  | .image => w.exitMedium
  | .call => w.exitCall
  | .label => w.unbuffer.noteMedium fun m => { m with shown := w.buffered }
  | .resource => w.unbuffer
  | .referral => w.unbuffer
  | .code => w.exitCodeText
  | .inlineFormula => w.exitCodeText
  | _ => w

/-! ## Leaves -/

/-- Writes the number of an item, which counts for the first item of a list. -/
def writeNumber (w : Writer) (slots : List Slot) : Writer :=
  let n := Text.digitsValue 10 (Slot.text slots)
  if w.firstItem && n != 1 then w.put (" start=\"" ++ toString n ++ "\"") else w

/-- Writes the opening of an item. In front of the first one the tag of the list is still open. -/
def writeBullet (w : Writer) : Writer :=
  let w := if w.firstItem then w.put ">" else w
  { w.line "<li>" with firstItem := false }

/-- Writes a heading with a line below it. -/
def writeUnderlined (w : Writer) (slots : List Slot) : Writer :=
  let dashes := ((slots.dropWhile Slot.isBlank).head?.map Slot.char) == some '-'
  let tag := if dashes then "h2>" else "h1>"
  (((w.line ("<" ++ tag)).write w.underlined).put ("</" ++ tag))

/-- Writes the opening of a heading. -/
def writeHeadingMark (w : Writer) (slots : List Slot) : Writer :=
  { w.line ("<h" ++ toString slots.length ++ ">") with depth := slots.length }

/-- Writes the box of a task. -/
def writeBox (w : Writer) (checked : Bool) : Writer :=
  let state := if checked then "checked=\"\" " else ""
  w.putTag ("<input type=\"checkbox\" disabled=\"\" " ++ state ++ "/>")

/-- Writes a leaf; `last` says that no event comes behind it. -/
def writeLeaf (w : Writer) (last : Bool) (leaf : Leaf) (slots : List Slot) : Writer :=
  match leaf with
  | .lineEnding => w.lineEnding slots
  | .blankLine =>
    let w := { w with slurp := false }
    if last then w.freshLine else w
  | .rule => w.line "<hr />"
  | .underline => writeUnderlined w slots
  | .headingMark => writeHeadingMark w slots
  | .info =>
    ((w.put " class=\"language-").text (Inline.plainText slots)).put "\""
  | .codeLine => { w.text (Slot.padded slots) with code := { w.code with seen := true } }
  | .markupLine => w.write (rawChars (Slot.text slots))
  | .bullet => writeBullet w
  | .number => writeNumber w slots
  | .noteLabel => { w with openNotes := labelKey (Slot.text slots) :: w.openNotes }
  | .destination => w.noteTarget fun t => { t with url := Inline.plainText slots }
  | .title => w.noteTarget fun t => { t with title := some (Inline.plainText slots) }
  | .reference => w.noteMedium fun m => { m with name := slots }
  | .data => w.text (Slot.text slots)
  | .escaped => w.text (Slot.text slots)
  | .characterReference => w.text (Inline.decoded slots)
  | .hardBreak => w.putTag "<br />"
  | .address scheme free => w.address scheme free (Slot.text slots)
  | .box checked => writeBox w checked
  | .codeText => w.text (Slot.text slots)
  | _ => w

/-! ## All events -/

/-- Writes events, given those in front, last one first. Definitions are left out, and a line break
behind them, too; the flag says that one has been entered. -/
def writeAll (inDefinition : Bool) (w : Writer) (front : List Event) : List Event → Writer
  | [] => w
  | e :: rest =>
    if inDefinition then
      match e with
      | .exit .definition _ => writeAll false { w with slurp := true } (e :: front) rest
      | _ => writeAll true w (e :: front) rest
    else
      match e with
      | .enter .definition _ => writeAll true w (e :: front) rest
      | .enter g _ => writeAll false (enterGroup w (e :: front) rest g) (e :: front) rest
      | .exit g _ => writeAll false (exitGroup w front g) (e :: front) rest
      | .leaf l slots =>
        writeAll false (writeLeaf w rest.isEmpty l slots) (e :: front) rest

/-- The first line break of a page. -/
def pageBreak (events : List Event) : List Char :=
  match events.find? Event.isLineBreak with
  | some (.leaf _ slots) => Slot.text slots
  | _ => ['\n']

/-- The markup of a page given by its events. -/
def ofEvents (events : List Event) : List Char :=
  let w := writeAll false (.start (pageBreak events) (targets events)) [] events
  w.writeNotes.buffered

/-- The markup of the page that a text spells. -/
def ofText (flavor : Flavor) (text : List Char) : List Char := ofEvents (Event.read flavor text)

end DocPages.Markdown.Html
