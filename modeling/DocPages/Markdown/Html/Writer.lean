import DocPages.Markdown.Inline.Code
import DocPages.Markdown.Inline.Plain
import DocPages.Markdown.Key
import DocPages.Markdown.Url

/-!
The markup of a page while it is written: the text written so far, and what has been noted about the
parts at hand. Parts whose markup is needed at a later place are written into a buffer of their own.
-/

namespace DocPages.Markdown.Html

/-- What a label stands for. -/
structure Target where
  key : List Char
  url : List Char
  title : Option (List Char)
  deriving DecidableEq, Inhabited

/-- A link, an image or a call of a note that has been entered: what its text shows, the slots that
name what it refers to, and the address and title that it has of its own. -/
structure Medium where
  image : Bool
  shown : List Char
  name : List Slot
  target : Option Target
  deriving Inhabited

/-- A block of code that has been entered: the number of its fences, if it has fences, and whether
there has been a line of code. -/
structure CodeBlock where
  fences : Option Nat
  seen : Bool
  deriving Inhabited

/-- A table that has been entered: its columns, the number of the cell at hand, and whether its head
is being written. -/
structure Table where
  columns : List Align
  cell : Nat
  inHead : Bool
  deriving Inhabited

/-- The state of writing. The buffers are given innermost one first, each with its last character
first. `tight` tells of each container whether paragraphs stand bare in it, and `slurp` that the
next line break is to be left out. `firstItem` says that a list has been entered and no item of it
yet. -/
structure Writer where
  lineBreak : List Char
  targets : List Target
  buffers : List (List Char)
  tight : List Bool
  slurp : Bool
  inAlt : Bool
  inCode : Bool
  firstItem : Bool
  media : List Medium
  code : CodeBlock
  table : Option Table
  underlined : List Char
  depth : Nat
  openNotes : List (List Char)
  notes : List (List Char × List Char)
  calls : List (List Char × Nat)
  deriving Inhabited

namespace Writer

/-- Nothing has been written. -/
def start (lineBreak : List Char) (targets : List Target) : Writer :=
  ⟨lineBreak, targets, [[]], [], false, false, false, false, [], ⟨none, false⟩, none, [], 0, [], [],
    []⟩

/-- Writes characters. -/
def write (w : Writer) (cs : List Char) : Writer :=
  match w.buffers with
  | b :: rest => { w with buffers := (cs.reverse ++ b) :: rest }
  | [] => { w with buffers := [cs.reverse] }

/-- Writes a string. -/
def put (w : Writer) (s : String) : Writer := w.write s.toList

/-- Writes a string, but not into the text that an image shows in its place. -/
def putTag (w : Writer) (s : String) : Writer := if w.inAlt then w else w.put s

/-- Writes text. -/
def text (w : Writer) (cs : List Char) : Writer := w.write (Url.encode cs)

/-- Starts a new line. -/
def newLine (w : Writer) : Writer := w.write w.lineBreak

/-- Starts a new line, unless at the start of one or of a buffer. -/
def freshLine (w : Writer) : Writer :=
  match w.buffers with
  | (c :: _) :: _ => if Text.isLineBreak c then w else w.newLine
  | _ => w

/-- Starts a new line and writes a string. -/
def line (w : Writer) (s : String) : Writer := w.freshLine.put s

/-- Starts a buffer. -/
def buffer (w : Writer) : Writer := { w with buffers := [] :: w.buffers }

/-- What has been written into the innermost buffer. -/
def buffered (w : Writer) : List Char := (w.buffers.headD []).reverse

/-- Goes back to the buffer around the innermost one. -/
def unbuffer (w : Writer) : Writer := { w with buffers := w.buffers.drop 1 }

/-- Whether paragraphs stand bare here. -/
def isTight (w : Writer) : Bool := w.tight.headD false

/-- Enters a container. -/
def enterContainer (w : Writer) (tight : Bool) : Writer := { w with tight := tight :: w.tight }

/-- Leaves a container. -/
def leaveContainer (w : Writer) : Writer := { w with tight := w.tight.drop 1 }

/-! ## Line breaks -/

/-- A line break of the page. -/
def lineEnding (w : Writer) (slots : List Slot) : Writer :=
  if w.inCode then w.write [' ']
  else if w.slurp then { w with slurp := false }
  else w.text (Slot.text slots)

/-! ## Blocks of code -/

/-- Enters a block of code or a formula. The tag stays open up to the end of the first fence. -/
def enterCode (w : Writer) (fenced formula : Bool) : Writer :=
  let w := w.line "<pre><code"
  let w := if formula then w.put " class=\"language-math math-display\"" else w
  { if fenced then w else w.put ">" with code := ⟨if fenced then some 0 else none, false⟩ }

/-- Leaves a fence. -/
def exitFence (w : Writer) : Writer :=
  let fences := w.code.fences.getD 0
  let w := if fences == 0 then { w.put ">" with slurp := true } else w
  { w with code := { w.code with fences := some (fences + 1) } }

/-- Leaves a block of code. `bare` says that nothing stands behind its opening fence. Inside a
container a block that is not closed has a line break at its end. -/
def exitCode (w : Writer) (bare : Bool) : Writer :=
  let w := if w.code.fences == some 1 && !w.tight.isEmpty && !bare then w.newLine else w
  let w := (if w.code.seen then w.freshLine else w).put "</code></pre>"
  let w := if w.code.fences.any fun n => n < 2 then w.freshLine else w
  { w with code := ⟨none, false⟩, slurp := false }

/-! ## Code in a text -/

/-- Leaves code in a text. -/
def exitCodeText (w : Writer) : Writer :=
  let code := Inline.shownCode w.table.isSome w.buffered
  ({ w.unbuffer with inCode := false } : Writer).write code |>.putTag "</code>"

/-! ## Addresses -/

/-- What an address begins with if it is left out. -/
def schemeText : Scheme → String
  | .written => ""
  | .mail => "mailto:"
  | .web => "http://"

/-- An address that is a link by itself. A free one is no link inside a link, and none is one in the
text that an image shows. -/
def address (w : Writer) (scheme : Scheme) (free : Bool) (cs : List Char) : Writer :=
  if w.inAlt || (free && w.media.any fun m => !m.image) then w.text cs
  else
    let url := Url.safe Url.linkSchemes ((schemeText scheme).toList ++ cs)
    (((w.put "<a href=\"").write url).put "\">").text cs |>.put "</a>"

/-! ## Links and images -/

/-- Changes the innermost medium. -/
def noteMedium (w : Writer) (f : Medium → Medium) : Writer :=
  match w.media with
  | m :: rest => { w with media := f m :: rest }
  | [] => w

/-- Changes the target of the innermost medium. -/
def noteTarget (w : Writer) (f : Target → Target) : Writer :=
  w.noteMedium fun m => { m with target := m.target.map f }

/-- Enters a link, an image or a call. -/
def enterMedium (w : Writer) (image : Bool) : Writer :=
  { w with media := ⟨image, [], [], none⟩ :: w.media, inAlt := w.inAlt || image }

/-- Leaves the innermost medium, which is given with the rest. -/
def popMedium (w : Writer) : Medium × Writer :=
  let outer := w.media.drop 1
  (w.media.headD default, { w with media := outer, inAlt := outer.any Medium.image })

/-- A title as an attribute. -/
def titleText (title : Option (List Char)) : List Char :=
  match title with
  | some title => " title=\"".toList ++ Url.encode title ++ ['\x22']
  | none => []

/-- Leaves a link or an image. -/
def exitMedium (w : Writer) : Writer :=
  let (m, w) := w.popMedium
  let target : Target :=
    match m.target with
    | some target => target
    | none => (w.targets.find? fun t => t.key == labelKey (Slot.spelled m.name)).getD default
  if w.inAlt then w.write m.shown
  else if m.image then
    let url := Url.safe Url.imageSchemes target.url
    let w := (((w.put "<img src=\"").write url).put "\" alt=\"").write m.shown
    ((w.put "\"").write (titleText target.title)).put " />"
  else
    let url := Url.safe Url.linkSchemes target.url
    let w := ((w.put "<a href=\"").write url).put "\""
    ((w.write (titleText target.title)).put ">").write m.shown |>.put "</a>"

/-! ## Tables -/

/-- The attribute of a cell in a column. -/
def alignText : Align → String
  | .unset => ""
  | .left => " align=\"left\""
  | .right => " align=\"right\""
  | .center => " align=\"center\""

/-- Enters a cell. One that no column is there for is left out. -/
def enterCell (w : Writer) (t : Table) : Writer :=
  match t.columns[t.cell]? with
  | some a => w.line ("<" ++ (if t.inHead then "th" else "td") ++ alignText a ++ ">")
  | none => w.buffer

/-- Leaves a cell. -/
def exitCell (w : Writer) (t : Table) : Writer :=
  let w :=
    if t.cell < t.columns.length then w.put (if t.inHead then "</th>" else "</td>") else w.unbuffer
  { w with table := some { t with cell := t.cell + 1 } }

/-- Leaves a row. Cells that it lacks are added. -/
def exitRow (w : Writer) (t : Table) : Writer :=
  let missing := (List.range t.columns.length).drop t.cell
  let w := missing.foldl
    (fun w cell =>
      let t := { t with cell := cell }
      (w.enterCell t).exitCell t)
    w
  { w.line "</tr>" with table := some { t with cell := 0 } }

end Writer

end DocPages.Markdown.Html
