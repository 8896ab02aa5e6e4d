import DocPages.Markdown.Block.Pending
import DocPages.Markdown.TagEnd
import DocPages.Text.Ranges
import DocPages.Text.Search

/-!
Blocks of raw markup. What the block starts with decides where it ends: a comment, an instruction, a
declaration, a literal section and a tag whose inside is raw end with the line that holds their end,
and every other tag ends in front of a blank line.
-/

namespace DocPages.Markdown.Block

/-! ## Names -/

/-- The tags whose inside is raw. -/
def rawTags : List String := ["pre", "script", "style", "textarea"]

/-- The tags that start a block of markup wherever they start a line. -/
def blockTags : List String :=
  ["address", "article", "aside", "base", "basefont", "blockquote", "body", "caption", "center",
    "col", "colgroup", "dd", "details", "dialog", "dir", "div", "dl", "dt", "fieldset",
    "figcaption", "figure", "footer", "form", "frame", "frameset", "h1", "h2", "h3", "h4", "h5",
    "h6", "head", "header", "hr", "html", "iframe", "legend", "li", "link", "main", "menu",
    "menuitem", "nav", "noframes", "ol", "optgroup", "option", "p", "param", "search", "section",
    "summary", "table", "tbody", "td", "tfoot", "th", "thead", "title", "tr", "track", "ul"]

/-- Whether `name`, whatever the case of its letters, is in a list of tag names. -/
def isTagIn (names : List String) (name : List Char) : Bool :=
  names.any fun n => n.toList == Text.asciiLower name

/-- What stands behind `<!` in front of a literal section. -/
def literalOpening : List Char := ['[', 'C', 'D', 'A', 'T', 'A', '[']

/-! ## Where a block ends -/

/-- Whether a line holds the end of a literal section. Brackets count in pairs: `]]]>` ends
nothing. -/
def endsLiteral : List Char → Bool
  | [] => false
  | ']' :: ']' :: '>' :: _ => true
  | ']' :: ']' :: cs => endsLiteral cs
  | _ :: cs => endsLiteral cs

/-- Whether the end of a tag whose inside is raw stands in front. -/
def startsRawEnd (cs : List Char) : Bool :=
  rawTags.any fun name =>
    Text.startsWith ('<' :: '/' :: (name.toList ++ ['>'])) (Text.asciiLower cs)

/-- Whether a line holds the end of a tag whose inside is raw. -/
def endsRaw : List Char → Bool
  | [] => false
  | c :: cs => startsRawEnd ((c :: cs).take 11) || endsRaw cs

/-- Whether a line, given without its line break, holds the end of a block. -/
def MarkupEnd.isIn (close : MarkupEnd) (line : List Char) : Bool :=
  match close with
  | .comment => Text.contains ['-', '-', '>'] line
  | .instruction => Text.contains ['?', '>'] line
  | .declaration => line.contains '>'
  | .literal => endsLiteral line
  | .rawTag => endsRaw line
  | .blankLine => false

/-- The end of a line of markup. On the last line the block ends. -/
def endMarkupLine (close : MarkupEnd) (closed : Bool) : Scan Pending := do
  match ← Scan.peek, closed with
  | some _, false => return .markup close (← Scan.takeEnding)
  | _, _ =>
    Scan.exit .markup
    Scan.finish
    return .nothing

/-! ## What starts a block -/

/-- Where a tag stands at the end of the slots; nothing if it is broken, or if there is more than
white space behind it. -/
def tagAfter? (place : TagPlace) : List Slot → Option TagPlace
  | [] => some place
  | s :: rest =>
    if place == .closed then if s.isBlank then tagAfter? .closed rest else none
    else
      match place.next? true s.char with
      | some next => tagAfter? next rest
      | none => none

/-- A tag at the start of a block, from its name on. -/
def markupTag (start : List Slot) : Scan MarkupEnd := do
  let name ← Scan.takeWhile fun s => isTagNameChar s.char
  let next ← Scan.peek
  let closing := (← Scan.look).bar
  Scan.note fun r => { r with bar := false }
  if next.any fun c => !(isTagSpace c || c == '/' || c == '>') then Scan.fail
  let slash := next == some '/'
  let word := Slot.text (start ++ name)
  if !slash && !closing && isTagIn rawTags word then return .rawTag
  else if isTagIn blockTags word then
    if slash then
      let _ ← Scan.take 1
      if (← Scan.peek) == some '>' then return .blankLine else Scan.fail
    else return .blankLine
  else
    let r ← Scan.look
    if r.interrupt && !r.lazy then Scan.fail
    let rest ← Scan.takeWhile fun s => !s.isBreak
    match tagAfter? (if closing then .space else .between) rest with
    | none => Scan.fail
    | some place =>
      let _ ← Scan.peek
      if place == .closed then return .blankLine else Scan.fail

/-- What stands behind `<!`. What follows a leftover count of cells in the opening of a literal
section is compared with the rest of that opening. -/
def markupDeclaration : Scan (MarkupEnd × List Char) := do
  match ← Scan.peek with
  | none => Scan.fail
  | some c =>
    let _ ← Scan.take 1
    if c == '-' then
      if (← Scan.peek) == some '-' then
        let _ ← Scan.take 1
        return (.comment, ['-', '-'])
      else Scan.fail
    else if c == '[' then
      let r ← Scan.look
      let wanted := literalOpening.drop (r.size + 1)
      let met := (r.rest.zip wanted).takeWhile fun p => p.1.char == p.2
      let _ ← Scan.take met.length
      let _ ← if met.length < wanted.length then Scan.peek else Scan.done none
      Scan.note fun r => { r with size := 0 }
      if met.length < wanted.length || wanted.isEmpty then Scan.fail
      return (.literal, [])
    else if c.isAlpha then return (.declaration, [])
    else Scan.fail

/-- What starts a block of markup behind its `<`: the end of the block, and what of that end has
been met. -/
def markupStart : Scan (MarkupEnd × List Char) := do
  match ← Scan.peek with
  | none => Scan.fail
  | some c =>
    if c == '!' then
      let _ ← Scan.take 1
      markupDeclaration
    else if c == '?' then
      let _ ← Scan.take 1
      return (.instruction, ['?'])
    else if c == '/' then
      let _ ← Scan.take 1
      let start ← Scan.peek
      Scan.note fun r => { r with bar := start.any Char.isAlpha }
      if start.any Char.isAlpha then return (← markupTag (← Scan.take 1), []) else Scan.fail
    else if c.isAlpha then return (← markupTag [], [])
    else Scan.fail

/-- A block of raw markup. -/
def markup : Scan Pending := do
  Scan.enter .markup
  Scan.emitLeaf .markupLine (← Scan.indent)
  if (← Scan.peek) != some '<' then Scan.fail
  let line := (← Scan.look).rest.takeWhile fun s => !s.isBreak
  let _ ← Scan.take 1
  let (close, met) ← markupStart
  Scan.note fun r => { r with concrete := true }
  let rest ← Scan.restOfLine
  Scan.emitLeaf .markupLine line
  endMarkupLine close (close.isIn (met ++ Slot.text rest))

/-- Goes on with a block of raw markup. -/
def resumeMarkup (close : MarkupEnd) (ending : List Slot) : Scan (Option Pending) := do
  let r ← Scan.look
  let blank ←
    if close == .blankLine then
      Scan.orElse
        (do
          let _ ← Scan.takeWhile Slot.isBlank
          Scan.needEnd
          return true)
        (Scan.done false)
    else Scan.done false
  if blank || r.lazy then
    Scan.note fun later => Scan.back r later
    Scan.exitAt .markup ending
    Scan.finish
    Scan.emitLeaf .lineEnding ending
    return none
  else
    Scan.emitLeaf .lineEnding ending
    let line ← Scan.restOfLine
    Scan.emitLeaf .markupLine line
    return some (← endMarkupLine close (close.isIn (Slot.text line)))

end DocPages.Markdown.Block
