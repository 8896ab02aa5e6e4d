import DocPages.Markdown.Reading

/-!
The tree of a page, made from its events: each group that is entered becomes a branch, and its node
stands among those of the branch around it when it is left. Definitions have no node, and what an
image or the call of a note holds has none either.
-/

namespace DocPages.Markdown

/-- A branch of the tree while its events come: its group, its nodes, last one first, the code or
markup in it, last character first, the language of the code and what stands behind that, the number
of fences, and the depth of a heading. -/
structure Branch where
  group : Option Group
  nodes : List Node
  lines : List Char
  lang : Option String
  info : Option String
  fences : Nat
  depth : Nat
  deriving Inhabited

namespace Branch

/-- The start of a branch. -/
def start (group : Option Group) : Branch := ⟨group, [], [], none, none, 0, 1⟩

/-- Adds a node. Text that stands behind text is one node with it. -/
def add (b : Branch) (node : Node) : Branch :=
  match node, b.nodes with
  | .text more, .text value :: rest => { b with nodes := .text (value ++ more) :: rest }
  | node, nodes => { b with nodes := node :: nodes }

/-- Adds characters of a text. -/
def addText (b : Branch) (cs : List Char) : Branch := b.add (.text (String.ofList cs))

/-- Adds characters of code or markup. -/
def addLine (b : Branch) (cs : List Char) : Branch := { b with lines := cs.reverse ++ b.lines }

/-- The code or markup of a branch. -/
def body (b : Branch) : List Char := b.lines.reverse

/-- The nodes of a branch in order. -/
def children (b : Branch) : List Node := b.nodes.reverse

/-- Whether a line break is a part of the text of a branch. -/
def holdsText (b : Branch) : Bool :=
  [.paragraph, .heading, .underlinedText, .emphasis, .strong, .strike, .labelText].any fun g =>
    b.group == some g

/-- Whether a line break is a part of the code or the markup of a branch. In front of the end of its
first fence there is no code. -/
def holdsLines (b : Branch) : Bool :=
  ([.indented, .markup, .code, .inlineFormula, .tag].any fun g => b.group == some g) ||
    ([.fenced, .formula].any fun g => b.group == some g && 0 < b.fences)

end Branch

/-! ## Code -/

/-- A text without the line break that it starts with. -/
def cutFirstBreak : List Char → List Char
  | '\r' :: '\n' :: cs => cs
  | c :: cs => if Text.isLineBreak c then cs else c :: cs
  | [] => []

/-- A text without the line break that it ends with. -/
def cutLastBreak (cs : List Char) : List Char :=
  match cs.reverse with
  | '\n' :: '\r' :: rest => rest.reverse
  | c :: rest => if Text.isLineBreak c then rest.reverse else cs
  | [] => []

/-- What code in a text shows. -/
def shownCode (inTable : Bool) (code : List Char) : String :=
  String.ofList (Inline.shownCode inTable code)

/-! ## Nodes -/

/-- The node of a branch that is left, if its group has one. -/
def Branch.node? (inTable : Bool) (b : Branch) : Group → Option Node
  | .quote => some (.parent .blockquote b.children)
  | .item => some (.parent .listItem b.children)
  | .note => some (.parent .footnoteDefinition b.children)
  | .list _ => some (.parent .list b.children)
  | .paragraph => some (.paragraph b.children)
  | .heading => some (.heading b.depth b.children)
  | .underlined => some (.heading b.depth b.children)
  | .indented => some (.code none none (String.ofList (cutLastBreak b.body)))
  | .fenced => some (.code b.lang b.info (String.ofList (cutLastBreak (cutFirstBreak b.body))))
  | .formula => some (.math (String.ofList (cutLastBreak (cutFirstBreak b.body))))
  | .markup => some (.html (String.ofList b.body))
  | .tag => some (.html (String.ofList b.body))
  | .table => some (.parent .table b.children)
  | .row => some (.parent .tableRow b.children)
  | .cell => some (.parent .tableCell b.children)
  | .emphasis => some (.parent .emphasis b.children)
  | .strong => some (.parent .strong b.children)
  | .strike => some (.parent .strikethrough b.children)
  | .link => some (.parent .link b.children)
  | .image => some .image
  | .call => some .footnoteReference
  | .code => some (.inlineCode (shownCode inTable b.body))
  | .inlineFormula => some (.inlineMath (shownCode inTable b.body))
  | _ => none

/-- Takes in a branch without a node of its own: its nodes, and what a fence says. -/
def Branch.takeIn (b inner : Branch) (h : Group) : Branch :=
  let b := inner.children.foldl Branch.add b
  if h == .fence then
    { b with
      fences := b.fences + 1
      lang := b.lang.or inner.lang
      info := b.info.or inner.info }
  else b

/-! ## Branches -/

/-- The branches of a page while its events come, innermost one first, and whether the last event
was a hard line break, to which the next line break belongs. -/
structure Growth where
  branches : List Branch
  hard : Bool
  deriving Inhabited

namespace Growth

/-- Changes the innermost branch. -/
def top (g : Growth) (f : Branch → Branch) : Growth :=
  match g.branches with
  | b :: rest => { g with branches := f b :: rest }
  | [] => g

/-- Whether one of the branches is the group `h`. -/
def isIn (g : Growth) (h : Group) : Bool := g.branches.any fun b => b.group == some h

/-- Leaves a branch. A branch that has no node gives its nodes to the branch around it. -/
def leave (g : Growth) (b : Branch) (h : Group) : Growth :=
  match b.node? (g.isIn .table) h with
  | some node => g.top (·.add node)
  | none => g.top (·.takeIn b h)

/-- A line break of the page. -/
def lineEnding (g : Growth) (slots : List Slot) : Growth :=
  if g.hard then { g with hard := false }
  else
    g.top fun b =>
      if b.holdsText then b.addText (Slot.text slots)
      else if b.holdsLines then b.addLine (Slot.text slots)
      else b

/-- What a plain text says. -/
def plain (slots : List Slot) : String := String.ofList (Inline.plainText slots)

/-- The depth of a heading with a line below it. -/
def underlineDepth (slots : List Slot) : Nat :=
  if ((slots.dropWhile Slot.isBlank).head?.map Slot.char) == some '-' then 2 else 1

/-- Takes in a leaf. -/
def addLeaf (g : Growth) (leaf : Leaf) (slots : List Slot) : Growth :=
  match leaf with
  | .lineEnding => g.lineEnding slots
  | .rule => g.top (·.add .thematicBreak)
  | .underline => g.top fun b => { b with depth := underlineDepth slots }
  | .headingMark => g.top fun b => { b with depth := slots.length }
  | .info => g.top fun b => { b with lang := some (plain slots) }
  | .moreInfo => g.top fun b => { b with info := some (plain slots) }
  | .codeLine => g.top (·.addLine (Slot.text slots))
  | .markupLine => g.top (·.addLine (Slot.text slots))
  | .codeText => g.top (·.addLine (Slot.text slots))
  | .data => g.top (·.addText (Slot.text slots))
  | .escaped => g.top (·.addText (Slot.text slots))
  | .characterReference => g.top (·.addText (Inline.decoded slots))
  | .hardBreak => { g.top (·.add .lineBreak) with hard := true }
  | .address _ free =>
    let shown := Slot.text slots
    if free && g.isIn .link then g.top (·.addText shown)
    else g.top (·.add (.parent .link [.text (String.ofList shown)]))
  | _ => g

/-- Takes in an event. -/
def add (g : Growth) : Event → Growth
  | .enter h _ => { g with branches := .start (some h) :: g.branches }
  | .exit h _ =>
    match g.branches with
    | b :: rest => ({ g with branches := rest } : Growth).leave b h
    | [] => g
  | .leaf l slots => g.addLeaf l slots

end Growth

/-- The tree that events give. -/
def Node.ofEvents (events : List Event) : Node :=
  let g := events.foldl Growth.add ⟨[.start none], false⟩
  .parent .root ((g.branches.getLast?.map Branch.children).getD [])

/-- The tree that a text spells. -/
def Node.read (flavor : Flavor) (text : List Char) : Node := Node.ofEvents (Event.read flavor text)

end DocPages.Markdown
