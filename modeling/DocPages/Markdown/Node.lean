/-!
The tree of a parsed page. Leaves hold text, code or markup; everything else is a list of children
under a heading, a paragraph or another kind of parent.
-/

namespace DocPages.Markdown

/-- How the cells of a column are aligned. -/
inductive Align where
  | unset
  | left
  | right
  | center
  deriving DecidableEq, Inhabited

/-- The kinds of nodes with children, other than headings and paragraphs. -/
inductive Kind where
  | root
  | blockquote
  | list
  | listItem
  | emphasis
  | strong
  | strikethrough
  | link
  | footnoteDefinition
  | table
  | tableRow
  | tableCell
  deriving DecidableEq, Inhabited

/-- A node of the tree of a page. The text of code stands without its last line break. -/
inductive Node where
  | text (value : String)
  | inlineCode (value : String)
  | inlineMath (value : String)
  | math (value : String)
  | html (value : String)
  | code (lang : Option String) (info : Option String) (value : String)
  | lineBreak
  | thematicBreak
  | footnoteReference
  | image
  | heading (depth : Nat) (children : List Node)
  | paragraph (children : List Node)
  | parent (kind : Kind) (children : List Node)
  deriving Inhabited

namespace Node

/-- The children of a node, if it is of a kind that has children. -/
def children? : Node → Option (List Node)
  | .heading _ children => some children
  | .paragraph children => some children
  | .parent _ children => some children
  | _ => none

end Node

end DocPages.Markdown
