import DocPages.Markdown.Block.List
import DocPages.Markdown.Block.Page
import DocPages.Markdown.Block.Paragraph
import DocPages.Markdown.Inline.Running

/-!
All events of a page: its blocks are read first, with their lists, paragraphs, headings and tables,
and then the running text inside them, for which all labels have to be known.
-/

namespace DocPages.Markdown

/-- Whether a leaf is a line of running text, and whether it goes on with the lines before. -/
def textFlag? : Leaf → Option Bool
  | .text more => some more
  | _ => none

/-- The events of the page that a text spells. -/
def Event.read (flavor : Flavor) (text : List Char) : List Event :=
  let page := Block.Page.ofSlots flavor (Slot.read text)
  let blocks := Block.withParagraphs (Block.withLists page.allEvents)
  let known : Inline.Known := ⟨flavor, Block.definedLabels blocks, page.notes⟩
  Event.spread textFlag? (Inline.textEvents known) [] []
    (Block.withTables .outside (Block.withUnderlines blocks))

end DocPages.Markdown
