import DocPages.Markdown.Node
import DocPages.Text.Blank
import DocPages.Text.Search

/-!
The plain text of a part of a page: what a reader sees, without marks and without raw markup.
-/

namespace DocPages.Heading

open Markdown (Node)

mutual

/-- The characters that a node shows. -/
def shown : Node → List Char
  | .text value => value.toList
  | .inlineCode value => value.toList
  | .inlineMath value => value.toList
  | .lineBreak => [' ']
  | .heading _ children => shownAll children
  | .paragraph children => shownAll children
  | .parent _ children => shownAll children
  | _ => []

/-- The characters that nodes in a row show. -/
def shownAll : List Node → List Char
  | [] => []
  | node :: rest => shown node ++ shownAll rest

end

/-- The text that nodes in a row show, without the white space around it. -/
def plainText (nodes : List Node) : String := String.ofList (Text.trim (shownAll nodes))

/-- Code and raw markup, which count for no text of a section. -/
def isSilent : Node → Bool
  | .code .. => true
  | .html _ => true
  | _ => false

mutual

/-- The lines of text of a block: a paragraph is one, and a container has those of its children. -/
def blockText : Node → List Char
  | .heading _ children => Text.trim (Text.joinWith ['\n'] (blockTexts children))
  | .paragraph children => Text.trim (shownAll children)
  | .parent _ children => Text.trim (Text.joinWith ['\n'] (blockTexts children))
  | node => Text.trim (shown node)

/-- The texts of the blocks in a row that have any. -/
def blockTexts : List Node → List (List Char)
  | [] => []
  | node :: rest =>
    if isSilent node then blockTexts rest
    else
      match blockText node with
      | [] => blockTexts rest
      | text => text :: blockTexts rest

end

end DocPages.Heading
