import DocPages.Compile.Traced
import DocPages.Heading.Anchors
import DocPages.Heading.Outline
import DocPages.Markdown.Html
import DocPages.Markdown.Tree
import DocPages.Options.Markdown
import DocPages.Page.Rendered

/-!
Showing the text of a page: its markup with the anchors of its headings, the headings, and the code
of its demo.
-/

namespace DocPages.Page

open Markdown (Node)

/-- What is collected from the tree of a page. -/
structure Collected where
  headers : List Header
  demo : Option Demo.Code
  anchors : List (Option String)
  deriving Inhabited

/-- Collects what a tree tells. -/
def collect (o : Options.Markdown) (root : Node) : Collected :=
  let outline := Heading.outline root
  ⟨outline.headers, Demo.find? o.demo root, outline.anchors⟩

/-- The tree of a text. -/
def tree (o : Options.Markdown) (text : String) : Node := Node.read o.flavor text.toList

/-- The markup of a page with anchors, where they are wanted and the page has headings. -/
def anchored (o : Options.Markdown) (c : Collected) (html : List Char) :
    Except CompileError (List Char) :=
  if o.headingAnchors && !c.headers.isEmpty then
    match Heading.placeAnchors c.anchors html with
    | .ok html => .ok html
    | .error a => .error (.render (Heading.ambiguityText a) 1 1)
  else .ok html

/-- Shows a text. -/
def render (o : Options.Markdown) (text : String) : Traced Rendered := do
  let c := collect o (tree o text)
  if c.demo.isSome then Traced.note (.demoFound o.demoLanguage o.demoFlag)
  let html ← Traced.answer (anchored o c (Markdown.Html.ofText o.flavor text.toList))
  return ⟨String.ofList html, c.headers, c.demo.map (·.value)⟩

end DocPages.Page
