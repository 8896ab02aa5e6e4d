import DocPages.Heading.RawTag
import DocPages.Markup.Edit

/-!
Writing anchors into the markup of a page. The heading tags without an `id` take the anchors of the
page in order; where the page has none for a tag, the tag stays as it is.
-/

namespace DocPages.Heading

open Markup (StartTag Ambiguous)

/-- Whether a name is that of a heading element. -/
def isHeadingName (name : List Char) : Bool :=
  match name with
  | [h, d] => h.toLower == 'h' && isDepth d
  | _ => false

/-- A tag with its anchor, and the anchors left over. -/
def placeAnchor (anchors : List (Option String)) (tag : StartTag) :
    Option StartTag × List (Option String) :=
  if !isHeadingName tag.name || tag.has "id" then (none, anchors)
  else
    match anchors with
    | [] => (none, [])
    | anchor :: rest => (anchor.map (tag.add "id"), rest)

/-- Markup with anchors in its heading tags. -/
def placeAnchors (anchors : List (Option String)) (html : List Char) :
    Except Ambiguous (List Char) :=
  Markup.edit placeAnchor anchors html

/-- What is said of a tag that could be read in two ways. -/
def ambiguityText (a : Ambiguous) : String :=
  "The parser has encountered a text content tag (`<" ++ a.tag ++ ">`) in the context where it " ++
  "is ambiguous whether this tag should be ignored or not. And, thus, it is unclear whether " ++
  "consequent content should be parsed as raw text or HTML markup.\n\nThis error occurs due to " ++
  "the limited capabilities of the streaming parsing. However, almost all of the cases of this " ++
  "error are caused by a non-conforming markup (e.g. a `<script>` element in `<select>` element)."

end DocPages.Heading
