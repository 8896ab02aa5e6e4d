import DocPages.Heading.Header
import DocPages.Json.Printer
import DocPages.Text.Attribute
import DocPages.Text.Base64
import DocPages.Text.Search

/-!
The data that a preview is given: the captions of the page, the markup in front of the demo, the
front matter, and the code in both forms.
-/

namespace DocPages.Demo

/-- What the data is made from. -/
structure PayloadSource where
  captionLocales : List String
  headers : List Header
  marker : String
  html : String
  metadata : Fields
  relativePath : String
  demo : String
  vanilla : String
  deriving Inhabited

/-- The caption in a language: the text under the first heading of that title. -/
def caption? (headers : List Header) (locale : String) : Option String :=
  (headers.find? fun h => h.title == locale).map (·.content)

/-- The fields with the captions of the page. -/
def captions (headers : List Header) (locales : List String) : Fields :=
  locales.foldl
    (fun fields locale =>
      match caption? headers locale with
      | some text => fields.insert locale (.string text)
      | none => fields)
    []

/-- The markup in front of the marker of the demo; none if the marker does not occur. -/
def htmlBefore? (marker html : String) : Option String :=
  (Text.before? marker.toList html.toList).map String.ofList

/-- The bytes of a text in a form that any channel carries. -/
def packed (text : String) : Json := .string (String.ofList (Text.Base64.ofChars text.toList))

/-- Fields put over others. -/
def overlay (fields upper : Fields) : Fields :=
  upper.foldl (fun fields f => fields.insert f.1 f.2) fields

/-- The data of a preview. The fields of the front matter stand over the captions and the markup;
the path and the code stand over everything. -/
def payload (p : PayloadSource) : Fields :=
  let html := (htmlBefore? p.marker p.html).getD p.html
  let page := (captions p.headers p.captionLocales).insert "html" (.string html)
  (((overlay page p.metadata).insert "relativePath" (.string p.relativePath)).insert
    "originalCode" (packed p.demo)).insert "vanillaCode" (packed p.vanilla)

/-- The data as the value of an attribute. -/
def payloadText (fields : Fields) : List Char := Text.attributeText (Json.object fields).chars

end DocPages.Demo
