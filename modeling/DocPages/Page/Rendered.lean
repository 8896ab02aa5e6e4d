import DocPages.Heading.Header
import DocPages.Options.Record

/-!
What showing the text of a page gives: its markup, its headings, and the code of its demo.
-/

namespace DocPages

/-- A page that is shown. -/
structure Rendered where
  html : String
  headers : List Header
  demoSource : Option String
  deriving Inhabited

namespace Options

/-- The heading that JSON spells. -/
def header? (value : Json) : Option Header := do
  match ← columns? ["level", "title", "slug", "content"] value with
  | [level, title, slug, content] =>
    let level ← level.bind (natUpTo? 255)
    let title ← title.bind Json.string?
    let slug ← orElse "" Json.string? slug
    let content ← orElse "" Json.string? content
    some ⟨level, title, slug, content⟩
  | _ => none

/-- The headings and the demo that JSON spells. In an array the demo must not be left out. -/
def outlineData? (value : Json) : Option (List Header × Option String) := do
  match value, ← columns? ["headers", "demoSource"] value with
  | .array _, [_, none] => none
  | _, [headers, demo] =>
    let headers ← headers.bind (list? header?)
    let demo ← orElse none (nullable Json.string?) demo
    some (headers, demo)
  | _, _ => none

/-- The shown page that JSON spells. -/
def rendered? (value : Json) : Option Rendered := do
  match ← columns? ["html", "data"] value with
  | [html, data] =>
    let html ← html.bind Json.string?
    let (headers, demo) ← data.bind outlineData?
    some ⟨html, headers, demo⟩
  | _ => none

end Options

end DocPages
