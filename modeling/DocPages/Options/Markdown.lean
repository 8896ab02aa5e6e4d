import DocPages.Demo.Find
import DocPages.Markdown.Flavor
import DocPages.Options.Record

/-!
How the text of a page is read and shown, and what the defaults are.
-/

namespace DocPages.Options

/-- How the text of a page is read: whether the extensions of the syntax, raw markup and formulas
are in use, the flag and the language of demos, and whether headings get anchors. -/
structure Markdown where
  gfm : Bool
  allowRawHtml : Bool
  math : Bool
  demoFlag : String
  demoLanguage : String
  headingAnchors : Bool
  deriving DecidableEq, Inhabited

namespace Markdown

/-- What holds where nothing is said. -/
def standard : Markdown := ⟨true, true, false, "demo", "vue", true⟩

/-- The parts of the syntax that are in use. -/
def flavor (o : Markdown) : DocPages.Markdown.Flavor := ⟨o.gfm, o.allowRawHtml, o.math⟩

/-- Which block of code is the demo. -/
def demo (o : Markdown) : Demo.Marker := ⟨o.demoLanguage, o.demoFlag⟩

/-- The names of the fields. -/
def names : List String :=
  ["gfm", "allowRawHtml", "math", "demoFlag", "demoLanguage", "headingAnchors"]

/-- The options that JSON spells. -/
def ofJson? (value : Json) : Option Markdown := do
  match ← columns? names value with
  | [gfm, raw, math, demo, language, anchors] =>
    let gfm ← orElse standard.gfm flag? gfm
    let raw ← orElse standard.allowRawHtml flag? raw
    let math ← orElse standard.math flag? math
    let demo ← orElse standard.demoFlag Json.string? demo
    let language ← orElse standard.demoLanguage Json.string? language
    let anchors ← orElse standard.headingAnchors flag? anchors
    some ⟨gfm, raw, math, demo, language, anchors⟩
  | _ => none

end Markdown

end DocPages.Options
