/-!
Which parts of the page syntax are in use.
-/

namespace DocPages.Markdown

/-- The parts of the syntax that a page may do without: the extensions of the basic syntax, raw
markup, and formulas. -/
structure Flavor where
  extended : Bool
  rawHtml : Bool
  math : Bool
  deriving DecidableEq, Inhabited

end DocPages.Markdown
