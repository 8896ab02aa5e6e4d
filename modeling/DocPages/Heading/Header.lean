/-!
What is told about a heading of a page.
-/

namespace DocPages

/-- A heading: its depth, its visible text, its anchor, and the plain text of the section below. -/
structure Header where
  level : Nat
  title : String
  slug : String
  content : String
  deriving DecidableEq, Inhabited

end DocPages
