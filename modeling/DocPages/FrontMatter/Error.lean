/-!
Why the front matter of a page cannot be read.
-/

namespace DocPages.FrontMatter

/-- A failure to read front matter: the block is not closed, it is no YAML, or it is YAML other than
a mapping. -/
inductive Error where
  | unterminated
  | malformed (detail : String)
  | notMapping
  deriving DecidableEq, Inhabited

/-- The text shown for a failure. -/
def Error.message : Error → String
  | .unterminated => "Unterminated YAML frontmatter block: expected closing '---'"
  | .malformed detail => "Frontmatter parse error: " ++ detail
  | .notMapping => "Frontmatter must be a YAML mapping at the top level"

end DocPages.FrontMatter
