import DocPages.FrontMatter.Error

/-!
Why a page cannot be compiled.
-/

namespace DocPages

/-- A failure to compile a page: its file cannot be asked for its time, its front matter cannot be
read, its text cannot be shown, or a script of its demo cannot be transpiled. -/
inductive CompileError where
  | missingFile (path reason : String)
  | frontMatter (cause : FrontMatter.Error)
  | render (message : String) (line column : Nat)
  | transpile (message : String)
  deriving DecidableEq, Inhabited

namespace CompileError

/-- A place in a text. -/
def location (line column : Nat) : String := toString line ++ ":" ++ toString column

/-- The text shown for a failure. -/
def message : CompileError → String
  | .missingFile path reason => "Cannot stat " ++ path ++ ": " ++ reason
  | .frontMatter cause => cause.message
  | .render text line column => "Render error at " ++ location line column ++ ": " ++ text
  | .transpile text => "Transpile error: " ++ text

end CompileError

end DocPages
