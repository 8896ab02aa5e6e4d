import DocPages.Compile.Traced
import DocPages.FrontMatter.Block
import DocPages.Page.Rendered

/-!
The parts that compiling asks. What a part answers depends on nothing but the question.
-/

namespace DocPages

/-- The parts that compiling asks: for the front matter of a page, for its markup, for the time of
the last change of its file in milliseconds, and for a script without types. -/
structure Collaborators where
  extract : String → Except CompileError FrontMatter
  render : String → Traced Rendered
  modified : String → Except CompileError Int
  transpile : String → Except CompileError String

namespace Collaborators

/-- Front matter in YAML between fences. -/
def yaml (source : String) : Except CompileError FrontMatter :=
  (FrontMatter.split source).mapError .frontMatter

/-- Asks for the front matter of a page. -/
def askFrontMatter (c : Collaborators) (source : String) : Traced FrontMatter :=
  Traced.ask (.extract source) (.answer (c.extract source))

/-- Asks for the markup of a text. -/
def askMarkup (c : Collaborators) (text : String) : Traced Rendered :=
  Traced.ask (.render text) (c.render text)

/-- Asks for the time of a file. -/
def askTime (c : Collaborators) (file : String) : Traced Int :=
  Traced.ask (.stat file) (.answer (c.modified file))

/-- Asks for a script without types. -/
def askScript (c : Collaborators) (script : String) : Traced String :=
  Traced.ask (.transpile script) (.answer (c.transpile script))

end Collaborators

end DocPages
