import DocPages.Demo.Generate
import DocPages.Page.Metadata
import DocPages.Page.Path

/-!
Compiling a page: what is told about it, and its component.
-/

namespace DocPages

/-- What is told about a page. -/
structure PageData where
  title : String
  description : String
  frontmatter : Fields
  headers : List Header
  relativePath : String
  content : String
  html : String
  lastUpdated : Int
  deriving Inhabited

/-- A compiled page: its component, and what is told about it. -/
structure Compiled where
  componentSource : String
  pageData : PageData
  deriving Inhabited

namespace Compile

/-- A page to be compiled: its text, its file, and the directory that its path is told from. -/
structure Request where
  source : String
  file : String
  root : String
  deriving DecidableEq, Inhabited

/-- What is told about a page with its front matter, its markup and its time. -/
def pageData (r : Request) (fm : FrontMatter) (shown : Rendered) (time : Int) : PageData :=
  { title := Page.title fm.metadata fm.body
    description := Page.description fm.metadata
    frontmatter := fm.metadata
    headers := shown.headers
    relativePath := Page.relativePath r.file r.root
    content := Page.content fm.body
    html := TemplateTokens.escape shown.html
    lastUpdated := time }

/-- The component of a page with or without a demo. -/
def component (c : Collaborators) (o : Options.Compiler) (data : PageData) :
    Option String → Traced String
  | none => .pure (Demo.pageComponent data.html)
  | some demo =>
    Demo.generate c o ⟨demo, data.html, data.headers, data.frontmatter, data.relativePath⟩

/-- Compiles a page. -/
def page (c : Collaborators) (o : Options.Compiler) (r : Request) : Traced Compiled := do
  let fm ← c.askFrontMatter r.source
  let shown ← c.askMarkup fm.body
  let time ← c.askTime r.file
  let data := pageData r fm shown time
  let component ← component c o data shown.demoSource
  return ⟨component, data⟩

end Compile

end DocPages
