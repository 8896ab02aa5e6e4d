import DocPages.Compile.Collaborators
import DocPages.Demo.Component
import DocPages.Demo.Fence
import DocPages.Demo.Payload
import DocPages.Demo.Vanilla
import DocPages.Options.Compiler
import DocPages.TemplateTokens

/-!
The component of a page with a demo: a preview that shows the demo, its code as written, and its
code without types.
-/

namespace DocPages.Demo

/-- A page with a demo. -/
structure Source where
  demo : String
  html : String
  headers : List Header
  metadata : Fields
  relativePath : String
  deriving Inhabited

/-- The markup of code, fit for a template. -/
def highlight (c : Collaborators) (o : Options.Compiler) (code : String) : Traced (List Char) := do
  let shown ← c.askMarkup (fence o.demoLanguage code)
  return (TemplateTokens.escape shown.html).toList

/-- The scripts without types, in order. -/
def vanillaScripts (c : Collaborators) : List Script → Traced (List (List Char))
  | [] => .pure []
  | s :: rest => do
    let code ← c.askScript (String.ofList s.body)
    let others ← vanillaScripts c rest
    return (vanillaScript? s.openTag code.toList).toList ++ others

/-- What the data of the preview is made from. -/
def Source.payloadSource (p : Source) (o : Options.Compiler) (vanilla : String) : PayloadSource :=
  ⟨o.locales, p.headers, o.marker, p.html, p.metadata, p.relativePath, p.demo, vanilla⟩

/-- Notes that the page does not hold the marker of its demo. -/
def noteMarker (o : Options.Compiler) (p : Source) : Traced Unit :=
  if (htmlBefore? o.marker p.html).isSome then .pure ()
  else Traced.note (.markerMissing o.marker p.relativePath)

/-- The preview of a demo with its parts. -/
def preview (o : Options.Compiler) (parts : Parts) (written vanilla payload : List Char) :
    Preview :=
  { component := o.previewComponent
    payload := payload
    template := (parts.template.map retarget).getD []
    writtenHtml := written
    vanillaHtml := vanilla
    scripts := parts.scripts.map Script.block
    style := parts.style }

/-- The component of a page with a demo. -/
def generate (c : Collaborators) (o : Options.Compiler) (p : Source) : Traced String := do
  Traced.note (.generating p.relativePath)
  let written ← highlight c o p.demo
  let parts := Parts.ofSource p.demo.toList
  if parts.scripts.isEmpty then Traced.note .noScript
  let scripts ← vanillaScripts c parts.scripts
  let vanilla := String.ofList (vanillaSource parts scripts)
  let shown ← highlight c o vanilla
  noteMarker o p
  let fields := payload (p.payloadSource o vanilla)
  return String.ofList (preview o parts written shown (payloadText fields)).render

end DocPages.Demo
