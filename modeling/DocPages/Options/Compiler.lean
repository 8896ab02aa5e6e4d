import DocPages.Options.Record

/-!
How pages are compiled, and what their defaults are.
-/

namespace DocPages.Options

/-- How pages are compiled: how many pages are remembered, the language of demos, the component that
shows them, the titles of the headings under which their captions stand, and the markup that a demo
begins with, where it is not the usual one. -/
structure Compiler where
  cacheCapacity : Nat
  demoLanguage : String
  previewComponent : String
  captionLocales : String × String
  demoMarker : Option String
  deriving DecidableEq, Inhabited

namespace Compiler

/-- What holds where nothing is said. -/
def standard : Compiler := ⟨1024, "vue", "demo-preview", ("zh-CN", "en-US"), none⟩

/-- The markup of a code block in the language of demos. -/
def usualMarker (language : String) : String := "<pre><code class=\"language-" ++ language ++ "\""

/-- The markup that a demo begins with. -/
def marker (o : Compiler) : String := o.demoMarker.getD (usualMarker o.demoLanguage)

/-- The locales in order. -/
def locales (o : Compiler) : List String := [o.captionLocales.1, o.captionLocales.2]

/-- The names of the fields. -/
def names : List String :=
  ["cacheCapacity", "demoLanguage", "previewComponent", "captionLocales", "demoMarker"]

/-- The options that JSON spells. -/
def ofJson? (value : Json) : Option Compiler := do
  match ← columns? names value with
  | [capacity, language, component, locales, marker] =>
    let capacity ← orElse standard.cacheCapacity count? capacity
    let language ← orElse standard.demoLanguage Json.string? language
    let component ← orElse standard.previewComponent Json.string? component
    let locales ← orElse standard.captionLocales pair? locales
    let marker ← orElse none (nullable Json.string?) marker
    some ⟨capacity, language, component, locales, marker⟩
  | _ => none

end Compiler

end DocPages.Options
