import DocPages.Demo.Parts

/-!
Components: the page as a component that shows its markup, and the preview of a demo, which hands
the demo, its code in two forms, and its data to a preview component.
-/

namespace DocPages.Demo

/-- The slot for the code as written. -/
def writtenSlot : String := "original-code"

/-- The slot for the code without types. -/
def vanillaSlot : String := "vanilla-code"

/-- The component of a page without a demo. -/
def pageComponent (html : String) : String := "<template><div>" ++ html ++ "</div></template>"

/-- A template that fills the default slot. -/
def retarget (template : List Char) : List Char :=
  let start := opening "template"
  if Text.startsWith start template then
    start ++ " #default".toList ++ template.drop start.length
  else template

/-- What the preview of a demo is made of. -/
structure Preview where
  component : String
  payload : List Char
  template : List Char
  writtenHtml : List Char
  vanillaHtml : List Char
  scripts : List (List Char)
  style : Option (List Char)
  deriving Inhabited

/-- A named slot with its markup. -/
def slot (name : String) (html : List Char) : List Char :=
  "<template #".toList ++ name.toList ++ ['>'] ++ html ++ "</template>".toList

/-- The lines of a preview: the template of the component, then the scripts and the style. -/
def Preview.lines (p : Preview) : List (List Char) :=
  let name := p.component.toList
  ["<template>".toList,
    ['<'] ++ name ++ " data=\x22".toList ++ p.payload ++ ['\x22', '>']] ++
  (if p.template.isEmpty then [] else [p.template]) ++
  [slot writtenSlot p.writtenHtml, slot vanillaSlot p.vanillaHtml,
    ['<', '/'] ++ name ++ ['>'], "</template>".toList] ++
  p.scripts ++ p.style.toList

/-- The text of a preview. -/
def Preview.render (p : Preview) : List Char := p.lines.flatMap (· ++ ['\n'])

end DocPages.Demo
