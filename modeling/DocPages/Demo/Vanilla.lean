import DocPages.Demo.Parts

/-!
The demo without type annotations. Its scripts lose the attribute that names their language, and a
script with nothing left in it is dropped.
-/

namespace DocPages.Demo

/-! ## The language of a script -/

/-- The text behind `needle` at the front of a text. -/
def behind? (needle cs : List Char) : Option (List Char) :=
  if Text.startsWith needle cs then some (cs.drop needle.length) else none

/-- The text behind a quote of either kind. -/
def behindQuote? : List Char → Option (List Char)
  | c :: cs => if c == '\x22' || c == '\x27' then some cs else none
  | [] => none

/-- The text behind a language with types and the quote that ends it. -/
def behindLanguage? (cs : List Char) : Option (List Char) := do
  let cs ← behind? ['t', 's'] cs
  match behindQuote? cs with
  | some rest => some rest
  | none => (behind? ['x'] cs).bind behindQuote?

/-- The text behind an attribute that names a language with types, with white space in front. -/
def behindLangAttribute? (cs : List Char) : Option (List Char) :=
  match cs with
  | [] => none
  | c :: _ =>
    if Text.isBlank c then do
      let cs ← behind? ['l', 'a', 'n', 'g'] (cs.dropWhile Text.isBlank)
      let cs ← behind? ['='] (cs.dropWhile Text.isBlank)
      let cs ← behindQuote? (cs.dropWhile Text.isBlank)
      behindLanguage? cs
    else none

/-- The replacement of such an attribute by nothing. -/
def dropLang (_ : Bool) (cs : List Char) : Option Text.Replacement :=
  (behindLangAttribute? cs).map fun rest => ⟨cs.length - rest.length - 1, []⟩

/-- An opening tag without the attributes that name a language with types. -/
def plainTag (tag : List Char) : List Char := Text.replaceBy dropLang tag

/-! ## The demo -/

/-- The script that holds transpiled code; none if there is nothing to hold. -/
def vanillaScript? (tag code : List Char) : Option (List Char) :=
  let code := Text.trimBy Text.isLineBreak code
  if Text.allBlank code then none
  else some (plainTag tag ++ '\n' :: code ++ '\n' :: closing "script")

/-- The demo of a template, scripts without types, and a style, with empty lines between them. -/
def vanillaSource (parts : Parts) (scripts : List (List Char)) : List Char :=
  Text.joinWith ['\n', '\n'] (parts.template.toList ++ scripts ++ parts.style.toList)

end DocPages.Demo
