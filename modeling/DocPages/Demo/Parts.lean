import DocPages.Text.Blank
import DocPages.Text.Search

/-!
A demo taken apart: its template, its scripts and its style. The template and the style reach from
their first opening tag to their last closing tag; a script ends at the first closing tag behind its
opening one.
-/

namespace DocPages.Demo

/-- A script: its opening tag and what stands between the tags. -/
structure Script where
  openTag : List Char
  body : List Char
  deriving DecidableEq, Inhabited

/-- The parts of a demo. -/
structure Parts where
  template : Option (List Char)
  scripts : List Script
  style : Option (List Char)
  deriving DecidableEq, Inhabited

/-! ## Tags -/

/-- What an opening tag begins with. -/
def opening (name : String) : List Char := '<' :: name.toList

/-- The closing tag of an element. -/
def closing (name : String) : List Char := ['<', '/'] ++ name.toList ++ ['>']

/-- The opening tag at the front of a text: the name alone, or the name, white space, and whatever
is no `>`. -/
def openTag? (name : String) (cs : List Char) : Option (List Char) :=
  let start := opening name
  if !Text.startsWith start cs then none
  else
    match cs.drop start.length with
    | '>' :: _ => some (start ++ ['>'])
    | c :: rest =>
      let inside := rest.takeWhile (· != '>')
      if Text.isBlank c && inside.length < rest.length then
        some (start ++ c :: inside ++ ['>'])
      else none
    | [] => none

/-- The whole of a script. -/
def Script.block (s : Script) : List Char := s.openTag ++ s.body ++ closing "script"

/-! ## Scripts -/

/-- The script at the front of a text. -/
def script? (cs : List Char) : Option Script := do
  let tag ← openTag? "script" cs
  let body ← Text.before? (closing "script") (cs.drop tag.length)
  some ⟨tag, body⟩

/-- The scripts of a text in order; `skip` characters belong to a script in front. -/
def scriptsFrom : Nat → List Char → List Script
  | _, [] => []
  | skip + 1, _ :: cs => scriptsFrom skip cs
  | 0, c :: cs =>
    match script? (c :: cs) with
    | some s => s :: scriptsFrom (s.block.length - 1) cs
    | none => scriptsFrom 0 cs

/-! ## Template and style -/

/-- The text up to the last occurrence of `needle`, a text that is not empty, and over it. -/
def throughLast? (needle : List Char) : List Char → Option (List Char)
  | [] => none
  | c :: cs =>
    match throughLast? needle cs with
    | some text => some (c :: text)
    | none => if Text.startsWith needle (c :: cs) then some needle else none

/-- The block at the front of a text, from its opening tag to the last closing tag. -/
def blockHere? (name : String) (cs : List Char) : Option (List Char) := do
  let tag ← openTag? name cs
  let content ← throughLast? (closing name) (cs.drop tag.length)
  some (tag ++ content)

/-- The first block of a text. -/
def block? (name : String) : List Char → Option (List Char)
  | [] => none
  | c :: cs => (blockHere? name (c :: cs)).or (block? name cs)

/-- A demo taken apart. -/
def Parts.ofSource (source : List Char) : Parts :=
  ⟨block? "template" source, scriptsFrom 0 source, block? "style" source⟩

end DocPages.Demo
