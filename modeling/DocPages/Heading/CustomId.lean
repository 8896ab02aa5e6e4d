import DocPages.Text.Blank

/-!
An anchor that the author gives at the end of a heading, between `{#` and `}`.
-/

namespace DocPages.Heading

/-- A character that may stand in an anchor of the author's own. -/
def isIdChar (c : Char) : Bool := c.isAlphanum || c == '-' || c == '_'

/-- The text in front of the last opening of a group and the text behind it. -/
def lastGroup? : List Char → Option (List Char × List Char)
  | [] => none
  | c :: cs =>
    match lastGroup? cs with
    | some (before, id) => some (c :: before, id)
    | none =>
      match c, cs with
      | '\x7b', '#' :: id => some ([], id)
      | _, _ => none

/-- The text without the closing brace at its end. -/
def dropClosingBrace? (cs : List Char) : Option (List Char) :=
  match cs.reverse with
  | '\x7d' :: rest => some rest.reverse
  | _ => none

/-- The title and the anchor of a heading text, if the text ends in an anchor. -/
def customIdChars? (cs : List Char) : Option (List Char × List Char) := do
  let inner ← dropClosingBrace? (Text.trimEnd cs)
  let (before, id) ← lastGroup? inner
  if !id.isEmpty && id.all isIdChar then some (Text.trimEnd before, id) else none

/-- Heading text taken apart: its title, and its anchor if it gives one. -/
def splitCustomId (text : String) : String × Option String :=
  match customIdChars? text.toList with
  | some (title, id) => (String.ofList title, some (String.ofList id))
  | none => (text, none)

end DocPages.Heading
