import DocPages.Markdown.CharacterReference
import DocPages.Markdown.Inline.Data
import DocPages.Markdown.Inline.Target

/-!
Character references and escapes, and text in which nothing else has a meaning: titles,
destinations, and what stands behind the marks of a fence.
-/

namespace DocPages.Markdown.Inline

/-- The number of characters in which a character reference has to end. -/
def referenceBound : Nat := 40

/-- A character reference, and the slots behind it. -/
def characterReference? (slots : List Slot) : Option (Met (List Slot)) :=
  (reference? (((slots.drop 1).take referenceBound).map Slot.char)).map fun r =>
    ⟨slots.take (r.2 + 1), slots.drop (r.2 + 1)⟩

/-- The characters that a character reference stands for. -/
def decoded (slots : List Slot) : List Char :=
  ((reference? ((slots.drop 1).map Slot.char)).map (·.1)).getD []

/-- A character behind a backslash that takes its meaning away, and the slots behind it. -/
def escaped? (slots : List Slot) : Option (Met (List Slot)) :=
  match slots with
  | _ :: s :: rest => if Text.isAsciiPunctuation s.char then some ⟨[s], rest⟩ else none
  | _ => none

/-- A character reference or an escape in front, and the number of its slots. -/
def plainMark? (slots : List Slot) : Option (Event × Nat) :=
  match slots.head?.map Slot.char with
  | some '&' =>
    (characterReference? slots).map fun m => (.leaf .characterReference m.value, m.value.length)
  | some '\\' => (escaped? slots).map fun m => (.leaf .escaped m.value, 2)
  | _ => none

/-- The events of a plain text, given the piece at hand, last slot first; `skip` slots have been
dealt with. -/
def plainEvents : Nat → List Slot → List Slot → List Event
  | _, part, [] => leafOf .data part.reverse
  | skip + 1, part, _ :: rest => plainEvents skip part rest
  | 0, part, s :: rest =>
    if s.isBreak then leafOf .data part.reverse ++ .leaf .lineEnding [s] :: plainEvents 0 [] rest
    else
      match plainMark? (s :: rest) with
      | some (e, size) => leafOf .data part.reverse ++ e :: plainEvents (size - 1) [] rest
      | none => plainEvents 0 (s :: part) rest

/-- The characters that an event of a text shows. -/
def shownChars : Event → List Char
  | .leaf .data slots => Slot.text slots
  | .leaf .escaped slots => Slot.text slots
  | .leaf .characterReference slots => decoded slots
  | .leaf .lineEnding slots => Slot.text slots
  | _ => []

/-- The characters of a plain text. -/
def plainText (slots : List Slot) : List Char :=
  (trimAll false false none (plainEvents 0 [] slots)).flatMap shownChars

end DocPages.Markdown.Inline
