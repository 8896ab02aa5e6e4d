/-!
Finding and replacing inside a text. A search goes from left to right and takes the first place
that matches; replaced stretches never overlap.
-/

namespace DocPages.Text

/-- Whether the text begins with `needle`. -/
def startsWith (needle cs : List Char) : Bool := needle.isPrefixOf cs

/-- The text in front of the first occurrence of `needle`, if there is one. -/
def before? (needle : List Char) : List Char → Option (List Char)
  | [] => if needle.isEmpty then some [] else none
  | c :: cs =>
    if startsWith needle (c :: cs) then some [] else (before? needle cs).map (c :: ·)

/-- Whether `needle` occurs somewhere in the text. -/
def contains (needle cs : List Char) : Bool := (before? needle cs).isSome

/-- One replacement at a place of a text: how many characters it uses up after the first one, and
what stands for them all. -/
structure Replacement where
  more : Nat
  text : List Char

/-- Goes through a text from left to right. At each place `rule` may offer a replacement; `skip`
characters are passed over because a replacement has used them. The flag says whether the place is
the start of the whole text. -/
def replaceFrom (rule : Bool → List Char → Option Replacement) (start : Bool) :
    Nat → List Char → List Char
  | _, [] => []
  | skip + 1, _ :: cs => replaceFrom rule false skip cs
  | 0, c :: cs =>
    match rule start (c :: cs) with
    | some r => r.text ++ replaceFrom rule false r.more cs
    | none => c :: replaceFrom rule false 0 cs

/-- Every replacement that `rule` offers, leftmost first. -/
def replaceBy (rule : Bool → List Char → Option Replacement) (cs : List Char) : List Char :=
  replaceFrom rule true 0 cs

/-- Every occurrence of `needle`, a text that is not empty, replaced by `replacement`. -/
def replaceAll (needle replacement cs : List Char) : List Char :=
  let rule (_start : Bool) (rest : List Char) : Option Replacement :=
    if startsWith needle rest then some ⟨needle.length - 1, replacement⟩ else none
  replaceBy rule cs

/-- The pieces of a text between the characters for which `p` holds. -/
def splitBy (p : Char → Bool) : List Char → List (List Char)
  | [] => [[]]
  | c :: cs =>
    if p c then [] :: splitBy p cs
    else
      match splitBy p cs with
      | piece :: pieces => (c :: piece) :: pieces
      | [] => [[c]]

/-- Texts in a row with `gap` between each two. -/
def joinWith (gap : List Char) : List (List Char) → List Char
  | [] => []
  | [piece] => piece
  | piece :: pieces => piece ++ gap ++ joinWith gap pieces

end DocPages.Text
