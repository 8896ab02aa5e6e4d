import DocPages.Markdown.Entity
import DocPages.Text.Ranges

/-!
Character references in the text of a page.
-/

namespace DocPages.Markdown

/-- The character for a number in a reference. A number that stands for no character, or for one
that must not stand in a page, gives the replacement character. -/
def referenceChar (n : Nat) : Char :=
  if n.isValidChar && !(n < 0x09 || n == 0x0B || (0x0D < n && n < 0x20) || (0x7E < n && n < 0xA0)
      || (0xFDCF < n && n < 0xFDF0) || n % 0x10000 == 0xFFFF || n % 0x10000 == 0xFFFE)
  then Char.ofNat n
  else Char.ofNat 0xFFFD

/-- The digits of one base at the front of a text, between one and `most` of them and with a
semicolon behind, as the character that they name and their number. -/
def digitsReference? (isDigit : Char → Bool) (base most : Nat) (cs : List Char) :
    Option (List Char × Nat) :=
  match cs.span isDigit with
  | (digits, ';' :: _) =>
    if digits.isEmpty || most < digits.length then none
    else some ([referenceChar (Text.digitsValue base digits)], digits.length)
  | _ => none

/-- The characters that a reference at the front of a text stands for, and how many characters the
reference has behind its `&`. -/
def reference? (cs : List Char) : Option (List Char × Nat) :=
  match cs with
  | '#' :: x :: rest =>
    if x == 'x' || x == 'X' then
      (digitsReference? Text.isHexDigit 16 6 rest).map fun r => (r.1, r.2 + 3)
    else (digitsReference? Char.isDigit 10 7 (x :: rest)).map fun r => (r.1, r.2 + 2)
  | _ =>
    match cs.span Char.isAlphanum with
    | (name, ';' :: _) =>
      if name.length ≤ 31 then (entity? name).map fun chars => (chars, name.length + 1) else none
    | _ => none

end DocPages.Markdown
