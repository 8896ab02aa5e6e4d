import DocPages.Text.Blank
import DocPages.Text.Search

/-!
Heading tags in raw markup. A heading that the author writes as a tag takes no anchor from the page;
what matters of it is only whether it has an `id` of its own.
-/

namespace DocPages.Heading

/-- A depth of a heading, as a character. -/
def isDepth (c : Char) : Bool := '1' ≤ c && c ≤ '6'

/-- The attributes of a heading tag at the front of a text, and the length of the tag. -/
def tagAttributes? (cs : List Char) : Option (List Char × Nat) :=
  match cs with
  | '<' :: h :: d :: rest =>
    if h.toLower == 'h' && isDepth d then
      match rest with
      | '>' :: _ => some ([], 4)
      | '/' :: '>' :: _ => some ([], 5)
      | c :: _ =>
        if Text.isBlank c then
          match rest.span (· != '>') with
          | (_, []) => none
          | (attributes, _ :: _) => some (attributes, attributes.length + 4)
        else none
      | [] => none
    else none
  | _ => none

/-- Whether a text begins with `id`, white space, and `=`. -/
def startsWithId (cs : List Char) : Bool :=
  match cs with
  | i :: d :: rest =>
    i.toLower == 'i' && d.toLower == 'd' && (rest.dropWhile Text.isBlank).head? == some '='
  | _ => false

/-- Whether attributes hold an `id` that white space stands in front of. -/
def hasId : List Char → Bool
  | [] => false
  | c :: cs => (Text.isBlank c && startsWithId cs) || hasId cs

/-- How many heading tags without an `id` a text holds; `skip` characters belong to a tag that has
been counted. -/
def countBare : Nat → List Char → Nat
  | _, [] => 0
  | skip + 1, _ :: cs => countBare skip cs
  | 0, c :: cs =>
    match tagAttributes? (c :: cs) with
    | some (attributes, length) =>
      (if hasId attributes then 0 else 1) + countBare (length - 1) cs
    | none => countBare 0 cs

/-- How many heading tags without an `id` a piece of raw markup holds. -/
def bareTags (html : String) : Nat := countBare 0 html.toList

end DocPages.Heading
