import DocPages.HeaderText
import DocPages.Json.Printer
import DocPages.Text.Attribute

/-!
What the front matter and the text of a page say about it: its title, its description, and its text
in the form of an attribute.
-/

namespace DocPages.Page

/-! ## Title -/

/-- The rest of a heading line at the front of a text: white space, a single hash, and more white
space stand in front of it. -/
def headingHere? (cs : List Char) : Option (List Char) :=
  match cs.dropWhile Text.isBlank with
  | '#' :: c :: rest =>
    if Text.isBlank c then some ((rest.dropWhile Text.isBlank).takeWhile (· != '\n')) else none
  | _ => none

/-- The rest of the first heading line; the flag says whether a line starts here. -/
def firstHeading? : Bool → List Char → Option (List Char)
  | _, [] => none
  | lineStart, c :: cs =>
    (if lineStart then headingHere? (c :: cs) else none).or (firstHeading? (c == '\n') cs)

/-- The text of a value that stands where a text is expected. -/
def textOf : Json → String
  | .string s => s
  | value => value.compact

/-- The title that the text of a page gives it. -/
def titleOfBody (body : String) : String :=
  match firstHeading? true body.toList with
  | some heading => HeaderText.deep (String.ofList (Text.trim heading))
  | none => ""

/-- The title of a page: a fixed one for the home page, then the title of the front matter, then the
first heading of the text. -/
def title (metadata : Fields) (body : String) : String :=
  if (metadata.get? "home").any Json.isTruthy then "Home"
  else
    match (metadata.get? "title").filter Json.isTruthy with
    | some value => HeaderText.deep (textOf value)
    | none => titleOfBody body

/-! ## Description -/

/-- The description that an entry of the head gives: that of a `meta` tag whose name says so. -/
def describes? : Json → Option String
  | .array (.string tag :: .object attributes :: _) =>
    match Fields.get? "name" attributes, Fields.get? "content" attributes with
    | some (.string name), some (.string content) =>
      if tag == "meta" && name == "description" && !content.isEmpty then some content else none
    | _, _ => none
  | _ => none

/-- The description of a page: the first one that its head gives. -/
def description (metadata : Fields) : String :=
  match (metadata.get? "head").bind Json.array? with
  | some entries => (entries.findSome? describes?).getD ""
  | none => ""

/-! ## Text -/

/-- The text of a page as the value of an attribute. -/
def content (body : String) : String := String.ofList (Text.attributeText body.toList)

end DocPages.Page
