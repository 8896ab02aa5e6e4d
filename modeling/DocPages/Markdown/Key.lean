import DocPages.Text.LetterCase
import DocPages.Text.Search

/-!
The form of a label by which a call is matched with what it calls. The case of letters and the
amount of white space do not count. White space behind the first word does not count at all, unless
there is white space in front of that word, too.
-/

namespace DocPages.Markdown

/-- White space inside a label. -/
def isLabelSpace (c : Char) : Bool := c == ' ' || c == '\t' || c == '\n' || c == '\r'

/-- The words of a label in one text. -/
def joinLabel (label : List Char) : List Char :=
  let words := (Text.splitBy isLabelSpace label).filter fun word => !word.isEmpty
  match words with
  | [] => []
  | first :: rest =>
    if label.head?.any isLabelSpace then Text.joinWith [' '] (first :: rest)
    else first ++ Text.joinWith [' '] rest

/-- The form of a label by which labels are compared. -/
def labelKey (label : List Char) : List Char :=
  Text.upperCase (Text.lowerCase (joinLabel label))

end DocPages.Markdown
