import DocPages.Text.Blank
import DocPages.Text.Digit
import DocPages.Text.LetterCase
import DocPages.Text.Search

/-!
The anchor of a heading, made from its text: punctuation and white space collapse to single dashes,
a digit in front is made safe, and everything is lower case.
-/

namespace DocPages.Heading

/-- A combining mark of the first block of such marks. -/
def isCombining (c : Char) : Bool := Text.inRanges [(0x300, 0x36F)] c

/-- A control character below the space. -/
def isControl (c : Char) : Bool := c.toNat < 0x20

/-- The punctuation that separates the words of a slug. -/
def separators : List Char :=
  ['~', '\x60', '!', '@', '#', '$', '%', '^', '&', '*', '(', ')', '-', '_', '+', '=', '[', ']',
    '\x7b', '\x7d', '|', '\\', ';', ':', '\x22', '\x27', Char.ofNat 0x201C, Char.ofNat 0x201D,
    Char.ofNat 0x2018, Char.ofNat 0x2019, '<', '>', ',', '.', '?', '/']

/-- White space or punctuation between the words of a slug. -/
def isSeparator (c : Char) : Bool := Text.isBlank c || separators.contains c

/-- Every run of separators as one dash. The flag says that a run has begun. -/
def dashRuns : Bool → List Char → List Char
  | _, [] => []
  | inRun, c :: cs =>
    if isSeparator c then
      if inRun then dashRuns true cs else '-' :: dashRuns true cs
    else c :: dashRuns false cs

/-- An underscore in front of a text that starts with a digit. -/
def guardDigit (cs : List Char) : List Char :=
  match cs with
  | c :: _ => if Text.isDecimalDigit c then '_' :: cs else cs
  | [] => []

/-- The slug of a text whose words are all separators. -/
def fallback : List Char := ['h', 'e', 'a', 'd', 'i', 'n', 'g']

/-- The words of a text with single dashes between them. -/
def words (cs : List Char) : List Char :=
  let kept := (cs.filter fun c => !isCombining c).filter fun c => !isControl c
  Text.trimBy (· == '-') (dashRuns false kept)

/-- The anchor for a text, as characters. -/
def slugChars (cs : List Char) : List Char :=
  match words cs with
  | [] => fallback
  | w => Text.lowerCase (guardDigit w)

/-- The anchor for a text. -/
def slugify (text : String) : String := String.ofList (slugChars text.toList)

end DocPages.Heading
