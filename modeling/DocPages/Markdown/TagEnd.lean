import DocPages.Text.Blank

/-!
The inside of a tag, one character after another: where in the tag a character stands, and where the
tag may end.
-/

namespace DocPages.Markdown

/-- White space inside a tag. -/
def isTagSpace (c : Char) : Bool := Text.isSpaceOrTab c || c == '\n'

/-- A character of the name of a tag behind its first letter. -/
def isTagNameChar (c : Char) : Bool := c.isAlphanum || c == '-'

/-- A character that the name of an attribute may start with. -/
def isAttributeStart (c : Char) : Bool := c.isAlpha || c == '_' || c == ':'

/-- A character of the name of an attribute. -/
def isAttributeChar (c : Char) : Bool :=
  c.isAlphanum || c == '_' || c == ':' || c == '.' || c == '-'

/-- Where in a tag the next character stands. -/
inductive TagPlace where
  | between
  | attribute
  | behindAttribute
  | valueStart
  | quoted (quote : Char)
  | behindQuote
  | bare
  | slash
  | space
  | closed
  deriving DecidableEq, Inhabited

namespace TagPlace

/-- The place behind a character that stands between attributes. In a tag that has lines of its own
a digit may start the name of an attribute. -/
def fromBetween? (ownLine : Bool) (c : Char) : Option TagPlace :=
  if isTagSpace c then some .between
  else if c == '/' then some .slash
  else if isAttributeStart c || (ownLine && c.isDigit) then some .attribute
  else if c == '>' then some .closed
  else none

/-- The place behind a character that stands behind the name of an attribute. -/
def fromBehindAttribute? (ownLine : Bool) (c : Char) : Option TagPlace :=
  if c == '=' then some .valueStart
  else if isTagSpace c then some .behindAttribute
  else fromBetween? ownLine c

/-- The place of the character behind `c`; nothing if the tag is broken. In a tag that has lines of
its own a bare value may hold equals signs, and it must not start with a slash. -/
def next? (ownLine : Bool) (place : TagPlace) (c : Char) : Option TagPlace :=
  match place with
  | .between => fromBetween? ownLine c
  | .attribute =>
    if isAttributeChar c then some .attribute else fromBehindAttribute? ownLine c
  | .behindAttribute => fromBehindAttribute? ownLine c
  | .valueStart =>
    if isTagSpace c then some .valueStart
    else if c == '\x22' || c == '\x27' then some (.quoted c)
    else if c == '<' || c == '=' || c == '>' || c == '\x60' then none
    else if ownLine && c == '/' then some .slash
    else some .bare
  | .quoted quote => if c == quote then some .behindQuote else some (.quoted quote)
  | .behindQuote =>
    if isTagSpace c || c == '/' || c == '>' then fromBetween? ownLine c else none
  | .bare =>
    if isTagSpace c || c == '/' || c == '>' then fromBetween? ownLine c
    else if ownLine && c == '=' then some .valueStart
    else if c == '\x22' || c == '\x27' || c == '<' || c == '=' || c == '\x60' then none
    else some .bare
  | .slash => if c == '>' then some .closed else none
  | .space =>
    if isTagSpace c then some .space else if c == '>' then some .closed else none
  | .closed => none

end TagPlace

end DocPages.Markdown
