import DocPages.FrontMatter.Error
import DocPages.Text.Blank
import DocPages.Yaml.Value

/-!
The front matter of a page: a block of YAML between two fences at its very start. Main statement: a
text that does not begin with a fence is all body.
-/

namespace DocPages

/-- A page taken apart: the fields of its front matter, and the text behind. -/
structure FrontMatter where
  body : String
  metadata : Fields
  deriving Inhabited

namespace FrontMatter

/-! ## Lines -/

/-- The first line of a text without its line feed, and the text behind the line. -/
def firstLine (cs : List Char) : List Char × List Char :=
  let (line, rest) := cs.span (· != '\n')
  (line, rest.drop 1)

/-- Whether a line is a fence: three dashes, and white space behind them. -/
def isFence (line : List Char) : Bool := Text.trimEnd line == ['-', '-', '-']

/-- The byte order mark at the start of a text. -/
def byteOrderMark : Char := Char.ofNat 0xFEFF

/-- The text without a byte order mark at its start. -/
def dropMark : List Char → List Char
  | [] => []
  | c :: cs => if c == byteOrderMark then cs else c :: cs

/-! ## The block -/

/-- The characters in front of the first line that is a fence, and the text behind that line; none
if there is no such line. The fuel is the number of lines. -/
def untilFence : Nat → List Char → Option (List Char × List Char)
  | 0, _ => none
  | fuel + 1, cs =>
    if cs.isEmpty then none
    else
      let (line, rest) := firstLine cs
      if isFence line then some ([], rest)
      else (untilFence fuel rest).map fun (block, body) => (line ++ '\n' :: block, body)

/-- The lines of a block without the line breaks at its end, and the body. -/
def block? (cs : List Char) : Option (List Char × List Char) :=
  (untilFence (cs.length + 1) cs).map fun (block, body) =>
    (Text.trimEndBy Text.isLineBreak block, body)

/-- The detail told of a block that is no YAML. -/
def noYaml : String := "the block is no YAML"

/-- The fields of the value that a block spells, if it spells one. -/
def fieldsOf : Option Json → Except Error Fields
  | none => .error (.malformed noYaml)
  | some .null => .ok []
  | some (.object fields) => .ok fields
  | some _ => .error .notMapping

section Reader

variable (read? : List Char → Option Json)

/-- The fields of a block, where `read?` gives the value that a text spells. -/
def fieldsBy (block : List Char) : Except Error Fields :=
  if Text.allBlank block then .ok [] else fieldsOf (read? block)

/-- The front matter and the body of a page, where `read?` gives the value that a text spells. -/
def splitBy (source : String) : Except Error FrontMatter :=
  let cs := dropMark source.toList
  let (line, rest) := firstLine cs
  if !isFence line then .ok ⟨String.ofList cs, []⟩
  else
    match block? rest with
    | none => .error .unterminated
    | some (block, body) => (fieldsBy read? block).map fun fields => ⟨String.ofList body, fields⟩

end Reader

/-- The fields of a block of YAML. -/
def fields (block : List Char) : Except Error Fields := fieldsBy Yaml.read? block

/-- The front matter and the body of a page. -/
def split (source : String) : Except Error FrontMatter := splitBy Yaml.read? source

end FrontMatter

end DocPages
