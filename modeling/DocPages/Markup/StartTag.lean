import DocPages.Text.Ranges

/-!
Start tags in finished markup: their names, their attributes as written, and how a tag is written
again once it has been changed.
-/

namespace DocPages.Markup

/-- An attribute: its name in lower case, and the whole of it as written. -/
structure Attribute where
  name : List Char
  text : List Char
  deriving DecidableEq, Inhabited

/-- A start tag with its name as written. -/
structure StartTag where
  name : List Char
  attributes : List Attribute
  selfClosing : Bool
  deriving DecidableEq, Inhabited

/-- White space between the parts of a tag. -/
def isTagSpace (c : Char) : Bool :=
  Text.inRanges [(0x09, 0x0A), (0x0C, 0x0D), (0x20, 0x20)] c

/-- A character that ends the name of a tag. -/
def endsTagName (c : Char) : Bool := isTagSpace c || c == '/' || c == '>'

/-- A character that ends the name of an attribute. -/
def endsAttributeName (c : Char) : Bool := endsTagName c || c == '='

/-! ## Reading -/

/-- How many characters of a text belong to an attribute with a name of `length` characters. A value
that is left out does not count; none if the text ends within the attribute. -/
def attributeLength? (cs : List Char) (length : Nat) : Option Nat :=
  let behind := cs.drop length
  let gap := (behind.takeWhile isTagSpace).length
  match behind.drop gap with
  | '=' :: rest =>
    let space := (rest.takeWhile isTagSpace).length
    let start := length + gap + 1 + space
    match rest.drop space with
    | [] => none
    | '>' :: _ => some length
    | c :: value =>
      if c == '\x22' || c == '\x27' then
        let text := value.takeWhile (· != c)
        match value.drop text.length with
        | [] => none
        | _ :: _ => some (start + text.length + 2)
      else some (start + ((c :: value).takeWhile fun c => !(isTagSpace c || c == '>')).length)
  | _ => some length

/-- The number of characters of a value that is left out, up to the end of its tag. -/
def emptyValueLength (cs : List Char) : Nat :=
  let gap := (cs.takeWhile isTagSpace).length
  match cs.drop gap with
  | '=' :: rest =>
    let space := (rest.takeWhile isTagSpace).length
    if (rest.drop space).head? == some '>' then gap + 1 + space else 0
  | _ => 0

/-- The attribute at the front of a text, and the number of characters up to what is behind it. Its
first character belongs to its name, whatever it is. -/
def attribute? (cs : List Char) : Option (Attribute × Nat) :=
  let length := 1 + ((cs.drop 1).takeWhile fun c => !endsAttributeName c).length
  (attributeLength? cs length).map fun whole =>
    (⟨Text.asciiLower (cs.take length), cs.take whole⟩,
      if whole == length then whole + emptyValueLength (cs.drop whole) else whole)

/-- The rest of a tag behind its name: its attributes, whether it closes itself, and the number of
its characters. `skip` characters have been dealt with. -/
def attributesFrom : Nat → List Attribute → List Char → Option (List Attribute × Bool × Nat)
  | _, _, [] => none
  | skip + 1, done, _ :: cs => (attributesFrom skip done cs).map fun r => (r.1, r.2.1, r.2.2 + 1)
  | 0, done, c :: cs =>
    if c == '>' then some (done.reverse, false, 1)
    else if c == '/' && cs.head? == some '>' then some (done.reverse, true, 2)
    else if isTagSpace c || c == '/' then
      (attributesFrom 0 done cs).map fun r => (r.1, r.2.1, r.2.2 + 1)
    else
      match attribute? (c :: cs) with
      | some (a, length) =>
        (attributesFrom (length - 1) (a :: done) cs).map fun r => (r.1, r.2.1, r.2.2 + 1)
      | none => none

/-- The start tag behind a `<`, and the number of its characters; none if the text ends within
it. -/
def StartTag.read? (cs : List Char) : Option (StartTag × Nat) :=
  let name := cs.takeWhile fun c => !endsTagName c
  (attributesFrom 0 [] (cs.drop name.length)).map
    fun (attributes, selfClosing, length) =>
      (⟨name, attributes, selfClosing⟩, name.length + length)

/-! ## Attributes -/

/-- Whether a tag has an attribute with a name in lower case. -/
def StartTag.has (tag : StartTag) (name : String) : Bool :=
  tag.attributes.any fun a => a.name == name.toList

/-- The value of an attribute, without its quotes. -/
def Attribute.value (a : Attribute) : List Char :=
  match (a.text.drop a.name.length).dropWhile isTagSpace with
  | _ :: rest =>
    match rest.dropWhile isTagSpace with
    | c :: value => if c == '\x22' || c == '\x27' then value.dropLast else c :: value
    | [] => []
  | [] => []

/-- A value between double quotes. -/
def quotedValue (value : List Char) : List Char :=
  value.flatMap fun c => if c == '\x22' then "&quot;".toList else [c]

/-- The tag with one more attribute behind the others. -/
def StartTag.add (tag : StartTag) (name value : String) : StartTag :=
  let text := name.toList ++ ['=', '\x22'] ++ quotedValue value.toList ++ ['\x22']
  { tag with attributes := tag.attributes ++ [⟨name.toList, text⟩] }

/-- The text of a tag: its attributes behind single spaces. -/
def StartTag.chars (tag : StartTag) : List Char :=
  '<' :: (tag.name ++ tag.attributes.flatMap (fun a => ' ' :: a.text) ++
    (if tag.selfClosing then [' ', '/', '>'] else ['>']))

end DocPages.Markup
