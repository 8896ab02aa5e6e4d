import DocPages.Yaml.Source

/-!
Names with an exclamation mark: the tags of nodes, and the handles that shorten them.
-/

namespace DocPages.Yaml

/-- A tag as written: the handle in front, and what stands behind it. -/
structure TagName where
  handle : List Char
  suffix : List Char
  deriving DecidableEq, Inhabited

/-- A character of a tag. Between angles a few more are allowed. -/
def isTagChar (between : Bool) (c : Char) : Bool :=
  isWord c || ";/?:@&=+$.%!~*\x27()".toList.contains c || (between && [',', '[', ']'].contains c)

/-! ## Characters given by their bytes -/

/-- The byte that two digits behind a percent sign spell, and the text behind them. -/
def percentByte? : List Char → Option (Nat × List Char)
  | '%' :: a :: b :: cs =>
    if Text.isHexDigit a && Text.isHexDigit b then some (Text.digitsValue 16 [a, b], cs) else none
  | _ => none

/-- How many bytes follow a first byte, and what the first one contributes. -/
def byteLead? (b : Nat) : Option (Nat × Nat) :=
  if b < 0x80 then some (0, b)
  else if 0xC0 ≤ b ∧ b < 0xE0 then some (1, b - 0xC0)
  else if 0xE0 ≤ b ∧ b < 0xF0 then some (2, b - 0xE0)
  else if 0xF0 ≤ b ∧ b < 0xF8 then some (3, b - 0xF0)
  else none

/-- The number that following bytes complete. -/
def byteTail? : Nat → Nat → List Char → Option (Nat × List Char)
  | 0, n, cs => some (n, cs)
  | count + 1, n, cs =>
    match percentByte? cs with
    | some (b, cs) => if 0x80 ≤ b ∧ b < 0xC0 then byteTail? count (n * 64 + (b - 0x80)) cs else none
    | none => none

/-- The character that bytes behind percent signs spell. -/
def percentChar? (cs : List Char) : Option (Char × List Char) := do
  let (b, cs) ← percentByte? cs
  let (count, n) ← byteLead? b
  let (n, cs) ← byteTail? count n cs
  some (Char.ofNat n, cs)

/-! ## Reading -/

/-- The characters of a tag at the front of a text, and the text behind them. -/
def tagCharsFrom (between : Bool) : Nat → List Char → List Char → Option (List Char × List Char)
  | 0, done, cs => some (done.reverse, cs)
  | _ + 1, done, [] => some (done.reverse, [])
  | fuel + 1, done, c :: cs =>
    if !isTagChar between c then some (done.reverse, c :: cs)
    else if c == '%' then
      match percentChar? (c :: cs) with
      | some (d, cs) => tagCharsFrom between fuel (d :: done) cs
      | none => none
    else tagCharsFrom between fuel (c :: done) cs

/-- The characters of a tag at the front of a text. -/
def tagChars? (between : Bool) (cs : List Char) : Option (List Char × List Char) :=
  tagCharsFrom between (cs.length + 1) [] cs

/-- A handle at the front of a text, which begins with an exclamation mark: the mark, a word, and a
second mark if there is one. -/
def handle? : List Char → Option (List Char × List Char)
  | '!' :: cs =>
    match cs.span isWord with
    | (word, '!' :: cs) => some ('!' :: word ++ ['!'], cs)
    | (word, cs) => some ('!' :: word, cs)
  | _ => none

/-- Whether a handle ends in a mark of its own. -/
def isClosedHandle (handle : List Char) : Bool :=
  2 ≤ handle.length && handle.getLast? == some '!'

/-- A tag between angles, behind its first two characters. -/
def verbatim? (cs : List Char) : Option (TagName × List Char) :=
  match tagChars? true cs with
  | some (suffix, '>' :: cs) => if suffix.isEmpty then none else some (⟨[], suffix⟩, cs)
  | _ => none

/-- A tag that begins with a handle. A mark alone is a tag of its own. -/
def shorthand? (cs : List Char) : Option (TagName × List Char) := do
  let (handle, cs) ← handle? cs
  let (suffix, cs) ← tagChars? false cs
  if isClosedHandle handle then
    if suffix.isEmpty then none else some (⟨handle, suffix⟩, cs)
  else
    let suffix := handle.drop 1 ++ suffix
    some (if suffix.isEmpty then ⟨[], ['!']⟩ else ⟨['!'], suffix⟩, cs)

/-- The tag at the front of a text, and the text behind it. -/
def TagName.read? (inFlow : Bool) (cs : List Char) : Option (TagName × List Char) := do
  let (tag, cs) ←
    match cs with
    | '!' :: '<' :: cs => verbatim? cs
    | cs => shorthand? cs
  if atGap cs || (inFlow && cs.head? == some ',') then some (tag, cs) else none

end DocPages.Yaml
