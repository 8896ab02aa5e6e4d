import DocPages.Json.Basic
import DocPages.Text.Ranges
import DocPages.Text.Search

/-!
Untyped scalars of YAML. A text without quotes may stand for nothing, a truth value, a whole number,
or a floating point number; whatever is none of these stands for itself.
-/

namespace DocPages.Yaml

/-- What a scalar stands for. Infinities and what is no number have one constructor, as no page can
tell them apart. -/
inductive Atom where
  | null
  | bool (b : Bool)
  | int (n : Int)
  | float (x : Binary64)
  | notFinite
  | text (s : List Char)
  deriving DecidableEq, Inhabited

/-! ## Words -/

/-- Whether a text is one of the words for nothing. -/
def isNull (cs : List Char) : Bool :=
  ["null".toList, "Null".toList, "NULL".toList, ['~']].contains cs

/-- The truth value that a text spells. -/
def bool? (cs : List Char) : Option Bool :=
  if ["true".toList, "True".toList, "TRUE".toList].contains cs then some true
  else if ["false".toList, "False".toList, "FALSE".toList].contains cs then some false
  else none

/-- Whether a text spells an infinity or what is no number. -/
def isNotFinite (cs : List Char) : Bool :=
  [".inf", ".Inf", ".INF", "+.inf", "+.Inf", "+.INF", "-.inf", "-.Inf", "-.INF", ".nan", ".NaN",
    ".NAN"].contains (String.ofList cs)

/-! ## Whole numbers -/

/-- A sign in front of a text: whether it is a minus, and the text behind it. -/
def signed : List Char → Bool × List Char
  | '+' :: cs => (false, cs)
  | '-' :: cs => (true, cs)
  | cs => (false, cs)

/-- Digits that begin with a zero, behind a sign or not: they are text. -/
def isPadded (cs : List Char) : Bool :=
  match (signed cs).2 with
  | '0' :: d :: rest => (d :: rest).all Char.isDigit
  | _ => false

/-- The base that the front of a text announces, and the text behind. -/
def base? : List Char → Option (Nat × List Char)
  | '0' :: 'x' :: cs => some (16, cs)
  | '0' :: 'o' :: cs => some (8, cs)
  | '0' :: 'b' :: cs => some (2, cs)
  | _ => none

/-- Whether a character is a digit of a base. -/
def isDigitOf (base : Nat) (c : Char) : Bool := Text.isHexDigit c && Text.hexValue c < base

/-- The number that a text of digits spells in a base. -/
def natural? (base : Nat) (digits : List Char) : Option Nat :=
  if !digits.isEmpty && digits.all (isDigitOf base) then some (Text.digitsValue base digits)
  else none

/-- The number that a text spells, in a base that it announces or in base ten. -/
def wholeNumber? (cs : List Char) : Option Int := do
  let (negative, digits) := signed cs
  let n ←
    match base? digits with
    | some (base, digits) => natural? base digits
    | none => if isPadded cs then none else natural? 10 digits
  some (if negative then -n else n)

/-- Whether a number has at most 128 bits; longer ones are no whole numbers to the reader. -/
def isWide (n : Int) : Bool := decide (-(twoTo 127 : Int) ≤ n ∧ n < (twoTo 128 : Int))

/-- The whole number that a text spells, within 128 bits. -/
def int? (cs : List Char) : Option Int := (wholeNumber? cs).filter isWide

/-- Whether a whole number can be kept as such. -/
def fits (n : Int) : Bool := decide (Json.minInt ≤ n ∧ n ≤ Json.maxInt)

/-! ## Floating point numbers -/

/-- The power of ten that a text spells behind its digits; the empty text spells none. -/
def power? : List Char → Option Int
  | [] => some 0
  | c :: cs =>
    if c == 'e' || c == 'E' then
      let (negative, digits) := signed cs
      (natural? 10 digits).map fun n => if negative then -n else n
    else none

/-- The number that a text in decimal or scientific writing spells, if it is not too great. -/
def decimal? (cs : List Char) : Option Binary64 := do
  let (negative, cs) := signed cs
  let (whole, cs) := cs.span Char.isDigit
  let (decimals, cs) :=
    match cs with
    | '.' :: cs => cs.span Char.isDigit
    | cs => ([], cs)
  if whole.isEmpty && decimals.isEmpty then none
  else
    let power ← power? cs
    Binary64.ofDecimal negative (Text.digitsValue 10 (whole ++ decimals))
      (power - decimals.length)

/-- The floating point number that a text spells. -/
def float? (cs : List Char) : Option Atom :=
  if isNotFinite cs then some .notFinite else (decimal? cs).map .float

/-! ## Scalars -/

/-- The atom of a whole number: none if it does not fit. -/
def ofInt? (n : Int) : Option Atom := if fits n then some (.int n) else none

/-- The atom of a text without quotes: none if it is a whole number that does not fit. -/
def ofPlain? (cs : List Char) : Option Atom :=
  if cs.isEmpty || isNull cs then some .null
  else
    match bool? cs, int? cs with
    | some b, _ => some (.bool b)
    | none, some n => ofInt? n
    | none, none =>
      if isPadded cs then some (.text cs) else some ((float? cs).getD (.text cs))

/-- What begins the tags that every reader knows. -/
def coreTag (name : String) : String := "tag:yaml.org,2002:" ++ name

/-- The atom of a text under a tag that every reader knows. Other tags say that it is text. -/
def ofTagged? (tag : String) (cs : List Char) : Option Atom :=
  if tag == coreTag "bool" then (bool? cs).map .bool
  else if tag == coreTag "int" then (int? cs).bind ofInt?
  else if tag == coreTag "float" then float? cs
  else if tag == coreTag "null" then (if isNull cs then some .null else none)
  else some (.text cs)

/-- The value of an atom. -/
def Atom.toJson : Atom → Json
  | .null => .null
  | .bool b => .bool b
  | .int n => .number (.int n)
  | .float x => .number (.float x)
  | .notFinite => .null
  | .text s => .string (String.ofList s)

end DocPages.Yaml
