import DocPages.Json.Basic
import DocPages.Text.Ranges

/-!
Reading JSON text. The whole text has to be one value, with white space around it at most. The
fields of an object are kept as written, also two with one key; `Json.canonical` sorts them.

A value may be well written and still be one that cannot be held: a number that is too large, or a
string with half of a character. Such a value does no harm where nobody looks at it, so the text
around it can be read; `Json.unheld` stands in its place.
-/

namespace DocPages.Json

/-- The text behind leading JSON white space. -/
def skipSpace (cs : List Char) : List Char :=
  cs.dropWhile fun c => c == ' ' || c == '\t' || c == '\n' || c == '\r'

/-- The text behind `word`, if it begins with it. -/
def dropWord? : List Char → List Char → Option (List Char)
  | [], cs => some cs
  | w :: ws, c :: cs => if w == c then dropWord? ws cs else none
  | _ :: _, [] => none

/-- The number that four digits of base sixteen spell. -/
def hexQuad? (a b c d : Char) : Option Nat :=
  if [a, b, c, d].all Text.isHexDigit then some (Text.digitsValue 16 [a, b, c, d]) else none

/-- The character for a letter behind a backslash. -/
def simpleEscape? (c : Char) : Option Char :=
  match c with
  | '\x22' => some '\x22'
  | '\\' => some '\\'
  | '/' => some '/'
  | 'b' => some (Char.ofNat 0x08)
  | 'f' => some (Char.ofNat 0x0C)
  | 'n' => some '\n'
  | 'r' => some '\r'
  | 't' => some '\t'
  | _ => none

/-- What stands for a value that cannot be held. It is a number with a fraction, which no record
takes. -/
def unheld : Json := .number (.float (.zero false))

/-- Whether a number is the first half of a character that is written as two escapes. -/
def isHighHalf (n : Nat) : Bool := 0xD800 ≤ n && n < 0xDC00

/-- Whether a number is the second half of such a character. -/
def isLowHalf (n : Nat) : Bool := 0xDC00 ≤ n && n < 0xE000

/-- The character of two halves. -/
def joinHalves (high low : Nat) : Char :=
  Char.ofNat (0x10000 + (high - 0xD800) * 0x400 + (low - 0xDC00))

/-- The rest of a string behind its opening quote: its characters, unless some half of a character
has no other half, and the text behind the closing quote. `high` is a first half that waits for its
second one, `whole` whether all halves in front have met. -/
def stringRest (done : List Char) (high : Option Nat) (whole : Bool) :
    List Char → Option (Option (List Char) × List Char)
  | [] => none
  | '\\' :: 'u' :: a :: b :: c :: d :: rest =>
    match hexQuad? a b c d, high with
    | none, _ => none
    | some n, none =>
      if isHighHalf n then stringRest done (some n) whole rest
      else if isLowHalf n then stringRest done none false rest
      else stringRest (Char.ofNat n :: done) none whole rest
    | some n, some h =>
      if isLowHalf n then stringRest (joinHalves h n :: done) none whole rest
      else stringRest done none false rest
  | '\\' :: c :: rest =>
    match simpleEscape? c with
    | some e => stringRest (e :: done) none (whole && high.isNone) rest
    | none => none
  | c :: rest =>
    let whole := whole && high.isNone
    if c == '\x22' then some (if whole then some done.reverse else none, rest)
    else if c.toNat < 0x20 || c == '\\' then none
    else stringRest (c :: done) none whole rest

/-- The string behind its opening quote, if it can be held, and the text behind it. -/
def quoted? (cs : List Char) : Option (Option String × List Char) :=
  (stringRest [] none true cs).map fun r => (r.1.map String.ofList, r.2)

/-- The digits at the front of a text, and the text behind them. -/
def spanDigits (cs : List Char) : List Char × List Char := cs.span Char.isDigit

/-- The digits behind a point, if there is one. -/
def fraction? : List Char → Option (List Char × List Char)
  | '.' :: cs =>
    match spanDigits cs with
    | ([], _) => none
    | (digits, rest) => some (digits, rest)
  | cs => some ([], cs)

/-- The power of ten behind an `e`, if there is one. -/
def power? (cs : List Char) : Option (Option Int × List Char) :=
  match cs with
  | c :: rest =>
    if c == 'e' || c == 'E' then
      let (negative, rest) :=
        match rest with
        | '-' :: r => (true, r)
        | '+' :: r => (false, r)
        | r => (false, r)
      match spanDigits rest with
      | ([], _) => none
      | (digits, rest) =>
        let n : Int := Text.digitsValue 10 digits
        some (some (if negative then -n else n), rest)
    else some (none, cs)
  | [] => some (none, [])

/-- Whether a text begins with a minus sign, and the text behind it. -/
def sign (cs : List Char) : Bool × List Char :=
  match cs with
  | '-' :: r => (true, r)
  | r => (false, r)

/-- The number at the front of a text, if it can be held, and the text behind it. -/
def number? (cs : List Char) : Option (Option Number × List Char) := do
  let (negative, cs) := sign cs
  let (digits, cs) := spanDigits cs
  match digits with
  | [] => none
  | '0' :: _ :: _ => none
  | _ =>
    let (decimals, cs) ← fraction? cs
    let (power, cs) ← power? cs
    let n := Text.digitsValue 10 (digits ++ decimals)
    let whole : Int := if negative then -n else n
    if decimals.isEmpty && power.isNone && !(negative && n == 0) then
      some (Number.ofInt? whole, cs)
    else
      let x := Binary64.ofDecimal negative n (power.getD 0 - decimals.length)
      some (x.map .float, cs)

mutual

/-- The value at the front of a text, and the text behind it. -/
def value? : Nat → List Char → Option (Json × List Char)
  | 0, _ => none
  | fuel + 1, cs =>
    match skipSpace cs with
    | '\x7b' :: rest =>
      match skipSpace rest with
      | '\x7d' :: rest => some (.object [], rest)
      | rest => (fields? fuel (some []) rest).map fun r => ((r.1.map Json.object).getD unheld, r.2)
    | '[' :: rest =>
      match skipSpace rest with
      | ']' :: rest => some (.array [], rest)
      | rest => (items? fuel [] rest).map fun r => (.array r.1, r.2)
    | '\x22' :: rest => (quoted? rest).map fun r => ((r.1.map Json.string).getD unheld, r.2)
    | 'n' :: rest => (dropWord? ['u', 'l', 'l'] rest).map fun r => (.null, r)
    | 't' :: rest => (dropWord? ['r', 'u', 'e'] rest).map fun r => (.bool true, r)
    | 'f' :: rest => (dropWord? ['a', 'l', 's', 'e'] rest).map fun r => (.bool false, r)
    | rest => (number? rest).map fun r => ((r.1.map Json.number).getD unheld, r.2)

/-- The items of an array up to its closing bracket. -/
def items? : Nat → List Json → List Char → Option (List Json × List Char)
  | 0, _, _ => none
  | fuel + 1, done, cs => do
    let (item, rest) ← value? fuel cs
    match skipSpace rest with
    | ',' :: rest => items? fuel (item :: done) rest
    | ']' :: rest => some ((item :: done).reverse, rest)
    | _ => none

/-- The fields of an object up to its closing brace, unless some key cannot be held. -/
def fields? : Nat → Option (List (String × Json)) → List Char →
    Option (Option (List (String × Json)) × List Char)
  | 0, _, _ => none
  | fuel + 1, done, cs => do
    match skipSpace cs with
    | '\x22' :: rest =>
      let (key, rest) ← quoted? rest
      match skipSpace rest with
      | ':' :: rest =>
        let (value, rest) ← value? fuel rest
        let done :=
          match key, done with
          | some key, some fields => some ((key, value) :: fields)
          | _, _ => none
        match skipSpace rest with
        | ',' :: rest => fields? fuel done rest
        | '\x7d' :: rest => some (done.map List.reverse, rest)
        | _ => none
      | _ => none
    | _ => none

end

/-- The value that a text spells, if it is exactly one value. -/
def read? (text : String) : Option Json := do
  let cs := text.toList
  let (value, rest) ← value? (cs.length + 1) cs
  if (skipSpace rest).isEmpty then some value else none

mutual

/-- The value with the fields of every object sorted by key, the last one of a key kept. -/
def canonical : Json → Json
  | .array items => .array (canonicalItems items)
  | .object fields => .object (Fields.ofList (canonicalFields fields))
  | value => value

/-- Every item in canonical form. -/
def canonicalItems : List Json → List Json
  | [] => []
  | item :: rest => canonical item :: canonicalItems rest

/-- The value of every field in canonical form. -/
def canonicalFields : List (String × Json) → List (String × Json)
  | [] => []
  | (key, value) :: rest => (key, canonical value) :: canonicalFields rest

end

end DocPages.Json
