import DocPages.Json.Basic
import DocPages.Number.Shortest
import DocPages.Text.Ranges

/-!
The compact text of a JSON value: no white space, the fields of an object in the order of their
keys, and only what must be escaped escaped.
-/

namespace DocPages.Json

/-- The digit of base sixteen for a number below sixteen. -/
def hexDigit (n : Nat) : Char := Nat.digitChar n

/-- The characters that stand for one character inside a string. -/
def escapeChar (c : Char) : List Char :=
  match c.toNat with
  | 0x22 => ['\\', '\x22']
  | 0x5C => ['\\', '\\']
  | 0x08 => ['\\', 'b']
  | 0x09 => ['\\', 't']
  | 0x0A => ['\\', 'n']
  | 0x0C => ['\\', 'f']
  | 0x0D => ['\\', 'r']
  | n => if n < 0x20 then ['\\', 'u', '0', '0', hexDigit (n / 16), hexDigit (n % 16)] else [c]

/-- A string between quotes. -/
def quoted (s : String) : List Char :=
  '\x22' :: (s.toList.flatMap escapeChar ++ ['\x22'])

/-- The text of a number. -/
def Number.render : Number → List Char
  | .int n => (if n < 0 then ['-'] else []) ++ Binary64.digitChars n.natAbs
  | .float x => x.render

mutual

/-- The characters of the compact text of a value. -/
def chars : Json → List Char
  | .null => ['n', 'u', 'l', 'l']
  | .bool true => ['t', 'r', 'u', 'e']
  | .bool false => ['f', 'a', 'l', 's', 'e']
  | .number n => n.render
  | .string s => quoted s
  | .array items => '[' :: (itemChars items ++ [']'])
  | .object fields => '\x7b' :: (fieldChars fields ++ ['\x7d'])

/-- The items of an array, with commas between them. -/
def itemChars : List Json → List Char
  | [] => []
  | [item] => chars item
  | item :: rest => chars item ++ ',' :: itemChars rest

/-- The fields of an object, with commas between them. -/
def fieldChars : List (String × Json) → List Char
  | [] => []
  | [(key, value)] => quoted key ++ ':' :: chars value
  | (key, value) :: rest => quoted key ++ ':' :: (chars value ++ ',' :: fieldChars rest)

end

/-- The compact text of a value. -/
def compact (value : Json) : String := String.ofList value.chars

end DocPages.Json
