/-!
Bytes as text of 64 characters, with padding: three bytes become four characters.
-/

namespace DocPages.Text.Base64

/-- The character for a number below 64. -/
def digit (n : Nat) : Char :=
  if n < 26 then Char.ofNat (n + 0x41)
  else if n < 52 then Char.ofNat (n - 26 + 0x61)
  else if n < 62 then Char.ofNat (n - 52 + 0x30)
  else if n == 62 then '+' else '/'

/-- The four characters for three bytes. -/
def group (a b c : Nat) : List Char :=
  [digit (a / 4), digit (a % 4 * 16 + b / 16), digit (b % 16 * 4 + c / 64), digit (c % 64)]

/-- The text of a list of bytes, given as numbers. -/
def encode : List Nat → List Char
  | a :: b :: c :: rest => group a b c ++ encode rest
  | [a, b] => [digit (a / 4), digit (a % 4 * 16 + b / 16), digit (b % 16 * 4), '=']
  | [a] => [digit (a / 4), digit (a % 4 * 16), '=', '=']
  | [] => []

/-- The bytes of the UTF-8 form of a character. -/
def utf8Bytes (c : Char) : List Nat :=
  let n := c.toNat
  if n < 0x80 then [n]
  else if n < 0x800 then [0xC0 + n / 0x40, 0x80 + n % 0x40]
  else if n < 0x10000 then [0xE0 + n / 0x1000, 0x80 + n / 0x40 % 0x40, 0x80 + n % 0x40]
  else [0xF0 + n / 0x40000, 0x80 + n / 0x1000 % 0x40, 0x80 + n / 0x40 % 0x40, 0x80 + n % 0x40]

/-- The text of the UTF-8 form of a text. -/
def ofChars (cs : List Char) : List Char := encode (cs.flatMap utf8Bytes)

end DocPages.Text.Base64
