import DocPages.Text.Base64
import DocPages.Text.Blank
import DocPages.Text.Ranges

/-!
Addresses as they are written into markup: characters that must not stand in an address are written
as percent signs and digits, and an address with a scheme that is not known to be harmless is left
out.
-/

namespace DocPages.Markdown.Url

/-- The characters of text inside markup: four of them are written as references. -/
def encodeChar (c : Char) : List Char :=
  match c with
  | '&' => ['&', 'a', 'm', 'p', ';']
  | '<' => ['&', 'l', 't', ';']
  | '>' => ['&', 'g', 't', ';']
  | '\x22' => ['&', 'q', 'u', 'o', 't', ';']
  | '\x00' => [Char.ofNat 0xFFFD]
  | c => [c]

/-- Text inside markup. -/
def encode (cs : List Char) : List Char := cs.flatMap encodeChar

/-- A character that stands in an address as it is. -/
def isPlain (c : Char) : Bool :=
  c.isAlphanum || ['!', '#', '$', '&', '\x27', '(', ')', '*', '+', ',', '-', '.', '/', ':', ';',
    '=', '?', '@', '_', '~'].contains c

/-- A byte as a percent sign and two digits. -/
def percent (byte : Nat) : List Char :=
  ['%', (Nat.digitChar (byte / 16)).toUpper, (Nat.digitChar (byte % 16)).toUpper]

/-- Whether two letters or digits follow a percent sign, so that it may stay. -/
def isEscaped (cs : List Char) : Bool :=
  match cs with
  | a :: b :: _ => a.isAlphanum && b.isAlphanum
  | _ => false

/-- An address with the characters that must not stand in it written as percent signs and
digits. -/
def normalize : List Char → List Char
  | [] => []
  | c :: cs =>
    (if isPlain c || (c == '%' && isEscaped cs) then [c]
      else (Text.Base64.utf8Bytes c).flatMap percent) ++ normalize cs

/-- An address as it is written into markup. -/
def sanitize (url : List Char) : List Char := encode (normalize url)

/-- The schemes of links that are kept. -/
def linkSchemes : List String := ["http", "https", "irc", "ircs", "mailto", "xmpp"]

/-- The schemes of images that are kept. -/
def imageSchemes : List String := ["http", "https"]

/-- The scheme of an address: what stands in front of the first colon, if no question mark, number
sign or slash comes before it. -/
def scheme? (url : List Char) : Option (List Char) :=
  let front := url.takeWhile fun c => !([':', '?', '#', '/'].contains c)
  if (url.drop front.length).head? == some ':' then some front else none

/-- An address as it is written into markup; one with another scheme than those given is left
out. -/
def safe (schemes : List String) (url : List Char) : List Char :=
  let url := sanitize url
  match scheme? url with
  | some scheme =>
    if schemes.any fun s => s.toList == Text.asciiLower scheme then url else []
  | none => url

end DocPages.Markdown.Url
