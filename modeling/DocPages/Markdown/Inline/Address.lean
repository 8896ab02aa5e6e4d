import DocPages.Markdown.Inline.Target
import DocPages.Text.Punctuation
import DocPages.Text.Search

/-!
Addresses that are links by themselves: between angle brackets, or standing free in a text. Each
recogniser of a free address answers with the number of slots that belong to the address.
-/

namespace DocPages.Markdown.Inline

/-! ## Between angle brackets -/

/-- A character of a scheme behind its first letter. -/
def isSchemeChar (c : Char) : Bool := c.isAlphanum || c == '+' || c == '.' || c == '-'

/-- A character of an address with a scheme. -/
def isUriChar (c : Char) : Bool := 0x20 < c.toNat && c.toNat != 0x7F && c != '<' && c != '>'

/-- Whether a text is an address with a scheme. -/
def isUri (cs : List Char) : Bool :=
  let scheme := cs.takeWhile isSchemeChar
  cs.head?.any Char.isAlpha && 2 ≤ scheme.length && scheme.length ≤ 32 &&
    cs[scheme.length]? == some ':'

/-- A character of the part of a mail address in front of the `@`. -/
def isUserChar (c : Char) : Bool :=
  c.isAlphanum || ['.', '#', '$', '%', '&', '\x27', '*', '+', '/', '=', '?', '^', '_', '\x60',
    '\x7b', '|', '\x7d', '~', '-'].contains c

/-- A part of a host name between dots. -/
def isHostPart (part : List Char) : Bool :=
  part.length ≤ 63 && part.head?.any Char.isAlphanum && part.getLast?.any Char.isAlphanum &&
    part.all fun c => c.isAlphanum || c == '-'

/-- Whether a text is a mail address. -/
def isMail (cs : List Char) : Bool :=
  let user := cs.takeWhile isUserChar
  match cs.drop user.length with
  | '@' :: host => !user.isEmpty && (Text.splitBy (· == '.') host).all isHostPart
  | _ => false

/-- An address between angle brackets. -/
def enclosedAddress (slots : List Slot) : Try (List Event) :=
  let inside := (slots.drop 1).takeWhile fun s => isUriChar s.char
  let behind := slots.drop (inside.length + 1)
  let cs := inside.map Slot.char
  if (behind.head?.map Slot.char) != some '>' then .error slots
  else if isUri cs then .ok ⟨leafOf (.address .written false) inside, behind.drop 1⟩
  else if isMail cs then .ok ⟨leafOf (.address .mail false) inside, behind.drop 1⟩
  else .error slots

/-! ## Standing free

The character behind the text at hand counts, too: what stands there may end an address. -/

/-- Punctuation of ASCII or of any script. -/
def isPunct (c : Char) : Bool := Text.isAsciiPunctuation c || Text.isPunctuation c

/-- Neither white space nor punctuation. -/
def isWordChar (c : Char) : Bool := !Text.isBlank c && !isPunct c

/-- Where the search for the end of an address stands. -/
inductive Trail where
  | plain
  | referenceStart
  | reference
  | bracket

/-- Punctuation that does not belong to an address at whose end it stands. -/
def isTrailing (c : Char) : Bool :=
  ['!', '\x22', '\x27', ')', '*', ',', '.', ':', ';', '?', '_', '~'].contains c

/-- Whether nothing but punctuation and references stands in front of white space, or of another end
of an address. `ending` is the character behind the text. -/
def trails (ending : Option Char) : Trail → List Char → Bool
  | .plain, [] => ending.all Text.isBlank
  | .referenceStart, [] => false
  | .reference, [] => false
  | .bracket, [] => true
  | .plain, c :: cs =>
    if isTrailing c then trails ending .plain cs
    else if c == '&' then trails ending .referenceStart cs
    else if c == ']' then trails ending .bracket cs
    else c == '<' || Text.isBlank c
  | .referenceStart, c :: cs => c.isAlpha && trails ending .reference cs
  | .reference, c :: cs =>
    if c.isAlpha then trails ending .reference cs
    else c == ';' && trails ending .plain cs
  | .bracket, c :: cs =>
    if c == '\t' || c == '\n' || c == ' ' || c == '(' || c == '[' then true
    else if isTrailing c then trails ending .plain cs
    else if c == '&' then trails ending .referenceStart cs
    else if c == ']' then trails ending .bracket cs
    else c == '<' || Text.isBlank c

/-- The length of the path of an address; `opened` parentheses have been opened and `closed` of
them closed. -/
def path (ending : Option Char) (opened closed : Nat) : List Char → Nat
  | [] => 0
  | c :: cs =>
    if c == '(' then path ending (opened + 1) closed cs + 1
    else if c == ')' && closed < opened then path ending opened (closed + 1) cs + 1
    else if isTrailing c || c == '&' || c == '<' || c == ']' then
      if trails ending .plain (c :: cs) then 0
      else path ending opened (if c == ')' then closed + 1 else closed) cs + 1
    else if Text.isBlank c then 0
    else path ending opened closed cs + 1

/-- The length of an address from its host on. The flags say whether there is an underscore in the
last part of the host and in the one before, and whether there is a word at all. -/
def host? (ending : Option Char) (last previous word : Bool) : List Char → Option Nat
  | [] => if last || previous || !word then none else some 0
  | c :: cs =>
    if (c == '.' || c == '_') && !trails ending .plain (c :: cs) then
      (if c == '_' then host? ending true previous word cs
        else host? ending false last word cs).map (· + 1)
    else if c == '-' then (host? ending last previous word cs).map (· + 1)
    else if c != '.' && c != '_' && isWordChar c then
      (host? ending last previous true cs).map (· + 1)
    else if last || previous || !word then none
    else some (path ending 0 0 (c :: cs))

/-- Whether slots start with `needle`, whatever the case of letters. -/
def startsLower (needle : List Char) (slots : List Slot) : Bool :=
  Text.asciiLower ((slots.take needle.length).map Slot.char) == needle

/-- The length of a host and what belongs to it, behind the first `skip` slots. -/
def hostBehind? (skip : Nat) (slots : List Slot) : Option Nat :=
  let ending := slots.getLast?.bind Slot.behind
  (host? ending false false false ((slots.drop skip).map Slot.char)).map (· + skip)

/-- The length of an address with a scheme. -/
def schemed? (previous : Option Char) (slots : List Slot) : Option Nat :=
  if previous.any Char.isAlpha then none
  else if startsLower ['h', 't', 't', 'p', ':', '/', '/'] slots then hostBehind? 7 slots
  else if startsLower ['h', 't', 't', 'p', 's', ':', '/', '/'] slots then hostBehind? 8 slots
  else none

/-- Whether an address without a scheme may start behind a character. -/
def mayStartHost (previous : Option Char) : Bool :=
  previous.all fun c => ['\t', '\n', ' ', '(', '*', '_', '[', ']', '~'].contains c

/-- The length of an address without a scheme. -/
def hosted? (previous : Option Char) (slots : List Slot) : Option Nat :=
  if mayStartHost previous && startsLower ['w', 'w', 'w', '.'] slots && !(slots.drop 4).isEmpty
  then hostBehind? 0 slots
  else none

/-- A free address. -/
def freeAddress (previous : Option Char) (slots : List Slot) : Try (List Event) :=
  let web := slots.head?.any fun s => s.char == 'w' || s.char == 'W'
  match if web then hosted? previous slots else schemed? previous slots with
  | some length =>
    .ok ⟨leafOf (.address (if web then .web else .written) true) (slots.take length),
      slots.drop length⟩
  | none => .error slots

/-! ## Mail addresses in a text -/

/-- A character of the part of a free mail address in front of the `@`. -/
def isMailChar (c : Char) : Bool := c.isAlphanum || c == '+' || c == '-' || c == '.' || c == '_'

/-- The length of the host of a mail address. The flag `dot` says whether a dot has been met, and
`front` is the character in front. -/
def mailHost? (slashes dot : Bool) (front : Option Char) : List Char → Option Nat
  | [] => if dot && front.any Char.isAlpha then some 0 else none
  | c :: cs =>
    if c.isAlphanum || c == '-' || c == '_' || (slashes && c == '/') then
      (mailHost? slashes dot (some c) cs).map (· + 1)
    else if c == '.' && cs.head?.any Char.isAlphanum then
      (mailHost? slashes true (some c) cs).map (· + 1)
    else if dot && front.any Char.isAlpha then some 0
    else none

/-- The scheme that is written in front of a mail address, last slot first, with its colon. -/
def mailScheme (back : List Slot) : List Slot :=
  match back with
  | colon :: rest =>
    if colon.char == ':' then
      let name := rest.takeWhile fun s => s.char.isAlphanum
      let word := Text.asciiLower ((name.map Slot.char).reverse)
      if word == ['x', 'm', 'p', 'p'] || word == ['m', 'a', 'i', 'l', 't', 'o'] then colon :: name
      else []
    else []
  | [] => []

/-- A mail address around an `@`, which is the first slot of `rest`: the number of slots in front
that belong to it, last one first, the number of those from the `@` on, and whether a scheme is
written. -/
def mailAround? (back rest : List Slot) : Option (Nat × Nat × Bool) :=
  let user := back.takeWhile fun s => isMailChar s.char
  let front := back.drop user.length
  if user.isEmpty || (front.head?.map Slot.char) == some '/' then none
  else
    let scheme := mailScheme front
    let slashes := scheme.length == 5
    (mailHost? slashes false none ((rest.drop 1).map Slot.char)).map fun length =>
      (user.length + scheme.length, length + 1, !scheme.isEmpty)

/-- The pieces of a text with its mail addresses. `back` are the slots since the last address, last
one first, and `skip` slots have been dealt with. No address starts right behind another one. -/
def splitMail : Nat → List Slot → List Slot → List Event
  | _, back, [] => leafOf .data back.reverse
  | skip + 1, back, _ :: rest => splitMail skip back rest
  | 0, back, s :: rest =>
    match if s.char == '@' then mailAround? back (s :: rest) else none with
    | some (front, length, written) =>
      let slots := (back.take front).reverse ++ (s :: rest).take length
      let scheme : Scheme := if written then .written else .mail
      leafOf .data (back.drop front).reverse ++ .leaf (.address scheme true) slots ::
        match (s :: rest)[length]? with
        | some next => splitMail length [next] rest
        | none => []
    | none => splitMail 0 (s :: back) rest

/-- The events of a text with its mail addresses; `links` links are open. -/
def withMail (links : Nat) : List Event → List Event
  | [] => []
  | .leaf .data slots :: rest =>
    (if links == 0 then splitMail 0 [] slots else [.leaf .data slots]) ++ withMail links rest
  | .enter .link pos :: rest => .enter .link pos :: withMail (links + 1) rest
  | .exit .link pos :: rest => .exit .link pos :: withMail (links - 1) rest
  | e :: rest => e :: withMail links rest

end DocPages.Markdown.Inline
