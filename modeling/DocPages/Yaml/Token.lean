import DocPages.Yaml.BlockScalar
import DocPages.Yaml.FlowScalar
import DocPages.Yaml.TagName

/-!
The tokens of a YAML text. Indentation becomes tokens of its own: a block opens where its first item
stands and closes in front of the first token further left. That a node is a key shows only at the
colon behind it, so the token for a key is put in afterwards.
-/

namespace DocPages.Yaml

/-- A token. -/
inductive Token where
  | version (major minor : Nat)
  | tagHandle (handle start : List Char)
  | documentStart
  | documentEnd
  | sequenceBlock
  | mappingBlock
  | blockEnd
  | openList
  | closeList
  | openMap
  | closeMap
  | entry
  | comma
  | key
  | value
  | alias (name : List Char)
  | anchor (name : List Char)
  | tag (name : TagName)
  | scalar (plain : Bool) (text : List Char)
  deriving DecidableEq, Inhabited

/-- A place where a key may have begun: how many tokens stand in front of it, where it is, and
whether a colon has to follow. -/
structure KeyStart where
  number : Nat
  place : Place
  required : Bool
  deriving Inhabited

/-- The state of reading tokens: the place, the tokens so far (last one first) and their number, the
column right of which a new block begins, with the columns of the blocks around it, whether a key
may begin here, and for each pair of brackets around this place, innermost first, the key that may
have begun in it. The last one of those belongs to the text outside of all brackets. -/
structure Lexer where
  place : Place
  tokens : List Token
  count : Nat
  floor : Nat
  floors : List Nat
  keyAllowed : Bool
  keys : List (Option KeyStart)
  deriving Inhabited

namespace Lexer

/-- The start of a text. The floor is one more than the column of the block around. -/
def start (cs : List Char) : Lexer := ⟨.start cs, [], 0, 0, [], true, [none]⟩

/-- Whether the place stands inside brackets. -/
def inFlow (s : Lexer) : Bool := 1 < s.keys.length

/-- One more token. -/
def emit (s : Lexer) (t : Token) : Lexer := { s with tokens := t :: s.tokens, count := s.count + 1 }

/-- A token put in behind the first `number` ones. -/
def emitAt (s : Lexer) (number : Nat) (t : Token) : Lexer :=
  let behind := s.count - number
  { s with tokens := s.tokens.take behind ++ t :: s.tokens.drop behind, count := s.count + 1 }

/-- The state at another place. -/
def at_ (s : Lexer) (p : Place) : Lexer := { s with place := p }

/-- The state with keys allowed or not. -/
def allow (s : Lexer) (keyAllowed : Bool) : Lexer := { s with keyAllowed := keyAllowed }

/-! ## White space between tokens -/

/-- Passes over white space and comments. A line break allows keys again outside of brackets, where
a tab is white space only while no key may begin. -/
def skipSpaceFrom (inFlow : Bool) : Nat → Bool → Place → Bool × Place
  | 0, allowed, p => (allowed, p)
  | fuel + 1, allowed, p =>
    let p := if p.column == 0 && p.rest.head?.any isByteOrderMark then p.next else p
    let p := p.skipWhile fun c => c == ' ' || ((inFlow || !allowed) && c == '\t')
    let p := if p.rest.head? == some '#' then p.lineEnd else p
    match p.rest with
    | [] => (allowed, p)
    | c :: _ =>
      if isBreak c then skipSpaceFrom inFlow fuel (allowed || !inFlow) p.nextLine else (allowed, p)

/-- Passes over white space and comments. -/
def skipSpace (s : Lexer) : Lexer :=
  let (allowed, p) := skipSpaceFrom s.inFlow (s.place.rest.length + 1) s.keyAllowed s.place
  (s.at_ p).allow allowed

/-! ## Keys -/

/-- The most characters between the start of a key and its colon. -/
def maxKeyLength : Nat := 1024

/-- Whether the colon of a key can no longer come: it stands on the same line, and not too far off.
-/
def isStale (p : Place) (k : KeyStart) : Bool :=
  k.place.line < p.line || k.place.index + maxKeyLength < p.index

/-- Forgets the keys whose colon can no longer come; a key that needs one is refused. -/
def dropStaleKeys? (s : Lexer) : Option Lexer :=
  if s.keys.any fun k => k.any fun k => isStale s.place k && k.required then none
  else some { s with keys := s.keys.map fun k => k.filter fun k => !isStale s.place k }

/-- Forgets the key of the innermost brackets; a key that needs a colon is refused. -/
def dropKey? (s : Lexer) : Option Lexer :=
  match s.keys with
  | some k :: rest => if k.required then none else some { s with keys := none :: rest }
  | _ => some s

/-- Notes that a key may begin here. -/
def saveKey? (s : Lexer) : Option Lexer :=
  if s.keyAllowed then do
    let required := !s.inFlow && s.floor == s.place.column + 1
    let s ← s.dropKey?
    some { s with keys := some ⟨s.count, s.place, required⟩ :: s.keys.drop 1 }
  else some s

/-! ## Blocks -/

/-- Closes the blocks further right than a column; the floor is one more than the column. -/
def closeBlocksFrom (floor : Nat) : List Nat → Lexer → Lexer
  | [], s => s
  | outer :: rest, s =>
    if floor < s.floor then
      closeBlocksFrom floor rest { s.emit .blockEnd with floor := outer, floors := rest }
    else s

/-- Closes the blocks further right than a column. -/
def closeBlocks (s : Lexer) (floor : Nat) : Lexer :=
  if s.inFlow then s else closeBlocksFrom floor s.floors s

/-- Opens a block in a column right of the block around, with its token behind the first `number`
ones. -/
def openBlock (s : Lexer) (column number : Nat) (t : Token) : Lexer :=
  if !s.inFlow && s.floor ≤ column then
    { s.emitAt number t with floor := column + 1, floors := s.floor :: s.floors }
  else s

/-! ## Tokens -/

/-- A token of one character. -/
def single (s : Lexer) (t : Token) : Lexer := (s.emit t).at_ s.place.next

/-- The end of all blocks, as in front of a mark between documents. -/
def endBlocks? (s : Lexer) : Option Lexer :=
  ((s.closeBlocks 0).dropKey?).map fun s => s.allow false

/-- A mark between documents. -/
def documentMark? (s : Lexer) (t : Token) : Option Lexer :=
  s.endBlocks?.map fun s => (s.emit t).at_ (s.place.skip 3)

/-- An opening bracket. -/
def openBracket? (s : Lexer) (t : Token) : Option Lexer :=
  s.saveKey?.map fun s => ({ s with keys := none :: s.keys }.allow true).single t

/-- A closing bracket. Without an opening one the token stands alone. -/
def closeBracket? (s : Lexer) (t : Token) : Option Lexer :=
  s.dropKey?.map fun s =>
    ((if s.inFlow then { s with keys := s.keys.drop 1 } else s).allow false).single t

/-- A comma inside brackets. -/
def comma? (s : Lexer) : Option Lexer := s.dropKey?.map fun s => (s.allow true).single .comma

/-- The dash of an item. -/
def entry? (s : Lexer) : Option Lexer :=
  if !s.inFlow && !s.keyAllowed then none
  else
    let s := s.openBlock s.place.column s.count .sequenceBlock
    s.dropKey?.map fun s => (s.allow true).single .entry

/-- The question mark of a key. -/
def keyMark? (s : Lexer) : Option Lexer :=
  if !s.inFlow && !s.keyAllowed then none
  else
    let s := s.openBlock s.place.column s.count .mappingBlock
    s.dropKey?.map fun s => (s.allow (!s.inFlow)).single .key

/-- The colon behind a key. -/
def colon? (s : Lexer) : Option Lexer :=
  match s.keys with
  | some k :: rest =>
    let s := { s with keys := none :: rest }.emitAt k.number .key
    some (((s.openBlock k.place.column k.number .mappingBlock).allow false).single .value)
  | _ =>
    if !s.inFlow && !s.keyAllowed then none
    else
      let s := s.openBlock s.place.column s.count .mappingBlock
      some ((s.allow (!s.inFlow)).single .value)

/-- Whether a text may follow the name of an anchor. -/
def endsAnchor (cs : List Char) : Bool :=
  atGap cs || cs.head?.any fun c => "?:,]\x7d%@\x60".toList.contains c

/-- The name of an anchor, with one character in front. -/
def anchor? (s : Lexer) (token : List Char → Token) : Option Lexer := do
  let s ← s.saveKey?
  let p := s.place.next
  let name := p.rest.takeWhile isWord
  let p := p.skip name.length
  if !name.isEmpty && endsAnchor p.rest then some (((s.allow false).emit (token name)).at_ p)
  else none

/-- A tag. -/
def tag? (s : Lexer) : Option Lexer := do
  let s ← s.saveKey?
  let (name, rest) ← TagName.read? s.inFlow s.place.rest
  let length := s.place.rest.length - rest.length
  some (((s.allow false).emit (.tag name)).at_ (s.place.skip length))

/-- A scalar below a bar or an angle. -/
def block? (s : Lexer) (literal : Bool) : Option Lexer := do
  let s ← s.dropKey?
  let (text, p) ← blockScalar? literal s.floor s.place
  some (((s.allow true).emit (.scalar false text)).at_ p)

/-- A scalar between quotes. -/
def quoted? (s : Lexer) (quote : Char) : Option Lexer := do
  let s ← s.saveKey?
  let (text, p) ← Yaml.quoted? quote s.place
  some (((s.allow false).emit (.scalar false text)).at_ p)

/-- A plain scalar. Line breaks behind it allow keys again. -/
def plain? (s : Lexer) : Option Lexer := do
  let s ← s.saveKey?
  let (text, broken, p) ← Yaml.plain? s.inFlow s.floor s.place
  some (((s.allow broken).emit (.scalar true text)).at_ p)

/-! ## Directives -/

/-- The digits of a version, at most nine of them, and the text behind. -/
def versionNumber? (cs : List Char) : Option (Nat × List Char) :=
  match cs.span Char.isDigit with
  | ([], _) => none
  | (digits, cs) => if digits.length ≤ 9 then some (Text.digitsValue 10 digits, cs) else none

/-- The version behind the name of its directive. -/
def version? (cs : List Char) : Option (Token × List Char) := do
  let (major, cs) ← versionNumber? (cs.dropWhile isGap)
  match cs with
  | '.' :: cs =>
    let (minor, cs) ← versionNumber? cs
    some (.version major minor, cs)
  | _ => none

/-- The handle and what it stands for, behind the name of the directive. -/
def tagHandle? (cs : List Char) : Option (Token × List Char) := do
  let (handle, cs) ← handle? (cs.dropWhile isGap)
  if !(isClosedHandle handle || handle == ['!']) || !(cs.head?.any isGap) then none
  else
    let (start, cs) ← tagChars? true (cs.dropWhile isGap)
    if !start.isEmpty && atGap cs then some (.tagHandle handle start, cs) else none

/-- A line that begins with a percent sign. -/
def directive? (s : Lexer) : Option Lexer := do
  let s ← s.endBlocks?
  let (name, rest) := (s.place.rest.drop 1).span isWord
  let name := String.ofList name
  let (token, behind) ←
    if !atGap rest then none
    else if name == "YAML" then version? rest
    else if name == "TAG" then tagHandle? rest
    else none
  let p ← (s.place.skip (s.place.rest.length - behind.length)).afterLine?
  some ((s.emit token).at_ p)

/-! ## The whole text -/

/-- Characters that begin something other than a plain scalar. -/
def startsNoPlain (c : Char) : Bool :=
  isGap c || isBreak c || "-?:,[]\x7b\x7d#&*!|>\x27\x22%@\x60".toList.contains c

/-- Whether a plain scalar begins at the front of a text. -/
def startsPlain (inFlow : Bool) (cs : List Char) : Bool :=
  match cs with
  | [] => false
  | c :: rest =>
    !startsNoPlain c || (c == '-' && !(rest.head?.any isGap)) ||
      (!inFlow && (c == '?' || c == ':') && !atGap rest)

/-- The next token, where one begins; none if none can. -/
def token? (s : Lexer) (c : Char) (rest : List Char) : Option Lexer :=
  let gap := atGap rest
  if s.place.column == 0 && c == '%' then s.directive?
  else if s.place.column == 0 && isMark '-' s.place.rest then s.documentMark? .documentStart
  else if s.place.column == 0 && isMark '.' s.place.rest then s.documentMark? .documentEnd
  else if c == '[' then s.openBracket? .openList
  else if c == '\x7b' then s.openBracket? .openMap
  else if c == ']' then s.closeBracket? .closeList
  else if c == '\x7d' then s.closeBracket? .closeMap
  else if c == ',' then s.comma?
  else if c == '-' && gap then s.entry?
  else if c == '?' && (s.inFlow || gap) then s.keyMark?
  else if c == ':' && (s.inFlow || gap) then s.colon?
  else if c == '*' then s.anchor? .alias
  else if c == '&' then s.anchor? .anchor
  else if c == '!' then s.tag?
  else if c == '|' && !s.inFlow then s.block? true
  else if c == '>' && !s.inFlow then s.block? false
  else if c == '\x27' || c == '\x22' then s.quoted? c
  else if startsPlain s.inFlow s.place.rest then s.plain?
  else none

/-- The end of the text: all blocks close. Inside brackets none is open. -/
def finish? (s : Lexer) : Option (List Token) :=
  s.endBlocks?.map fun s => s.tokens.reverse

/-- Reads tokens up to the end of the text. Each step takes at least one character. -/
def run : Nat → Lexer → Option (List Token)
  | 0, _ => none
  | fuel + 1, s =>
    match s.skipSpace.dropStaleKeys? with
    | none => none
    | some s =>
      let s := s.closeBlocks (s.place.column + 1)
      match s.place.rest with
      | [] => s.finish?
      | c :: rest =>
        match s.token? c rest with
        | none => none
        | some s => run fuel s

end Lexer

/-- The tokens of a text; none if it is no YAML. -/
def tokens? (cs : List Char) : Option (List Token) :=
  if cs.all isAllowed then Lexer.run (cs.length + 1) (.start cs) else none

end DocPages.Yaml
