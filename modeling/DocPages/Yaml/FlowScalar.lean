import DocPages.Yaml.Fold

/-!
Scalars in the running text: plain ones, and those between single or double quotes.
-/

namespace DocPages.Yaml

/-! ## Double quotes -/

/-- The character that a letter behind a backslash stands for. -/
def letterEscape? (c : Char) : Option Nat :=
  match c with
  | '0' => some 0x00
  | 'a' => some 0x07
  | 'b' => some 0x08
  | 't' => some 0x09
  | '\t' => some 0x09
  | 'n' => some 0x0A
  | 'v' => some 0x0B
  | 'f' => some 0x0C
  | 'r' => some 0x0D
  | 'e' => some 0x1B
  | ' ' => some 0x20
  | '\x22' => some 0x22
  | '/' => some 0x2F
  | '\\' => some 0x5C
  | 'N' => some 0x85
  | '_' => some 0xA0
  | 'L' => some 0x2028
  | 'P' => some 0x2029
  | _ => none

/-- How many digits follow a letter that announces the number of a character. -/
def escapeWidth? (c : Char) : Option Nat :=
  match c with
  | 'x' => some 2
  | 'u' => some 4
  | 'U' => some 8
  | _ => none

/-- The character with a number, if there is one. -/
def charOf? (n : Nat) : Option Char := if n.isValidChar then some (Char.ofNat n) else none

/-- The character behind a backslash, and how many characters it takes without the backslash. -/
def escape? : List Char → Option (Char × Nat)
  | [] => none
  | c :: cs =>
    match letterEscape? c, escapeWidth? c with
    | some n, _ => some (Char.ofNat n, 1)
    | none, some width =>
      let digits := cs.take width
      if digits.length == width && digits.all Text.isHexDigit then
        (charOf? (Text.digitsValue 16 digits)).map fun e => (e, width + 1)
      else none
    | none, none => none

/-! ## Quoted scalars -/

/-- The rest of a quoted scalar: its text, and the place behind the closing quote. Each step takes
at least one character. -/
def quotedFrom (quote : Char) : Nat → Fold → Place → Option (List Char × Place)
  | 0, _, _ => none
  | fuel + 1, fold, p =>
    if p.atDocumentMark then none
    else
      match p.rest with
      | [] => none
      | c :: cs =>
        if isGap c then quotedFrom quote fuel (fold.addGap c) p.next
        else if isBreak c then quotedFrom quote fuel (fold.addBreak c) p.nextLine
        else if c == quote then
          if quote == '\x27' && cs.head? == some '\x27' then
            quotedFrom quote fuel (fold.add c) (p.skip 2)
          else some (fold.closed, p.next)
        else if c == '\\' && quote == '\x22' then
          match cs with
          | [] => none
          | d :: _ =>
            if isBreak d then quotedFrom quote fuel fold.addHiddenBreak p.next.nextLine
            else
              match escape? cs with
              | some (e, length) => quotedFrom quote fuel (fold.add e) (p.skip (length + 1))
              | none => none
        else quotedFrom quote fuel (fold.add c) p.next

/-- The quoted scalar at a place. -/
def quoted? (quote : Char) (p : Place) : Option (List Char × Place) :=
  quotedFrom quote p.rest.length .empty p.next

/-! ## Plain scalars -/

/-- A character that ends a plain scalar inside brackets. -/
def isFlowMark (c : Char) : Bool := [',', '[', ']', '\x7b', '\x7d'].contains c

/-- Whether a colon in front of this text must not stand inside brackets. -/
def misplacedColon (cs : List Char) : Bool :=
  match cs with
  | c :: _ => isFlowMark c || c == '?'
  | [] => false

/-- The rest of a plain scalar: what has been folded and the place behind it. Outside of brackets a
line further left than `floor` ends the scalar. -/
def plainFrom (inFlow : Bool) (floor : Nat) : Nat → Fold → Place → Option (Fold × Place)
  | 0, fold, p => some (fold, p)
  | fuel + 1, fold, p =>
    match p.rest with
    | [] => some (fold, p)
    | c :: cs =>
      if isGap c then
        if fold.broken && p.column < floor && c == '\t' then none
        else plainFrom inFlow floor fuel (fold.addGap c) p.next
      else if isBreak c then plainFrom inFlow floor fuel (fold.addBreak c) p.nextLine
      else if fold.pending && !inFlow && p.column < floor then some (fold, p)
      else if p.atDocumentMark || (fold.pending && c == '#') then some (fold, p)
      else if inFlow && c == ':' && misplacedColon cs then none
      else if (c == ':' && atGap cs) || (inFlow && isFlowMark c) then some (fold, p)
      else plainFrom inFlow floor fuel (fold.add c) p.next

/-- The plain scalar at a place. The flag says whether line breaks follow it. -/
def plain? (inFlow : Bool) (floor : Nat) (p : Place) : Option (List Char × Bool × Place) :=
  (plainFrom inFlow floor (p.rest.length + 1) .empty p).map fun (fold, p) =>
    (fold.words, fold.broken, p)

end DocPages.Yaml
