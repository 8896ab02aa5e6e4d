import DocPages.Yaml.Source

/-!
Block scalars: lines below a bar, which keeps their breaks, or below an angle, which folds them.
-/

namespace DocPages.Yaml

/-- What is kept of the line breaks at the end of a block scalar. -/
inductive Chomp where
  | strip
  | clip
  | keep
  deriving DecidableEq, Inhabited

/-- What the first line of a block scalar says: what is kept at its end, and how much further it is
indented than what it stands in. -/
structure BlockHeader where
  chomp : Chomp
  indent : Option Nat
  deriving Inhabited

/-- The sign for what is kept at the end. -/
def chomp? (c : Char) : Option Chomp :=
  if c == '+' then some .keep else if c == '-' then some .strip else none

/-- The number of columns that a digit gives. -/
def indentDigit? (c : Char) : Option Nat :=
  if c.isDigit then some (c.toNat - 0x30) else none

/-- The signs behind the bar or the angle, in either order, and how many they are. -/
def blockSigns (cs : List Char) : BlockHeader × Nat :=
  match cs with
  | [] => (⟨.clip, none⟩, 0)
  | a :: cs =>
    let b := cs.head?
    match chomp? a, indentDigit? a with
    | some chomp, _ =>
      match b.bind indentDigit? with
      | some n => (⟨chomp, some n⟩, 2)
      | none => (⟨chomp, none⟩, 1)
    | none, some n =>
      match b.bind chomp? with
      | some chomp => (⟨chomp, some n⟩, 2)
      | none => (⟨.clip, some n⟩, 1)
    | none, none => (⟨.clip, none⟩, 0)

/-- The header of a block scalar, and the place behind its line. An indent of zero is refused. -/
def blockHeader? (p : Place) : Option (BlockHeader × Place) :=
  let (header, length) := blockSigns p.rest
  if header.indent == some 0 then none
  else ((p.skip length).afterLine?).map fun p => (header, p)

/-- Empty lines in a block scalar: the breaks, the greatest column reached, and the place of the
first character that is not indentation. -/
structure EmptyLines where
  breaks : List Char
  widest : Nat
  place : Place
  deriving Inhabited

/-- Passes over empty lines. Only spaces in front of the column `indent` count as indentation; all
spaces do while the column is not known. A tab there is refused. -/
def emptyLinesFrom (indent : Option Nat) : Nat → List Char → Nat → Place → Option EmptyLines
  | 0, breaks, widest, p => some ⟨breaks, widest, p⟩
  | fuel + 1, breaks, widest, p =>
    let inside := indent.all fun n => p.column < n
    match p.rest with
    | [] => some ⟨breaks, max widest p.column, p⟩
    | c :: _ =>
      if inside && c == ' ' then emptyLinesFrom indent fuel breaks widest p.next
      else if inside && c == '\t' then none
      else if isBreak c then
        emptyLinesFrom indent fuel (breaks ++ breakText c) (max widest p.column) p.nextLine
      else some ⟨breaks, max widest p.column, p⟩

/-- Passes over the empty lines at a place. -/
def emptyLines? (indent : Option Nat) (p : Place) : Option EmptyLines :=
  emptyLinesFrom indent (p.rest.length + 1) [] 0 p

/-- The lines of a block scalar that have been read: their text, the break behind the last one, the
breaks of the empty lines behind it, and whether the last line began with white space. -/
structure BlockText where
  text : List Char
  lastBreak : List Char
  breaks : List Char
  indented : Bool
  deriving Inhabited

/-- What stands between the lines so far and a further one. -/
def BlockText.gap (t : BlockText) (literal indented : Bool) : List Char :=
  if !literal && t.lastBreak == ['\n'] && !t.indented && !indented then
    (if t.breaks.isEmpty then [' '] else t.breaks)
  else t.lastBreak ++ t.breaks

/-- Reads the lines of a block scalar that begin in the column `indent`. -/
def blockLinesFrom (literal : Bool) (indent : Nat) : Nat → BlockText → Place →
    Option (BlockText × Place)
  | 0, t, p => some (t, p)
  | fuel + 1, t, p =>
    match p.rest with
    | [] => some (t, p)
    | c :: _ =>
      if p.column != indent then some (t, p)
      else
        let indented := isGap c
        let line := p.rest.takeWhile fun c => !isBreak c
        let behind := p.lineEnd
        let (lastBreak, behind) :=
          match behind.rest with
          | [] => ([], behind)
          | b :: _ => (breakText b, behind.nextLine)
        match emptyLines? (some indent) behind with
        | none => none
        | some e =>
          blockLinesFrom literal indent fuel
            ⟨t.text ++ t.gap literal indented ++ line, lastBreak, e.breaks, indented⟩ e.place

/-- The text with as much of its end as is kept. -/
def BlockText.closed (t : BlockText) : Chomp → List Char
  | .strip => t.text
  | .clip => t.text ++ t.lastBreak
  | .keep => t.text ++ t.lastBreak ++ t.breaks

/-- The block scalar at a place, where the block around it begins left of the column `floor`. -/
def blockScalar? (literal : Bool) (floor : Nat) (p : Place) : Option (List Char × Place) := do
  let (header, p) ← blockHeader? p.next
  let given := header.indent.map fun n => floor - 1 + n
  let lead ← emptyLines? given p
  let indent := given.getD (max lead.widest (max floor 1))
  let (t, p) ←
    blockLinesFrom literal indent p.rest.length ⟨[], [], lead.breaks, false⟩ lead.place
  some (t.closed header.chomp, p)

end DocPages.Yaml
