import DocPages.Markdown.Event
import DocPages.Markdown.Flavor
import DocPages.Markdown.Key

/-!
Containers: quotes, items of lists, and notes. Each has a mark where it starts, and each further
line of it has a mark or white space in front.
-/

namespace DocPages.Markdown.Block

/-- An open container. The lines of an item have `width` columns of white space in front; an item is
bare while it is nothing but its mark. -/
inductive Container where
  | quote
  | item (width : Nat) (bare : Bool)
  | note
  deriving DecidableEq, Inhabited

/-- The group of a container. -/
def Container.group : Container → Group
  | .quote => .quote
  | .item .. => .item
  | .note => .note

/-- The mark of a container: what it means, and the rest of the line. -/
structure Marked where
  events : List Event
  rest : List Slot

/-! ## White space -/

/-- Up to `most` columns of white space, and the rest. -/
def upTo (most : Nat) (slots : List Slot) : List Slot × List Slot :=
  let count := min most (slots.takeWhile Slot.isBlank).length
  (slots.take count, slots.drop count)

/-- Exactly `count` columns of white space. -/
def exactly? (count : Nat) (slots : List Slot) : Option Marked :=
  let (space, rest) := upTo count slots
  if space.length == count && count != 0 then some ⟨leafOf .blank space, rest⟩ else none

/-- Whether nothing but white space is left of a line. -/
def isBlankRest (slots : List Slot) : Bool :=
  match slots.dropWhile Slot.isBlank with
  | [] => true
  | s :: _ => s.isBreak

/-! ## Quotes -/

/-- The mark of a quote: `>` with a column of white space that may stand behind it. -/
def quoteMark? (slots : List Slot) : Option Marked :=
  let (indent, rest) := upTo 3 slots
  match rest with
  | s :: behind =>
    if s.char == '>' then
      let (space, rest) := upTo 1 behind
      let stop := Slot.stop (s.pos + 1) space
      some ⟨leafOf .blank indent ++ .enter .quoteMark s.pos :: leafOf .blank space ++
        [.exit .quoteMark stop], rest⟩
    else none
  | [] => none

/-- The start of a quote. -/
def newQuote? (slots : List Slot) : Option (Container × Marked) :=
  (quoteMark? slots).map fun m =>
    (.quote, ⟨.enter .quote (startOf slots) :: m.events, m.rest⟩)

/-! ## Items -/

/-- Whether a line is a rule from here on. -/
def isRuleRest (slots : List Slot) : Bool :=
  match slots with
  | s :: _ =>
    let line := slots.takeWhile fun t => !t.isBreak
    (s.char == '*' || s.char == '-' || s.char == '_') &&
      line.all (fun t => t.char == s.char || t.isBlank) &&
      3 ≤ (line.filter fun t => t.char == s.char).length
  | [] => false

/-- The most digits in the number of an item. -/
def numberDigits : Nat := 9

/-- The number of an item. Where it interrupts a paragraph it is one. -/
def itemNumber? (interrupt : Bool) (slots : List Slot) : Option (List Slot) :=
  let digits := slots.takeWhile fun s => s.char.isDigit
  match slots.drop digits.length with
  | s :: _ =>
    if (s.char == '.' || s.char == ')') && !digits.isEmpty && digits.length ≤ numberDigits
        && (!interrupt || (digits.map Slot.char) == ['1'])
    then some digits else none
  | [] => none

/-- The number of an item, if it has one, and the mark behind it. -/
def itemBullet? (interrupt : Bool) (slots : List Slot) : Option (List Slot × Slot) :=
  match slots with
  | s :: _ =>
    if s.char == '*' || s.char == '-' then if isRuleRest slots then none else some ([], s)
    else if s.char == '+' then some ([], s)
    else
      match itemNumber? interrupt slots with
      | some digits => (slots[digits.length]?).map fun mark => (digits, mark)
      | none => none
  | [] => none

/-- The white space behind the mark of an item: up to four columns, or one if there are more. -/
def itemSpace? (slots : List Slot) : Option (List Slot × List Slot) :=
  let (space, rest) := upTo Slot.tabStop slots
  if space.isEmpty then none
  else if rest.head?.any Slot.isBlank then some (slots.take 1, slots.drop 1)
  else some (space, rest)

/-- The number of columns in front of the text of an item: the characters of its mark, with the
columns of a tab at its ends. A line break of two characters right behind the mark counts for
one. -/
def itemWidth (mark rest : List Slot) : Nat :=
  (Slot.padded mark).length +
    match rest with
    | s :: _ => if s.isBreak then s.source.length - 1 else s.inset - 1
    | [] => 0

/-- The start of an item. An item that is nothing but its mark interrupts no paragraph. -/
def newItem? (interrupt : Bool) (slots : List Slot) : Option (Container × Marked) :=
  let (indent, rest) := upTo 3 slots
  match itemBullet? interrupt rest with
  | none => none
  | some (digits, bullet) =>
    let behind := rest.drop (digits.length + 1)
    let front := .enter .item (startOf slots) :: leafOf .blank indent ++
      .enter .itemMark (startOf rest) :: leafOf .number digits ++ [.leaf .bullet [bullet]]
    if isBlankRest behind then
      if interrupt then none
      else
        let mark := indent ++ digits ++ [bullet]
        some (.item (itemWidth mark behind + 1) true,
          ⟨front ++ [.exit .itemMark (bullet.pos + 1)], behind⟩)
    else
      match itemSpace? behind with
      | none => none
      | some (space, rest) =>
        let mark := indent ++ digits ++ bullet :: space
        some (.item (itemWidth mark rest) false,
          ⟨front ++ leafOf .blank space ++ [.exit .itemMark (Slot.stop 0 space)], rest⟩)

/-! ## Notes -/

/-- The most bytes in a label. -/
def labelBytes : Nat := 999

/-- The label of a note, and the rest of the line from its closing bracket on. `size` counts the
bytes met so far. -/
def noteLabel? (size : Nat) (escaped : Bool) : List Slot → Option (List Slot × List Slot)
  | [] => none
  | s :: rest =>
    let c := s.char
    if labelBytes < size + (c.utf8Size - 1) then none
    else if escaped && (c == '[' || c == '\\' || c == ']') then
      (noteLabel? (size + 1) false rest).map fun r => (s :: r.1, r.2)
    else if isLabelSpace c || c == '[' then none
    else if c == ']' then if size == 0 then none else some ([], s :: rest)
    else (noteLabel? (size + c.utf8Size) (c == '\\') rest).map fun r => (s :: r.1, r.2)

/-- The start of a note, and its label. -/
def newNote? (slots : List Slot) : Option (List Slot × Marked) :=
  let (indent, rest) := upTo 3 slots
  match rest with
  | bracket :: caret :: inside =>
    if bracket.char == '[' && caret.char == '^' then
      match noteLabel? 0 false inside with
      | some (label, _ :: colon :: behind) =>
        if colon.char == ':' then
          let space := behind.takeWhile Slot.isBlank
          some (label,
            ⟨.enter .note (startOf slots) :: leafOf .blank indent ++
              .enter .noteMark bracket.pos :: .leaf .noteLabel label :: leafOf .blank space ++
              [.exit .noteMark (Slot.stop (colon.pos + 1) space)],
              behind.drop space.length⟩)
        else none
      | _ => none
    else none
  | _ => none

/-! ## Further lines -/

/-- The mark of a further line of a container; nothing if the line does not belong to it. -/
def Container.further? (c : Container) (slots : List Slot) : Option Marked :=
  match c with
  | .quote => quoteMark? slots
  | .item width bare =>
    if isBlankRest slots then
      if bare then none
      else
        let (space, rest) := upTo width slots
        some ⟨leafOf .blank space, rest⟩
    else exactly? width slots
  | .note =>
    if isBlankRest slots then
      let (space, rest) := upTo Slot.tabStop slots
      some ⟨leafOf .blank space, rest⟩
    else exactly? Slot.tabStop slots

/-- A container behind a line that may belong to it: an item is bare no more once a line with text
has come. -/
def Container.behind (c : Container) (slots : List Slot) : Container :=
  match c with
  | .item width bare => .item width (bare && isBlankRest slots)
  | c => c

end DocPages.Markdown.Block
