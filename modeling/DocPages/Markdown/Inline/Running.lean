import DocPages.Markdown.Inline.Address
import DocPages.Markdown.Inline.Bracket
import DocPages.Markdown.Inline.Code
import DocPages.Markdown.Inline.Emphasis
import DocPages.Markdown.Inline.Tag

/-!
Running text: what the lines of a paragraph, a heading or a cell hold. The text is read once from
front to back; then brackets, emphasis, white space and mail addresses are put in place, in this
order.
-/

namespace DocPages.Markdown.Inline

namespace Progress

/-- The character in front of the rest of a text. At the start of a line that comes behind marks of
containers it is the last one of the marks, unless a failed reading has been there before. -/
def previous? (p : Progress) : Option Char :=
  match p.front, p.rest with
  | some t, s :: _ =>
    if t.isBreak && !s.gap.isEmpty && p.reach ≤ t.pos then s.gap.getLast? else some t.char
  | some t, [] => some t.char
  | none, _ => none

/-- Code or a formula. Its marks must not go on with marks of the same kind in front, other than one
behind a backslash. -/
def readCode (p : Progress) (mark : Char) : Progress :=
  let apart := match p.events with
    | .leaf .escaped _ :: _ => true
    | _ => p.previous? != some mark
  if apart then p.attempt (codeSpan p.rest) plain else p.plain

/-- Goes on at a character that may be escaped. A line break behind a backslash is a hard one. -/
def readEscape (p : Progress) : Progress :=
  match p.rest with
  | backslash :: rest =>
    match escaped? p.rest with
    | some m => p.meet ⟨[.leaf .escaped m.value], m.rest⟩
    | none =>
      if rest.head?.any Slot.isBreak then p.meet ⟨[.leaf .hardBreak [backslash]], rest⟩
      else p.plain
  | [] => p

/-- Goes on at an opening bracket. -/
def readOpening (k : Known) (p : Progress) : Progress :=
  if k.flavor.extended && (p.rest[1]?.map Slot.char) == some '^' then p.opens .note 2
  else p.opens .link 1

/-- Goes on at an exclamation mark. In front of a note it is plain text. -/
def readImage (k : Known) (p : Progress) : Progress :=
  let bracket := (p.rest[1]?.map Slot.char) == some '['
  let caret := (p.rest[2]?.map Slot.char) == some '^'
  if bracket && !(k.flavor.extended && caret) then p.opens .image 2 else p.plain

/-- Goes on behind a run of marks of emphasis. -/
def readRun (p : Progress) (mark : Char) : Progress :=
  let slots := p.rest.takeWhile fun s => s.char == mark
  p.meet ⟨[.leaf .run slots], p.rest.drop slots.length⟩

/-- Goes on by one part of a text. -/
def step (k : Known) (p : Progress) : Progress :=
  match p.rest with
  | [] => p
  | s :: behind =>
    let c := s.char
    if c == '!' then p.readImage k
    else if c == '\x60' || (c == '$' && k.flavor.math) then p.readCode c
    else if c == '&' then
      match characterReference? p.rest with
      | some m => p.meet ⟨[.leaf .characterReference m.value], m.rest⟩
      | none => p.plain
    else if c == '*' || c == '_' || (c == '~' && k.flavor.extended) then p.readRun c
    else if c == '<' then
      p.attempt (enclosedAddress p.rest) fun p =>
        if k.flavor.rawHtml then p.attempt (rawMarkup p.rest) plain else p.plain
    else if (c == 'h' || c == 'H' || c == 'w' || c == 'W') && k.flavor.extended then
      p.attempt (freeAddress p.previous? p.rest) plain
    else if c == '[' then p.readOpening k
    else if c == '\\' then p.readEscape
    else if c == ']' then closeBracket k p s behind
    else p.plain

/-- Goes on to the end of a text. The first argument bounds the number of parts. -/
def finish (k : Known) : Nat → Progress → Progress
  | 0, p => p
  | fuel + 1, p => if p.rest.isEmpty then p else finish k fuel (step k p)

end Progress

/-! ## Boxes -/

/-- Whether a text whose paragraph has just been entered is the first one of an item, given the
events in front, last one first. -/
def isFirstInItem : List Event → Bool
  | .enter .paragraph _ :: before =>
    !(before.drop 1).isEmpty &&
      match Event.passBack ⟨[.blankLine, .lineEnding, .blank], [.definition]⟩ before with
      | .exit .itemMark _ :: _ => true
      | _ => false
  | _ => false

/-- The box of a task in front of a text. Something has to follow it. -/
def box? (slots : List Slot) : Option (Met (List Event)) :=
  match slots with
  | opening :: s :: closing :: rest =>
    let checked := s.char == 'x' || s.char == 'X'
    let follows :=
      match rest with
      | t :: _ => t.isBreak || (t.isBlank && !(rest.dropWhile Slot.isBlank).isEmpty)
      | [] => false
    if opening.char == '[' && closing.char == ']' && (checked || s.isBlank || s.isBreak) && follows
    then some ⟨[.leaf (.box checked) [opening, s, closing]], rest⟩
    else none
  | _ => none

/-! ## All parts -/

/-- The events of a running text, given the events in front of it, last one first. -/
def textEvents (k : Known) (front : List Event) (slots : List Slot) : List Event :=
  let p := Progress.start slots
  let p :=
    if k.flavor.extended && isFirstInItem front then
      match box? slots with
      | some m => p.meet m
      | none => p
    else p
  let p := p.finish k (slots.length + 1)
  let events := Progress.placeOpeners p.matched [] p.events.reverse
  let events := trimAll true true none (joinData (withEmphasis k.flavor.extended events))
  if k.flavor.extended then withMail 0 events else events

end DocPages.Markdown.Inline
