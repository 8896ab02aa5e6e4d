import DocPages.Markdown.Flavor
import DocPages.Markdown.Inline.Plain
import DocPages.Markdown.Key

/-!
Brackets: a text read up to some place, with the opening brackets that wait for their end, and what
happens at a closing bracket. Behind the end of a label its target may stand, or another label, or
nothing if the label itself is defined. A link holds no other link, so the end of a link makes the
openings of links around it stand for themselves.
-/

namespace DocPages.Markdown.Inline

/-- The labels that a page defines, and those of its notes. -/
structure Known where
  flavor : Flavor
  labels : List (List Char)
  notes : List (List Char)

/-- What an opening bracket begins. A note whose label is not known may turn out to be a link with
a caret in front of its text. -/
inductive Opening where
  | link
  | image
  | note
  | caret
  deriving DecidableEq, Inhabited

/-- The group that an opening bracket begins. -/
def Opening.group : Opening → Group
  | .link => .link
  | .image => .image
  | .note => .call
  | .caret => .link

/-- An opening bracket that waits for its end: where it stands, the slots behind it, and whether it
may only be the bracket that balances another one. -/
structure Opener where
  kind : Opening
  slots : List Slot
  behind : List Slot
  inactive : Bool
  deriving Inhabited

/-- An opening bracket that has met its end. -/
structure Matched where
  kind : Opening
  pos : Nat

/-- A text read up to some place: what is left, the slot in front, the events met so far, last one
first, the opening brackets that wait, innermost one first, and those that have met their end.
`reach` is the position that failed readings have come to, and `stop` the one behind the text. -/
structure Progress where
  rest : List Slot
  front : Option Slot
  events : List Event
  openers : List Opener
  matched : List Matched
  reach : Nat
  stop : Nat

namespace Progress

/-- The start of a text. -/
def start (slots : List Slot) : Progress := ⟨slots, none, [], [], [], 0, Slot.stop 0 slots⟩

/-- The slots in front of the rest of a text. -/
def passed (slots rest : List Slot) : List Slot :=
  match rest with
  | [] => slots
  | s :: _ => slots.takeWhile fun t => t.pos < s.pos

/-- Goes on behind what has been met. -/
def meet (p : Progress) (m : Met (List Event)) : Progress :=
  { p with
    rest := m.rest
    front := (passed p.rest m.rest).getLast?.or p.front
    events := m.value.reverse ++ p.events }

/-- Notes how far a failed reading has come. -/
def fail (p : Progress) (left : List Slot) : Progress :=
  { p with reach := max p.reach ((left.head?.map Slot.pos).getD p.stop) }

/-- Goes on behind a reading, or in another way if it fails. -/
def attempt (p : Progress) (t : Try (List Event)) (otherwise : Progress → Progress) : Progress :=
  match t with
  | .ok m => p.meet m
  | .error left => otherwise (p.fail left)

/-! ## Plain text -/

/-- A character that may start more than plain text. -/
def isMarker (c : Char) : Bool :=
  ['!', '$', '&', '*', '<', 'H', 'W', '[', '\\', ']', '_', '\x60', 'h', 'w', '\x7b', '~'].contains c

/-- Plain text up to the next marker, with its line breaks, given the piece at hand, last slot
first. -/
def plainFrom (part : List Slot) : List Slot → Met (List Event)
  | [] => ⟨leafOf .data part.reverse, []⟩
  | s :: rest =>
    if isMarker s.char then ⟨leafOf .data part.reverse, s :: rest⟩
    else if s.isBreak then
      let m := plainFrom [] rest
      ⟨leafOf .data part.reverse ++ .leaf .lineEnding [s] :: m.value, m.rest⟩
    else plainFrom (s :: part) rest

/-- Goes on behind plain text. A marker in front is a part of it. -/
def plain (p : Progress) : Progress :=
  match p.rest with
  | [] => p
  | s :: rest => p.meet (if isMarker s.char then plainFrom [s] rest else plainFrom [] (s :: rest))

/-! ## Opening brackets -/

/-- Goes on behind an opening bracket of `size` slots. -/
def opens (p : Progress) (kind : Opening) (size : Nat) : Progress :=
  let slots := p.rest.take size
  let behind := p.rest.drop size
  { p.meet ⟨[.leaf .opener slots], behind⟩ with
    openers := ⟨kind, slots, behind, false⟩ :: p.openers }

/-! ## Closing brackets -/

/-- A label in brackets behind the end of another one, if it is defined. -/
def fullReferral (k : Known) (slots : List Slot) : Try (List Event) :=
  match label slots with
  | .ok m =>
    if k.labels.contains (labelKey (Slot.spelled m.value)) then
      let start := startOf slots
      .ok ⟨.enter .referral start :: .leaf .reference m.value :: breaksOf m.value ++
        [.exit .referral (Slot.stop start (passed slots m.rest))], m.rest⟩
    else .error m.rest
  | .error left => .error left

/-- Empty brackets behind the end of a label, which say that the label itself is meant. -/
def emptyReferral (slots : List Slot) : Try (List Event) :=
  match slots with
  | opening :: closing :: rest =>
    if opening.char == '[' && closing.char == ']' then
      .ok ⟨[.enter .referral opening.pos, .exit .referral (closing.pos + 1)], rest⟩
    else .error (closing :: rest)
  | _ => .error []

/-- The label in front of a closing bracket, ready to be put behind its opening bracket: whether it
is known, and how it is spelled. -/
structure Label where
  opener : Opener
  kind : Opening
  slots : List Slot
  closing : Slot
  behind : List Slot

/-- The slots that name what a label refers to. -/
def Label.name (l : Label) : List Slot :=
  if l.kind == .caret then l.opener.slots.drop 1 ++ l.slots else l.slots

/-- Whether a label is defined. -/
def Label.isDefined (l : Label) (k : Known) : Bool :=
  let key := labelKey (Slot.spelled l.slots)
  k.labels.contains (if l.kind == .caret then '^' :: key else key)

/-- Meets the end of a label with what is behind it. Around a link no opening bracket starts another
one any more. -/
def closes (p : Progress) (l : Label) (m : Met (List Event)) : Progress :=
  let outer := p.openers.drop 1
  let outer :=
    if l.kind == .image then outer
    else outer.map fun o => if o.kind == .image then o else { o with inactive := true }
  let stop := Slot.stop 0 (passed p.rest m.rest)
  let events := .exit .labelText l.closing.pos :: .exit .label (l.closing.pos + 1) ::
    .leaf .reference l.name :: m.value ++ [.exit l.kind.group stop]
  { p.meet ⟨events, m.rest⟩ with
    openers := outer
    matched := ⟨l.kind, startOf l.opener.slots⟩ :: p.matched }

/-- Gives up the innermost opening bracket, and takes the closing one as plain text. -/
def balance (p : Progress) : Progress := plain { p with openers := p.openers.drop 1 }

/-- The end of a label that is not the one of a known note. -/
def closeTarget (k : Known) (p : Progress) (l : Label) : Progress :=
  let bare (p : Progress) : Progress :=
    if l.isDefined k then p.closes l ⟨[], l.behind⟩ else p.balance
  let closeWith (p : Progress) (behind : Try (List Event)) (otherwise : Progress → Progress) :=
    match behind with
    | .ok m => p.closes l m
    | .error left => otherwise (p.fail left)
  match l.behind.head?.map Slot.char with
  | some '(' => closeWith p (target l.behind) bare
  | some '[' =>
    closeWith p (fullReferral k l.behind) fun p =>
      if l.isDefined k then closeWith p (emptyReferral l.behind) balance else p.balance
  | _ => bare p

/-- Goes on at a closing bracket. -/
def closeBracket (k : Known) (p : Progress) (closing : Slot) (behind : List Slot) : Progress :=
  match p.openers with
  | [] => p.plain
  | o :: _ =>
    if o.inactive then p.balance
    else
      let slots := passed o.behind p.rest
      if o.kind == .note then
        if k.notes.contains (labelKey (Slot.spelled slots)) then
          p.closes ⟨o, .note, slots, closing, behind⟩ ⟨[], behind⟩
        else closeTarget k p ⟨o, .caret, slots, closing, behind⟩
      else closeTarget k p ⟨o, o.kind, slots, closing, behind⟩

/-! ## All brackets -/

/-- The events of a text with its opening brackets in place, given last one first: those that have
met their end enter a group, and the others are plain text. `caret` is put behind the openings that
follow at once. -/
def placeOpeners (matched : List Matched) (caret : List Event) : List Event → List Event
  | [] => caret
  | .leaf .opener slots :: rest =>
    match matched.find? fun m => m.pos == startOf slots with
    | some m =>
      let pos := startOf slots
      let own := if m.kind == .caret then leafOf .data (slots.drop 1) else []
      let inside := Slot.stop pos slots
      .enter m.kind.group pos :: .enter .label pos ::
        (caret ++ .enter .labelText inside :: placeOpeners matched own rest)
    | none => caret ++ .leaf .data slots :: placeOpeners matched [] rest
  | e :: rest => caret ++ e :: placeOpeners matched [] rest

end Progress

end DocPages.Markdown.Inline
