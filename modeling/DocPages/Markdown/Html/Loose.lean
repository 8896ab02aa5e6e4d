import DocPages.Markdown.Event

/-!
Loose lists. A list is loose if a blank line stands between its items or between the blocks of one
of them. The blank line behind an item that is nothing but its mark, and the one behind an item that
ends in an empty quote, do not count, and neither does one right behind the mark of an item.
-/

namespace DocPages.Markdown.Html

/-- The events in front with a piece of white space at their end left out. -/
def dropBlank : List Event → List Event
  | .leaf .blank _ :: rest => rest
  | events => events

/-- Whether a blank line makes an item loose, given the events in front of the line, last one
first. -/
def partsBlocks (front : List Event) : Bool :=
  match dropBlank front with
  | .exit .itemMark _ :: _ => false
  | _ => true

/-- Whether a blank line makes a list loose, given the events in front of the line, last one
first. -/
def partsItems (front : List Event) : Bool :=
  match front with
  | .exit .item _ :: rest =>
    match dropBlank rest with
    | .exit .quote _ :: .exit .quoteMark _ :: _ => false
    | .exit .itemMark _ :: _ => false
    | _ => true
  | _ => true

/-- Whether the item that has been entered holds a blank line of its own that makes it loose.
`depth` groups are open, the item included. -/
def isLooseItem (front : List Event) (depth : Nat) : List Event → Bool
  | [] => false
  | e :: rest =>
    match e with
    | .enter .. => isLooseItem (e :: front) (depth + 1) rest
    | .exit g _ =>
      if depth == 1 && g == .item then false else isLooseItem (e :: front) (depth - 1) rest
    | .leaf l _ =>
      (depth == 1 && l == .blankLine && partsBlocks front) || isLooseItem (e :: front) depth rest

/-- Whether the list `g` that has been entered is loose. `depth` groups are open, the list
included. -/
def isLooseList (g : Group) (front : List Event) (depth : Nat) : List Event → Bool
  | [] => false
  | e :: rest =>
    match e with
    | .enter h _ =>
      (depth == 1 && h == .item && isLooseItem (e :: front) 1 rest) ||
        isLooseList g (e :: front) (depth + 1) rest
    | .exit h _ =>
      if depth == 1 && h == g then false else isLooseList g (e :: front) (depth - 1) rest
    | .leaf l _ =>
      (depth == 1 && l == .blankLine && partsItems front) || isLooseList g (e :: front) depth rest

end DocPages.Markdown.Html
