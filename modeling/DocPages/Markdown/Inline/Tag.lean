import DocPages.Markdown.Inline.Target
import DocPages.Markdown.TagEnd
import DocPages.Text.Search

/-!
Raw markup inside a text: tags, comments, instructions, declarations and literal sections, from `<`
up to the end that belongs to them. It may reach over line breaks; the white space in front of a
further line is dropped.
-/

namespace DocPages.Markdown.Inline

/-- Goes on through the inside of a tag up to its closing `>`. -/
def throughTag (place : TagPlace) : List Slot → Except (List Slot) (List Slot)
  | [] => .error []
  | s :: rest =>
    match place.next? false s.char with
    | some .closed => .ok rest
    | some next => throughTag next rest
    | none => .error (s :: rest)

/-- Goes on behind the next `needle`. -/
def through (needle : List Char) (slots : List Slot) : Except (List Slot) (List Slot) :=
  match Text.before? needle (slots.map Slot.char) with
  | some front => .ok (slots.drop (front.length + needle.length))
  | none => .error []

/-- Goes on behind a comment, from the slot behind its opening on. It may end at once. -/
def throughComment (slots : List Slot) : Except (List Slot) (List Slot) :=
  match slots.map Slot.char with
  | '>' :: _ => .ok (slots.drop 1)
  | '-' :: '>' :: _ => .ok (slots.drop 2)
  | _ => through ['-', '-', '>'] slots

/-- Whether `wanted` stands in front, and the slots from the first one on that differs. -/
def expect (wanted : List Char) (slots : List Slot) : Except (List Slot) (List Slot) :=
  let met := (slots.zip wanted).takeWhile fun p => p.1.char == p.2
  if met.length == wanted.length then .ok (slots.drop met.length)
  else .error (slots.drop met.length)

/-- Goes on behind what starts with `<!`. -/
def throughDeclaration (slots : List Slot) : Except (List Slot) (List Slot) :=
  match slots with
  | [] => .error []
  | s :: rest =>
    if s.char == '-' then
      match expect ['-'] rest with
      | .ok rest => throughComment rest
      | .error left => .error left
    else if s.char == '[' then
      match expect ['C', 'D', 'A', 'T', 'A', '['] rest with
      | .ok rest => through [']', ']', '>'] rest
      | .error left => .error left
    else if s.char.isAlpha then through ['>'] rest
    else .error slots

/-- Goes on behind a tag, from its name on. -/
def throughName (closing : Bool) (slots : List Slot) : Except (List Slot) (List Slot) :=
  match slots with
  | [] => .error []
  | s :: rest =>
    if s.char.isAlpha then
      let behind := rest.dropWhile fun t => isTagNameChar t.char
      if closing then throughTag .space behind
      else
        match behind with
        | t :: _ =>
          if isTagSpace t.char || t.char == '/' || t.char == '>' then throughTag .between behind
          else .error behind
        | [] => .error []
    else .error slots

/-- Goes on behind raw markup, from the slot behind its `<` on. -/
def throughMarkup (slots : List Slot) : Except (List Slot) (List Slot) :=
  match slots with
  | [] => .error []
  | s :: rest =>
    if s.char == '!' then throughDeclaration rest
    else if s.char == '/' then throughName true rest
    else if s.char == '?' then through ['?', '>'] rest
    else throughName false slots

/-- The pieces of raw markup. The flag says that nothing but white space has been met behind a line
break. -/
def markupLeaves (behindBreak : Bool) (part : List Slot) : List Slot → List Event
  | [] => leafOf .markupLine part.reverse
  | s :: rest =>
    if s.isBreak then
      leafOf .markupLine part.reverse ++ .leaf .lineEnding [s] :: markupLeaves true [] rest
    else if behindBreak && s.isBlank then markupLeaves true part rest
    else markupLeaves false (s :: part) rest

/-- Raw markup. -/
def rawMarkup (slots : List Slot) : Try (List Event) :=
  match slots with
  | [] => .error []
  | s :: rest =>
    match throughMarkup rest with
    | .error left => .error left
    | .ok behind =>
      let whole := slots.take (slots.length - behind.length)
      .ok ⟨.enter .tag s.pos :: markupLeaves false [] whole ++ [.exit .tag (Slot.stop 0 whole)],
        behind⟩

end DocPages.Markdown.Inline
