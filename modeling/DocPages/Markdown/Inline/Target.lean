import DocPages.Markdown.Block.Container

/-!
Where links lead: labels, destinations and titles, the definitions that give a label its target, and
the targets written behind a link. What is read may reach over line breaks.
-/

namespace DocPages.Markdown.Inline

/-- What has been read, and the slots behind it. -/
structure Met (α : Type) where
  value : α
  rest : List Slot

/-- A reading from a place in a text. One that fails gives the slots that it has not come to. -/
abbrev Try (α : Type) := Except (List Slot) (Met α)

/-- A leaf for each line break. -/
def breaksOf (slots : List Slot) : List Event :=
  (slots.filter Slot.isBreak).map fun s => .leaf .lineEnding [s]

/-- White space with up to one line break in it, and the slots behind it. -/
def splitSpace (slots : List Slot) : List Slot × List Slot :=
  let space := slots.takeWhile Slot.isBlank
  match slots.drop space.length with
  | s :: rest =>
    if s.isBreak then
      let more := rest.takeWhile Slot.isBlank
      (space ++ s :: more, rest.drop more.length)
    else (space, s :: rest)
  | [] => (space, [])

/-! ## Labels -/

/-- The inside of a label, up to its closing bracket. `size` counts the bytes met so far, `seen`
says that there has been more than white space, and `behindBreak` that only white space has been met
in the line at hand. -/
def labelInside (size : Nat) (seen escaped behindBreak : Bool) : List Slot → Try (List Slot)
  | [] => .error []
  | s :: rest =>
    let c := s.char
    let more (size : Nat) (seen escaped behindBreak : Bool) : Try (List Slot) :=
      match labelInside size seen escaped behindBreak rest with
      | .ok m => .ok ⟨s :: m.value, m.rest⟩
      | .error left => .error left
    if escaped && (c == '[' || c == '\\' || c == ']') then more (size + 1) seen false false
    else if c == '[' then .error (s :: rest)
    else if c == ']' then
      if seen && size ≤ Block.labelBytes then .ok ⟨[], s :: rest⟩ else .error (s :: rest)
    else if s.isBreak then
      if Block.labelBytes < size then .error (s :: rest) else more size seen false true
    else if behindBreak && s.isBlank then more size seen false true
    else if Block.labelBytes < size + (c.utf8Size - 1) then .error (s :: rest)
    else more (size + c.utf8Size) (seen || !s.isBlank) (c == '\\') false

/-- A label between brackets: its inside, and the slots behind it. -/
def label (slots : List Slot) : Try (List Slot) :=
  match slots with
  | s :: inside =>
    if s.char == '[' then
      match labelInside 0 false false false inside with
      | .ok m => .ok ⟨m.value, m.rest.drop 1⟩
      | .error left => .error left
    else .error slots
  | [] => .error []

/-! ## Destinations -/

/-- The inside of a destination between angle brackets, up to the closing one. -/
def enclosedInside (escaped : Bool) : List Slot → Try (List Slot)
  | [] => .error []
  | s :: rest =>
    let c := s.char
    let more (escaped : Bool) : Try (List Slot) :=
      match enclosedInside escaped rest with
      | .ok m => .ok ⟨s :: m.value, m.rest⟩
      | .error left => .error left
    if escaped && (c == '<' || c == '>' || c == '\\') then more false
    else if s.isBreak || c == '<' then .error (s :: rest)
    else if c == '>' then .ok ⟨[], s :: rest⟩
    else more (c == '\\')

/-- A control character or a space. -/
def isControlOrSpace (c : Char) : Bool := (0 < c.toNat && c.toNat ≤ 0x20) || c.toNat == 0x7F

/-- A bare destination. `depth` counts the open parentheses, of which there may be `most`. -/
def bareDestination (most : Option Nat) (depth : Nat) (escaped : Bool) :
    List Slot → Try (List Slot)
  | [] => if depth == 0 then .ok ⟨[], []⟩ else .error []
  | s :: rest =>
    let c := s.char
    let more (depth : Nat) (escaped : Bool) : Try (List Slot) :=
      match bareDestination most depth escaped rest with
      | .ok m => .ok ⟨s :: m.value, m.rest⟩
      | .error left => .error left
    if escaped && (c == '(' || c == ')' || c == '\\') then more depth false
    else if depth == 0 && (s.isBlank || s.isBreak || c == ')') then .ok ⟨[], s :: rest⟩
    else if c == '(' then
      if most.all fun m => depth < m then more (depth + 1) false else .error (s :: rest)
    else if c == ')' then more (depth - 1) false
    else if isControlOrSpace c then .error (s :: rest)
    else more depth (c == '\\')

/-- A destination, and the slots behind it. -/
def destination (most : Option Nat) (slots : List Slot) : Try (List Slot) :=
  match slots with
  | [] => .error []
  | s :: inside =>
    if s.char == '<' then
      match enclosedInside false inside with
      | .ok m => .ok ⟨m.value, m.rest.drop 1⟩
      | .error left => .error left
    else if isControlOrSpace s.char || s.char == ')' then .error slots
    else bareDestination most 0 false slots

/-! ## Titles -/

/-- The inside of a title, up to its closing mark. -/
def titleInside (mark : Char) (escaped : Bool) : List Slot → Try (List Slot)
  | [] => .error []
  | s :: rest =>
    let c := s.char
    let more (escaped : Bool) : Try (List Slot) :=
      match titleInside mark escaped rest with
      | .ok m => .ok ⟨s :: m.value, m.rest⟩
      | .error left => .error left
    if escaped && (c == '\x22' || c == '\x27' || c == ')' || c == '\\') then more false
    else if c == mark then .ok ⟨[], s :: rest⟩
    else more (c == '\\')

/-- A title between quotes or parentheses, and the slots behind it. -/
def title (slots : List Slot) : Try (List Slot) :=
  match slots with
  | s :: inside =>
    if s.char == '\x22' || s.char == '\x27' || s.char == '(' then
      match titleInside (if s.char == '(' then ')' else s.char) false inside with
      | .ok m => .ok ⟨m.value, m.rest.drop 1⟩
      | .error left => .error left
    else .error slots
  | [] => .error []

/-- The events of a title. -/
def titleEvents (slots : List Slot) : List Event := leafOf .title slots ++ breaksOf slots

/-! ## Targets behind a link -/

/-- The most open parentheses in a destination behind a link. -/
def targetDepth : Nat := 32

/-- The end of a target. -/
def targetEnd (events : List Event) (slots : List Slot) : Try (List Event) :=
  match slots with
  | s :: rest =>
    if s.char == ')' then .ok ⟨events ++ [.exit .resource (s.pos + 1)], rest⟩ else .error slots
  | [] => .error []

/-- The title of a target and its end. -/
def targetTitle (events : List Event) (slots : List Slot) : Try (List Event) :=
  match slots with
  | s :: _ =>
    if s.char == '\x22' || s.char == '\x27' || s.char == '(' then
      match title slots with
      | .ok m =>
        let (space, rest) := splitSpace m.rest
        targetEnd (events ++ titleEvents m.value ++ breaksOf space) rest
      | .error left => .error left
    else targetEnd events slots
  | [] => .error []

/-- A target in parentheses. -/
def target (slots : List Slot) : Try (List Event) :=
  match slots with
  | [] => .error []
  | opening :: inside =>
    if opening.char == '(' then
      let (space, rest) := splitSpace inside
      let events := .enter .resource opening.pos :: breaksOf space
      if (rest.head?.map Slot.char) == some ')' then targetEnd events rest
      else
        match destination (some targetDepth) rest with
        | .ok m =>
          let events := events ++ leafOf .destination m.value
          let (space, rest) := splitSpace m.rest
          if space.isEmpty then targetEnd events rest
          else targetTitle (events ++ breaksOf space) rest
        | .error left => .error left
    else .error slots

/-! ## Definitions -/

/-- White space up to the end of a line. -/
def lineRest? (slots : List Slot) : Option (List Slot) :=
  match slots.dropWhile Slot.isBlank with
  | [] => some []
  | s :: rest => if s.isBreak then some (s :: rest) else none

/-- The title of a definition, with the white space in front of it and the end of its line. -/
def definitionTitle? (slots : List Slot) : Option (Met (List Event)) :=
  let (space, rest) := splitSpace slots
  if space.isEmpty then none
  else
    match title rest with
    | .ok m => (lineRest? m.rest).map fun rest => ⟨breaksOf space ++ titleEvents m.value, rest⟩
    | .error _ => none

/-- A definition up to the end of its line. -/
def definition? (slots : List Slot) : Option (Met (List Event)) :=
  let start := startOf slots
  match label (slots.dropWhile Slot.isBlank) with
  | .error _ => none
  | .ok name =>
    match name.rest with
    | colon :: behind =>
      if colon.char == ':' then
        let (space, rest) := splitSpace behind
        match destination none rest with
        | .error _ => none
        | .ok dest =>
          let front := .enter .definition start :: leafOf .definitionLabel name.value ++
            breaksOf name.value ++ breaksOf space ++ leafOf .destination dest.value
          let finish (events : List Event) (rest : List Slot) : Met (List Event) :=
            let stop := (rest.head?.map Slot.pos).getD (Slot.stop start slots)
            ⟨front ++ events ++ [.exit .definition stop], rest⟩
          match definitionTitle? dest.rest with
          | some m => some (finish m.value m.rest)
          | none => (lineRest? dest.rest).map (finish [])
      else none
    | [] => none

end DocPages.Markdown.Inline
