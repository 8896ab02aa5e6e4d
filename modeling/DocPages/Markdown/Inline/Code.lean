import DocPages.Markdown.Inline.Target

/-!
Code and formulas inside a text: between two runs of the same mark and the same length.
-/

namespace DocPages.Markdown.Inline

/-- The pieces of a stretch that is taken as it is: a leaf for each part of a line, and one for each
line break. -/
def rawLeaves (leaf : Leaf) (part : List Slot) : List Slot → List Event
  | [] => leafOf leaf part.reverse
  | s :: rest =>
    if s.isBreak then leafOf leaf part.reverse ++ .leaf .lineEnding [s] :: rawLeaves leaf [] rest
    else rawLeaves leaf (s :: part) rest

/-- The stretch in front of the next run of exactly `size` marks, and the slots from that run on.
`skip` slots belong to a run of another length. -/
def beforeRun? (mark : Char) (size : Nat) : Nat → List Slot → Option (List Slot × List Slot)
  | _, [] => none
  | skip + 1, s :: rest => (beforeRun? mark size skip rest).map fun r => (s :: r.1, r.2)
  | 0, s :: rest =>
    if s.char == mark then
      let run := ((s :: rest).takeWhile fun t => t.char == mark).length
      if run == size then some ([], s :: rest)
      else (beforeRun? mark size (run - 1) rest).map fun r => (s :: r.1, r.2)
    else (beforeRun? mark size 0 rest).map fun r => (s :: r.1, r.2)

/-- Code, or a formula where the mark is a dollar sign. -/
def codeSpan (slots : List Slot) : Try (List Event) :=
  match slots with
  | [] => .error []
  | s :: _ =>
    let mark := s.char
    let size := (slots.takeWhile fun t => t.char == mark).length
    match beforeRun? mark size 0 (slots.drop size) with
    | none => .error []
    | some (inside, rest) =>
      let group : Group := if mark == '$' then .inlineFormula else .code
      let run := rest.take size
      .ok ⟨.enter group s.pos :: rawLeaves .codeText [] inside ++
        [.exit group (Slot.stop 0 run)], rest.drop size⟩

/-! ## What code shows -/

/-- Leaves out the backslash in front of a bar. -/
def unescapeBars : List Char → List Char
  | [] => []
  | '\\' :: '|' :: cs => '|' :: unescapeBars cs
  | c :: cs => c :: unescapeBars cs

/-- Code without a space at each end, unless it is nothing but spaces. -/
def unpad (code : List Char) : List Char :=
  let inside := (code.drop 1).dropLast
  if code.head? == some ' ' && code.getLast? == some ' ' && inside.any fun c => c != ' ' then inside
  else code

/-- What code shows. In a table a backslash in front of a bar is not part of the code. -/
def shownCode (inTable : Bool) (code : List Char) : List Char :=
  unpad (if inTable then unescapeBars code else code)

end DocPages.Markdown.Inline
