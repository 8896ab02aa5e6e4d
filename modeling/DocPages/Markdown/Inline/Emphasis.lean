import DocPages.Markdown.Inline.Address

/-!
Emphasis: runs of marks that open and close it. A run that closes looks back for the nearest run of
the same mark, inside the same groups, that opens and fits. Two marks of each make strong emphasis,
one makes plain emphasis, and what is left of the runs is tried again. Runs between two that have
met, and what is left of runs in the end, are text.
-/

namespace DocPages.Markdown.Inline

/-! ## Runs -/

/-- Whether a character, or the end of the page, counts as white space. -/
def isGap (c : Option Char) : Bool := c.all Text.isBlank

/-- Whether a character is punctuation. -/
def isMark (c : Option Char) : Bool := c.any isPunct

/-- Whether a character belongs to a word. -/
def isWord (c : Option Char) : Bool := !isGap c && !isMark c

/-- Whether other marks of emphasis stand beside a run of `mark`. -/
def isBesideMark (strikes : Bool) (mark : Char) (c : Option Char) : Bool :=
  mark != '~' && c.any fun d => d == '*' || d == '_' || (strikes && d == '~')

/-- Whether a run with what stands before and behind it may open, and whether it may close. -/
def runSides (strikes : Bool) (mark : Char) (before after : Option Char) : Bool × Bool :=
  let opens := isWord after || (isMark after && !isWord before) || isBesideMark strikes mark after
  let closes :=
    isWord before || (isMark before && !isWord after) || isBesideMark strikes mark before
  if mark == '_' then (opens && (!isWord before || !closes), closes && (!isWord after || !opens))
  else (opens, closes)

/-- A run of marks: what is left of it, the groups around it, given by the numbers of their first
events, and the events that go in front of it and behind it. A run that is spent meets no other
one. -/
structure Run where
  mark : Char
  slots : List Slot
  opens : Bool
  closes : Bool
  path : List Nat
  spent : Bool
  front : List Event
  behind : List Event
  deriving Inhabited

/-- The runs of a text, given the number of the first event and the groups that are open. -/
def runsOf (strikes : Bool) : Nat → List Nat → List Event → List Run
  | _, _, [] => []
  | index, path, .enter _ _ :: rest => runsOf strikes (index + 1) (index :: path) rest
  | index, path, .exit _ _ :: rest => runsOf strikes (index + 1) (path.drop 1) rest
  | index, path, .leaf l slots :: rest =>
    match l, slots with
    | .run, s :: _ =>
      let sides := runSides strikes s.char s.before (slots.getLast?.bind Slot.behind)
      ⟨s.char, slots, sides.1, sides.2, path, false, [], []⟩ ::
        runsOf strikes (index + 1) path rest
    | _, _ => runsOf strikes (index + 1) path rest

/-! ## Meeting runs -/

/-- Whether a run that opens may be met by one that closes. -/
def Run.fits (opener closer : Run) : Bool :=
  let o := opener.slots.length
  let c := closer.slots.length
  opener.opens && !opener.spent && opener.mark == closer.mark && opener.path == closer.path &&
    !((opener.closes || closer.opens) && c % 3 != 0 && (o + c) % 3 == 0) &&
    !(closer.mark == '~' && (c != o || 2 < c))

/-- The emphasis that `count` marks on each side make. -/
def stressOf (mark : Char) (count : Nat) : Group :=
  if mark == '~' then .strike else if count == 1 then .emphasis else .strong

/-- A run that opens, and one that closes, behind their meeting. -/
def Run.meet (opener closer : Run) : Run × Run :=
  let count := if 1 < opener.slots.length && 1 < closer.slots.length then 2 else 1
  let group := stressOf opener.mark count
  let left := opener.slots.take (opener.slots.length - count)
  let right := closer.slots.drop count
  ({ opener with
      slots := left
      spent := left.isEmpty
      behind := .enter group (startOf (opener.slots.drop left.length)) :: opener.behind },
    { closer with
      slots := right
      spent := right.isEmpty
      front := closer.front ++ [.exit group (Slot.stop 0 (closer.slots.take count))] })

/-- The runs in front of a run that closes, last one first, and that run itself, behind its meeting
with the nearest one that fits. -/
def closeRun? (closer : Run) : List Run → Option (List Run × Run)
  | [] => none
  | run :: rest =>
    if run.fits closer then
      let (opener, closer) := run.meet closer
      some (opener :: rest, closer)
    else (closeRun? closer rest).map fun r => ({ run with spent := true } :: r.1, r.2)

/-- Lets a run meet those in front of it as often as it can. The first argument bounds the number of
meetings. -/
def closeRuns : Nat → List Run → Run → List Run
  | 0, front, run => run :: front
  | fuel + 1, front, run =>
    if run.closes && !run.spent then
      match closeRun? run front with
      | some (front, run) => closeRuns fuel front run
      | none => run :: front
    else run :: front

/-- The runs of a text, last one first, when all have met. -/
def meetRuns (runs : List Run) : List Run :=
  runs.foldl (fun front run => closeRuns (run.slots.length + 1) front run) []

/-- The events of a text with its runs in place. -/
def placeRuns : List Run → List Event → List Event
  | _, [] => []
  | runs, .leaf .run slots :: rest =>
    match runs with
    | run :: runs => run.front ++ leafOf .data run.slots ++ run.behind ++ placeRuns runs rest
    | [] => .leaf .data slots :: placeRuns [] rest
  | runs, e :: rest => e :: placeRuns runs rest

/-- The events of a text with its emphasis. -/
def withEmphasis (strikes : Bool) (events : List Event) : List Event :=
  placeRuns (meetRuns (runsOf strikes 0 [] events)).reverse events

end DocPages.Markdown.Inline
