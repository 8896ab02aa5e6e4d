import DocPages.Text.Blank
import DocPages.Text.Search

/-!
Plain text from header text. A title or a heading arrives with marks still in it: emphasis, links,
character references, tags. A pipeline of small steps takes them off one kind after another. The
shallow pipeline is for text that cannot hold tags, the deep one drops tags first.

What a step removes it finds by one rule at one place of the text; the places are tried from left to
right and never overlap.
-/

namespace DocPages.HeaderText

/-- One step of a pipeline. -/
inductive Step where
  | dropTags
  | decodeEntities
  | unwrapLinks
  | unwrapEmphasis
  | unescapePunctuation
  | trim
  deriving DecidableEq, Inhabited

/-! ## Character references -/

/-- The references that are decoded, each with its character, in the order in which they are
decoded. -/
def entities : List (List Char × Char) :=
  [(['&', 'q', 'u', 'o', 't', ';'], '\x22'), (['&', '#', '3', '9', ';'], '\x27'),
    (['&', '#', 'x', '3', 'A', ';'], ':'), (['&', 'l', 't', ';'], '<'), (['&', 'g', 't', ';'], '>')]

/-- Decodes references, one after another over the whole text. -/
def decodeEach (list : List (List Char × Char)) (cs : List Char) : List Char :=
  list.foldl (fun text e => Text.replaceAll e.1 [e.2] text) cs

/-- Decodes five references. A text without an ampersand is handed back as it is. -/
def decodeEntities (cs : List Char) : List Char :=
  if cs.contains '&' then decodeEach entities cs else cs

/-! ## Links -/

/-- A text of at least two characters up to `close`, and what stands behind `close`. The first
character may be `close` itself but no line feed. -/
def bracketed? (close : Char) : List Char → Option (List Char × List Char)
  | [] => none
  | first :: rest =>
    if first == '\n' then none
    else
      match rest.span (· != close) with
      | ([], _) => none
      | (_, []) => none
      | (body, _ :: after) => some (first :: body, after)

/-- A link at the front of a text is replaced by what it shows. -/
def linkAt (_start : Bool) (cs : List Char) : Option Text.Replacement :=
  match cs with
  | '[' :: rest =>
    match bracketed? ']' rest with
    | some (shown, '(' :: rest) =>
      match bracketed? ')' rest with
      | some (target, _) => some ⟨shown.length + target.length + 3, shown⟩
      | none => none
    | _ => none
  | _ => none

/-- Replaces every link by what it shows. -/
def unwrapLinks (cs : List Char) : List Char := Text.replaceBy linkAt cs

/-! ## Emphasis -/

/-- The marks around emphasised text and code. At one place the earlier mark is tried first. -/
def marks : List (List Char) :=
  [['\x60'], ['*', '*', '*'], ['*', '*'], ['*'], ['_']]

/-- The length of the shortest text that `mark` follows: it is not empty, does not end in a
backslash, and has no line feed but perhaps as its last character. -/
def bodyLength? (mark : List Char) : List Char → Option Nat
  | [] => none
  | c :: cs =>
    if c != '\\' && Text.startsWith mark cs then some 1
    else if c == '\n' then none
    else (bodyLength? mark cs).map (· + 1)

/-- Text between two equal marks at the front of a text is replaced by its inside. -/
def markedAt (mark cs : List Char) : Option Text.Replacement :=
  if Text.startsWith mark cs then
    let inside := cs.drop mark.length
    (bodyLength? mark inside).map fun n => ⟨2 * mark.length + n - 1, inside.take n⟩
  else none

/-- Takes the marks off emphasised text and code. -/
def unwrapEmphasis (cs : List Char) : List Char :=
  Text.replaceBy (fun _ rest => marks.findSome? fun mark => markedAt mark rest) cs

/-! ## Escapes -/

/-- The characters that a backslash escapes. -/
def escapable : List Char := ['*', '_', '\x60', '!', '<', '$']

/-- An escaped character at the front of a text is replaced by itself. -/
def escapeAt (_start : Bool) (cs : List Char) : Option Text.Replacement :=
  match cs with
  | '\\' :: c :: _ => if escapable.contains c then some ⟨1, [c]⟩ else none
  | _ => none

/-- Drops the backslash in front of a punctuation character. -/
def unescapePunctuation (cs : List Char) : List Char := Text.replaceBy escapeAt cs

/-! ## Tags -/

/-- A character that may stand next to a tag. A bracket, a code mark or a backslash may not. -/
def isTagNeighbour (c : Char) : Bool := !(['>', '<', '\x60', '\\'].contains c)

/-- How far the last tag end of the line reaches that has a tag neighbour or the end of the text
behind it. -/
def tagEnd? : List Char → Option Nat
  | [] => none
  | c :: cs =>
    if c == '\n' then none
    else
      match tagEnd? cs with
      | some n => some (n + 1)
      | none => if c == '>' && (cs.take 1).all isTagNeighbour then some 1 else none

/-- A stretch from `<` to the last tag end of the line is dropped; its neighbours stay. -/
def tagAt (start : Bool) (cs : List Char) : Option Text.Replacement :=
  match start, cs with
  | true, '<' :: rest =>
    (tagEnd? rest).map fun n =>
      let after := (rest.drop n).take 1
      ⟨n + after.length, after⟩
  | _, c :: '<' :: rest =>
    if isTagNeighbour c then
      (tagEnd? rest).map fun n =>
        let after := (rest.drop n).take 1
        ⟨n + 1 + after.length, c :: after⟩
    else none
  | _, _ => none

/-- Drops the tags that stand apart from code marks, brackets and backslashes. -/
def dropTags (cs : List Char) : List Char := Text.replaceBy tagAt cs

/-! ## Pipelines -/

/-- The name of a step in a trace. -/
def Step.name : Step → String
  | .dropTags => "strip_raw_html"
  | .decodeEntities => "unescape_html"
  | .unwrapLinks => "strip_markdown_links"
  | .unwrapEmphasis => "strip_emphasis"
  | .unescapePunctuation => "unescape_punctuation"
  | .trim => "trim"

/-- What a step does to a text. -/
def Step.apply : Step → List Char → List Char
  | .dropTags => HeaderText.dropTags
  | .decodeEntities => HeaderText.decodeEntities
  | .unwrapLinks => HeaderText.unwrapLinks
  | .unwrapEmphasis => HeaderText.unwrapEmphasis
  | .unescapePunctuation => HeaderText.unescapePunctuation
  | .trim => Text.trim

/-- The text of a step when it is shown. -/
def Step.display (step : Step) : String := "Transform(\"" ++ step.name ++ "\")"

/-- The steps for text that cannot hold tags. -/
def shallowSteps : List Step :=
  [.decodeEntities, .unwrapLinks, .unwrapEmphasis, .unescapePunctuation, .trim]

/-- The steps for text that may hold tags. -/
def deepSteps : List Step := .dropTags :: shallowSteps

/-- All steps. -/
def Step.all : List Step := deepSteps

/-- The step with a name. -/
def Step.ofName? (name : String) : Option Step := Step.all.find? fun step => step.name == name

/-- Runs steps one after another. -/
def runChars (steps : List Step) (cs : List Char) : List Char :=
  steps.foldl (fun text step => step.apply text) cs

/-- Runs steps one after another over a string. -/
def run (steps : List Step) (text : String) : String :=
  String.ofList (runChars steps text.toList)

/-- The text after each step. -/
def trace : List Step → List Char → List (Step × String)
  | [], _ => []
  | step :: steps, cs => (step, String.ofList (step.apply cs)) :: trace steps (step.apply cs)

/-- Plain text of a header that cannot hold tags. -/
def shallow (text : String) : String := run shallowSteps text

/-- Plain text of a header that may hold tags. -/
def deep (text : String) : String := run deepSteps text

theorem runChars_cons (step : Step) (steps : List Step) (cs : List Char) :
    runChars (step :: steps) cs = runChars steps (step.apply cs) := rfl

end DocPages.HeaderText
