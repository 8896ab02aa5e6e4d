import DocPages.Markup.Context
import DocPages.Text.Search

/-!
Changing the start tags of finished markup. Whatever is no start tag, and every tag that is not
changed, stays as it is written. Comments, and the content of elements that is text, hold no tags.
-/

namespace DocPages.Markup

/-! ## What is no tag -/

/-- The number of characters up to the first occurrence of `needle` and with it; all if it does not
occur. -/
def lengthThrough (needle cs : List Char) : Nat :=
  match Text.before? needle cs with
  | some before => before.length + needle.length
  | none => cs.length

/-- The end of a comment, which a mark of exclamation may stand in. -/
def commentEnd : Nat → List Char → Nat
  | n, [] => n
  | n, '-' :: '-' :: '>' :: _ => n + 3
  | n, '-' :: '-' :: '!' :: '>' :: _ => n + 4
  | n, _ :: cs => commentEnd (n + 1) cs

/-- The length of a comment behind its opening. -/
def commentLength (cs : List Char) : Nat :=
  match cs with
  | '>' :: _ => 1
  | '-' :: '>' :: _ => 2
  | cs => commentEnd 0 cs

/-- The opening of a section of bare text. -/
def sectionOpening : List Char := "<![CDATA[".toList

/-- Whether an end tag of an element of text stands at the front of a text. -/
def closesText (name : List Char) (cs : List Char) : Bool :=
  match cs with
  | '<' :: '/' :: rest =>
    Text.asciiLower (rest.take name.length) == name && (rest.drop name.length).head?.any endsTagName
  | _ => false

/-- The content of an element of text, up to its end tag. -/
def textContent (name : List Char) : List Char → List Char
  | [] => []
  | c :: cs => if closesText name (c :: cs) then [] else c :: textContent name cs

/-! ## Editing -/

/-- A piece of markup: a start tag, an end tag, or something else, which is passed over. -/
inductive Piece where
  | start (tag : StartTag)
  | stop (name : String)
  | other
  deriving Inhabited

/-- The piece at a `<`, and the number of its characters. Outside of the page a section of bare text
is one piece. A tag that the text ends in is no tag. -/
def piece (realm : Realm) (cs : List Char) : Piece × Nat :=
  match cs with
  | '<' :: '/' :: c :: rest =>
    if c.isAlpha then
      match StartTag.read? (c :: rest) with
      | some (tag, length) => (.stop (String.ofList (Text.asciiLower tag.name)), length + 2)
      | none => (.other, cs.length)
    else (.other, lengthThrough ['>'] (c :: rest) + 2)
  | '<' :: '!' :: '-' :: '-' :: rest => (.other, commentLength rest + 4)
  | '<' :: '!' :: rest =>
    if realm != .page && Text.startsWith sectionOpening cs then
      (.other, lengthThrough [']', ']', '>'] rest + 2)
    else (.other, lengthThrough ['>'] rest + 2)
  | '<' :: '?' :: rest => (.other, lengthThrough ['>'] rest + 2)
  | '<' :: c :: rest =>
    if c.isAlpha then
      match StartTag.read? (c :: rest) with
      | some (tag, length) => (.start tag, length + 1)
      | none => (.other, cs.length)
    else (.other, 1)
  | _ => (.other, 1)

/-- Goes through markup and changes its start tags. `edit` is told each of them in order, and gives
a changed tag or none. Each step takes at least one character. -/
def editFrom {σ : Type} (edit : σ → StartTag → Option StartTag × σ) :
    Nat → σ → Context → List Char → Except Ambiguous (List Char)
  | 0, _, _, cs => .ok cs
  | _ + 1, _, _, [] => .ok []
  | fuel + 1, state, ctx, c :: cs =>
    if c != '<' then (editFrom edit fuel state ctx cs).map (c :: ·)
    else
      let (piece, length) := piece ctx.realm (c :: cs)
      let raw := (c :: cs).take length
      let rest := (c :: cs).drop length
      match piece with
      | .other => (editFrom edit fuel state ctx rest).map (raw ++ ·)
      | .stop name => (editFrom edit fuel state (ctx.leave name) rest).map (raw ++ ·)
      | .start tag =>
        match ctx.enter tag with
        | .error e => .error e
        | .ok (ctx, text?) =>
          let (changed, state) := edit state tag
          let written := (changed.map StartTag.chars).getD raw
          match text? with
          | none => (editFrom edit fuel state ctx rest).map (written ++ ·)
          | some name =>
            let content := if name == "plaintext" then rest else textContent name.toList rest
            (editFrom edit fuel state ctx (rest.drop content.length)).map
              (written ++ content ++ ·)

/-- Markup with its start tags changed. -/
def edit {σ : Type} (change : σ → StartTag → Option StartTag × σ) (state : σ) (cs : List Char) :
    Except Ambiguous (List Char) :=
  editFrom change (cs.length + 1) state .start cs

end DocPages.Markup
