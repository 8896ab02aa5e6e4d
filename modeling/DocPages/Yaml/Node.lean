import DocPages.Yaml.Token

/-!
The tree of a YAML text: scalars, lists and maps, with the names and tags that stand in front of
them. A text is one document; a text of white space and comments is an empty one.
-/

namespace DocPages.Yaml

/-- What stands in front of a node: a name under which it can be repeated, and its full tag. -/
structure Marks where
  name : Option (List Char)
  tag : Option (List Char)
  deriving DecidableEq, Inhabited

/-- A node. An alias stands for the node of the same name in front of it. -/
inductive Node where
  | alias (name : List Char)
  | scalar (marks : Marks) (plain : Bool) (text : List Char)
  | sequence (marks : Marks) (items : List Node)
  | mapping (marks : Marks) (entries : List (Node × Node))
  deriving Inhabited

/-- No name and no tag. -/
def Marks.none : Marks := ⟨.none, .none⟩

/-- A node that is left out. -/
def Node.absent (marks : Marks) : Node := .scalar marks true []

/-- The handles of a document, with what they stand for. -/
abbrev Handles := List (List Char × List Char)

/-- The handles that are known without a directive. -/
def Handles.known : Handles := [(['!'], ['!']), (['!', '!'], "tag:yaml.org,2002:".toList)]

/-- The full tag of a name; none if its handle is unknown. -/
def TagName.resolve? (handles : Handles) (name : TagName) : Option (List Char) :=
  if name.handle.isEmpty then some name.suffix
  else (handles.lookup name.handle).map (· ++ name.suffix)

/-! ## Marks -/

/-- The name at the front of tokens. -/
def takeName : List Token → Option (List Char) × List Token
  | .anchor name :: ts => (some name, ts)
  | ts => (none, ts)

/-- The tag at the front of tokens. -/
def takeTag : List Token → Option TagName × List Token
  | .tag name :: ts => (some name, ts)
  | ts => (none, ts)

/-- The marks at the front of tokens, in either order; none if a handle is unknown. -/
def takeMarks? (handles : Handles) (ts : List Token) : Option (Marks × List Token) := do
  let (name, ts) := takeName ts
  let (tag, ts) := takeTag ts
  let (name, ts) := if name.isSome then (name, ts) else takeName ts
  match tag with
  | Option.none => some (⟨name, Option.none⟩, ts)
  | some tag =>
    let full ← tag.resolve? handles
    some (⟨name, some full⟩, ts)

/-- Whether the first token is one of the given ones, or there is none and an end counts. -/
def starts (tokens : List Token) (ts : List Token) : Bool := ts.head?.any tokens.contains

/-! ## Reading -/

mutual

/-- The node at the front of tokens. In a block it may be a block itself, and where `dashes` holds a
list may stand in the column of its key. -/
def node? (handles : Handles) (inBlock dashes : Bool) : Nat → List Token →
    Option (Node × List Token)
  | 0, _ => none
  | fuel + 1, ts =>
    match ts with
    | .alias name :: ts => some (.alias name, ts)
    | ts =>
      match takeMarks? handles ts with
      | none => none
      | some (marks, ts) =>
        match ts with
        | .scalar plain text :: ts => some (.scalar marks plain text, ts)
        | .openList :: ts =>
          (listItems? handles fuel true [] ts).map fun r => (.sequence marks r.1, r.2)
        | .openMap :: ts =>
          (mapEntries? handles fuel true [] ts).map fun r => (.mapping marks r.1, r.2)
        | ts =>
          if dashes && starts [.entry] ts then
            (dashItems? handles fuel [] ts).map fun r => (.sequence marks r.1, r.2)
          else if inBlock && starts [.sequenceBlock] ts then
            (blockItems? handles fuel [] (ts.drop 1)).map fun r => (.sequence marks r.1, r.2)
          else if inBlock && starts [.mappingBlock] ts then
            (blockEntries? handles fuel [] (ts.drop 1)).map fun r => (.mapping marks r.1, r.2)
          else if marks == .none then none
          else some (.absent marks, ts)

/-- A node, or one that is left out in front of one of the tokens `ends`. -/
def nodeOr? (handles : Handles) (inBlock dashes : Bool) (ends : List Token) : Nat → List Token →
    Option (Node × List Token)
  | 0, _ => none
  | fuel + 1, ts =>
    if starts ends ts then some (.absent .none, ts) else node? handles inBlock dashes fuel ts

/-- The items of a block, up to its end. -/
def blockItems? (handles : Handles) : Nat → List Node → List Token →
    Option (List Node × List Token)
  | 0, _, _ => none
  | fuel + 1, done, ts =>
    match ts with
    | .entry :: ts => do
      let (item, ts) ← nodeOr? handles true false [.entry, .blockEnd] fuel ts
      blockItems? handles fuel (item :: done) ts
    | .blockEnd :: ts => some (done.reverse, ts)
    | _ => none

/-- The items of a list that stands in the column of its key. -/
def dashItems? (handles : Handles) : Nat → List Node → List Token →
    Option (List Node × List Token)
  | 0, _, _ => none
  | fuel + 1, done, ts =>
    match ts with
    | .entry :: ts => do
      let (item, ts) ← nodeOr? handles true false [.entry, .key, .value, .blockEnd] fuel ts
      dashItems? handles fuel (item :: done) ts
    | ts => some (done.reverse, ts)

/-- The value behind a key of a block. -/
def blockValue? (handles : Handles) : Nat → List Token → Option (Node × List Token)
  | 0, _ => none
  | fuel + 1, ts =>
    match ts with
    | .value :: ts => nodeOr? handles true true [.key, .value, .blockEnd] fuel ts
    | ts => some (.absent .none, ts)

/-- The entries of a block, up to its end. -/
def blockEntries? (handles : Handles) : Nat → List (Node × Node) → List Token →
    Option (List (Node × Node) × List Token)
  | 0, _, _ => none
  | fuel + 1, done, ts =>
    match ts with
    | .key :: ts => do
      let (key, ts) ← nodeOr? handles true true [.key, .value, .blockEnd] fuel ts
      let (value, ts) ← blockValue? handles fuel ts
      blockEntries? handles fuel ((key, value) :: done) ts
    | .blockEnd :: ts => some (done.reverse, ts)
    | _ => none

/-- The value behind a key inside brackets, which one of the tokens `ends` may follow. -/
def flowValue? (handles : Handles) (ends : List Token) : Nat → List Token →
    Option (Node × List Token)
  | 0, _ => none
  | fuel + 1, ts =>
    match ts with
    | .value :: ts => nodeOr? handles false false ends fuel ts
    | ts => some (.absent .none, ts)

/-- An item between square brackets: a node, or a single entry, which is a map of its own. -/
def listItem? (handles : Handles) : Nat → List Token → Option (Node × List Token)
  | 0, _ => none
  | fuel + 1, ts =>
    match ts with
    | .key :: ts => do
      let (key, ts) ← nodeOr? handles false false [.value, .comma, .closeList] fuel ts
      let (value, ts) ← flowValue? handles [.comma, .closeList] fuel ts
      some (.mapping .none [(key, value)], ts)
    | ts => node? handles false false fuel ts

/-- The items between square brackets. Behind the first one a comma has to stand between two. -/
def listItems? (handles : Handles) : Nat → Bool → List Node → List Token →
    Option (List Node × List Token)
  | 0, _, _, _ => none
  | fuel + 1, first, done, ts =>
    match ts with
    | .closeList :: ts => some (done.reverse, ts)
    | ts =>
      match first, ts with
      | true, ts => do
        let (item, ts) ← listItem? handles fuel ts
        listItems? handles fuel false (item :: done) ts
      | false, .comma :: .closeList :: ts => some (done.reverse, ts)
      | false, .comma :: ts => do
        let (item, ts) ← listItem? handles fuel ts
        listItems? handles fuel false (item :: done) ts
      | false, _ => none

/-- An entry between braces: a key with its value, or a key alone. -/
def mapEntry? (handles : Handles) : Nat → List Token → Option ((Node × Node) × List Token)
  | 0, _ => none
  | fuel + 1, ts =>
    match ts with
    | .key :: ts => do
      let (key, ts) ← nodeOr? handles false false [.value, .comma, .closeMap] fuel ts
      let (value, ts) ← flowValue? handles [.comma, .closeMap] fuel ts
      some ((key, value), ts)
    | ts => do
      let (key, ts) ← node? handles false false fuel ts
      some ((key, .absent .none), ts)

/-- The entries between braces. Behind the first one a comma has to stand between two. -/
def mapEntries? (handles : Handles) : Nat → Bool → List (Node × Node) → List Token →
    Option (List (Node × Node) × List Token)
  | 0, _, _, _ => none
  | fuel + 1, first, done, ts =>
    match ts with
    | .closeMap :: ts => some (done.reverse, ts)
    | ts =>
      match first, ts with
      | true, ts => do
        let (entry, ts) ← mapEntry? handles fuel ts
        mapEntries? handles fuel false (entry :: done) ts
      | false, .comma :: .closeMap :: ts => some (done.reverse, ts)
      | false, .comma :: ts => do
        let (entry, ts) ← mapEntry? handles fuel ts
        mapEntries? handles fuel false (entry :: done) ts
      | false, _ => none

end

/-! ## Documents -/

/-- The directives in front of a document: whether a version has been given, and the handles given,
last one first. A second version, a second meaning of a handle, and a version other than 1.1 and
1.2 are refused. -/
def directives? : Bool → Handles → List Token → Option (Handles × List Token)
  | versioned, handles, .version major minor :: ts =>
    if !versioned && major == 1 && (minor == 1 || minor == 2) then directives? true handles ts
    else none
  | versioned, handles, .tagHandle handle start :: ts =>
    if (handles.lookup handle).isSome then none
    else directives? versioned ((handle, start) :: handles) ts
  | _, handles, ts => some (handles, ts)

/-- The node of a document behind its opening mark; it may be left out. -/
def marked? (handles : Handles) (fuel : Nat) (ts : List Token) : Option (Node × List Token) :=
  match ts with
  | [] => some (.absent .none, [])
  | .version .. :: _ => some (.absent .none, ts)
  | .tagHandle .. :: _ => some (.absent .none, ts)
  | .documentStart :: _ => some (.absent .none, ts)
  | .documentEnd :: _ => some (.absent .none, ts)
  | ts => node? handles true false fuel ts

/-- The node of the first document, and the tokens behind it. -/
def document? (ts : List Token) : Option (Node × List Token) :=
  let fuel := 4 * ts.length + 4
  match ts with
  | [] => some (.absent .none, [])
  | .version .. :: _ | .tagHandle .. :: _ | .documentStart :: _ =>
    match directives? false [] ts with
    | some (handles, .documentStart :: ts) => marked? (handles ++ Handles.known) fuel ts
    | _ => none
  | ts => node? Handles.known true false fuel ts

/-- Whether a token is the mark at the end of a document. -/
def isDocumentEnd : Token → Bool
  | .documentEnd => true
  | _ => false

/-- The node of a text of one document; none if the text is no YAML or holds several documents. -/
def Node.read? (cs : List Char) : Option Node := do
  let ts ← tokens? cs
  let (node, ts) ← document? ts
  if (ts.dropWhile isDocumentEnd).isEmpty then some node else none

end DocPages.Yaml
