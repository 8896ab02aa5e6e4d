import DocPages.Text.Search

/-!
Paths of pages. A path is read as a list of components: empty pieces and single dots count for
nothing, but for a dot at the very front. Main statement: a root is taken off only where its
components are the first components of the file.
-/

namespace DocPages.Page

/-- What a path starts with. -/
inductive Anchor where
  | root
  | here
  | none
  deriving DecidableEq, Inhabited

/-- A path: what it starts with, and the pieces between its slashes. -/
structure Path where
  anchor : Anchor
  pieces : List (List Char)
  deriving DecidableEq, Inhabited

namespace Path

/-- The pieces between slashes. -/
def split (cs : List Char) : List (List Char) := Text.splitBy (· == '/') cs

/-- The path that a text spells. -/
def ofChars (cs : List Char) : Path :=
  match cs with
  | '/' :: rest => ⟨.root, split rest⟩
  | ['.'] => ⟨.here, []⟩
  | '.' :: '/' :: rest => ⟨.here, split ('/' :: rest)⟩
  | cs => ⟨.none, split cs⟩

/-- A piece that counts for nothing. -/
def isIdle (piece : List Char) : Bool := piece == [] || piece == ['.']

/-- The components of a path, without what it starts with. -/
def names (p : Path) : List (List Char) := p.pieces.filter fun piece => !isIdle piece

/-- The pieces behind the first `n` components. -/
def behind : Nat → List (List Char) → List (List Char)
  | _, [] => []
  | 0, pieces => pieces.dropWhile isIdle
  | n + 1, piece :: pieces => if isIdle piece then behind (n + 1) pieces else behind n pieces

/-- The pieces without those at the end that count for nothing. -/
def trimEndPieces (pieces : List (List Char)) : List (List Char) :=
  (pieces.reverse.dropWhile isIdle).reverse

/-- The text of what a path starts with. -/
def anchorChars : Anchor → List Char
  | .root => ['/']
  | .here => ['.']
  | .none => []

/-- Whether a path has no component at all. -/
def isEmpty (p : Path) : Bool := p.anchor == .none && p.names.isEmpty

/-- The text of what is left of `file` below `root`, if it lies there. -/
def below? (file root : Path) : Option (List Char) :=
  if root.isEmpty then
    some (anchorChars file.anchor ++ Text.joinWith ['/'] (trimEndPieces file.pieces))
  else if file.anchor == root.anchor && root.names.isPrefixOf file.names then
    some (Text.joinWith ['/'] (trimEndPieces (behind root.names.length file.pieces)))
  else none

end Path

/-- A backslash becomes a slash. -/
def forwardSlash (c : Char) : Char := if c == '\\' then '/' else c

/-- The path of `file` relative to `root`, with forward slashes; a file elsewhere keeps its path. -/
def relativePath (file root : String) : String :=
  let cs := ((Path.ofChars file.toList).below? (Path.ofChars root.toList)).getD file.toList
  String.ofList (cs.map forwardSlash)

end DocPages.Page
