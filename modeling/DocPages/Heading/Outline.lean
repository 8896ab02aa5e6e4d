import DocPages.Heading.CustomId
import DocPages.Heading.Header
import DocPages.Heading.PlainText
import DocPages.Heading.RawTag
import DocPages.Heading.Slugger

/-!
The outline of a page: its headings in order, each with a unique anchor and the text of its section,
and the list of anchors to be written into the page.

The tree is first read as a flat list of entries, then the entries are put together. A heading is
collected in whatever container it stands; text belongs to the closest heading before it.
-/

namespace DocPages.Heading

open Markdown (Node)

/-- What the outline takes from the tree. -/
inductive Entry where
  | heading (level : Nat) (text : String)
  | text (text : String)
  | bareTag
  deriving DecidableEq, Inhabited

/-! ## Reading the tree -/

mutual

/-- One entry for each heading tag without an `id` in the raw markup of a node. -/
def bareTagsIn : Node → List Entry
  | .html value => List.replicate (bareTags value) .bareTag
  | .heading _ children => bareTagsInAll children
  | .paragraph children => bareTagsInAll children
  | .parent _ children => bareTagsInAll children
  | _ => []

/-- One entry for each heading tag without an `id` in the raw markup of nodes in a row. -/
def bareTagsInAll : List Node → List Entry
  | [] => []
  | node :: rest => bareTagsIn node ++ bareTagsInAll rest

end

/-- A heading or raw markup. -/
def isLandmark : Node → Bool
  | .heading .. => true
  | .html _ => true
  | _ => false

mutual

/-- Whether a container has a heading or raw markup somewhere below it, outside paragraphs. -/
def holdsLandmark : Node → Bool
  | .heading _ children => anyLandmark children
  | .parent _ children => anyLandmark children
  | _ => false

/-- Whether one of the nodes is a heading or raw markup, or holds one. -/
def anyLandmark : List Node → Bool
  | [] => false
  | node :: rest => isLandmark node || holdsLandmark node || anyLandmark rest

end

/-- The text of a node as an entry, if it has any, and the heading tags in its raw markup. -/
def blockEntries (node : Node) : List Entry :=
  (match blockText node with
    | [] => []
    | text => [.text (String.ofList text)]) ++ bareTagsIn node

mutual

/-- The entries of a node. A container that holds a landmark is entered; any other one counts as a
single block. -/
def entries : Node → List Entry
  | .heading depth children => .heading depth (plainText children) :: bareTagsInAll children
  | .html value => List.replicate (bareTags value) .bareTag
  | .code .. => []
  | .parent kind children =>
    if anyLandmark children then allEntries children else blockEntries (.parent kind children)
  | node => blockEntries node

/-- The entries of nodes in a row. -/
def allEntries : List Node → List Entry
  | [] => []
  | node :: rest => entries node ++ allEntries rest

end

/-! ## Putting the entries together -/

/-- A heading with the texts of its section, last one first. -/
structure Section where
  level : Nat
  title : String
  slug : String
  texts : List String
  deriving DecidableEq, Inhabited

/-- What has been collected so far: sections and anchors, last ones first. -/
structure Draft where
  slugger : Slugger
  sections : List Section
  anchors : List (Option String)
  deriving Inhabited

namespace Draft

/-- Nothing has been collected. -/
def empty : Draft := ⟨.empty, [], []⟩

/-- A heading opens a section and takes an anchor: its own one, or one made from its title. -/
def addHeading (d : Draft) (level : Nat) (text : String) : Draft :=
  let (title, id?) := splitCustomId text
  let (slug, slugger) :=
    match id? with
    | some id => d.slugger.claim id
    | none => d.slugger.next title
  ⟨slugger, ⟨level, title, slug, []⟩ :: d.sections, some slug :: d.anchors⟩

/-- Text goes to the section opened last; in front of all sections it is dropped. -/
def addText (d : Draft) (text : String) : Draft :=
  match d.sections with
  | [] => d
  | s :: rest => ⟨d.slugger, { s with texts := text :: s.texts } :: rest, d.anchors⟩

/-- Takes in one more entry. -/
def add (d : Draft) : Entry → Draft
  | .heading level text => d.addHeading level text
  | .text text => d.addText text
  | .bareTag => ⟨d.slugger, d.sections, none :: d.anchors⟩

end Draft

/-- The header of a section, with the texts of the section on lines of their own. -/
def Section.header (s : Section) : Header :=
  ⟨s.level, s.title, s.slug, "\n".intercalate s.texts.reverse⟩

/-- The headings of a page, and an anchor for each heading element of the page: none where the
author wrote the element as a tag. -/
structure Outline where
  headers : List Header
  anchors : List (Option String)
  deriving Inhabited

/-- The outline that a list of entries gives. -/
def Outline.ofEntries (list : List Entry) : Outline :=
  let d := list.foldl Draft.add .empty
  ⟨(d.sections.map Section.header).reverse, d.anchors.reverse⟩

/-- The outline of the tree below a node. -/
def outline (root : Node) : Outline :=
  Outline.ofEntries
    (match root.children? with
      | some children => allEntries children
      | none => [])

end DocPages.Heading
