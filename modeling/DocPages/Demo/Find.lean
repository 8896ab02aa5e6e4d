import DocPages.Markdown.Node
import DocPages.Text.Blank
import DocPages.Text.Search

/-!
The demo of a page: the first fenced block of code in the language of demos whose info holds the
flag of demos as a word of its own.
-/

namespace DocPages.Demo

open Markdown (Node)

/-- The words of a text between its white space. -/
def words (cs : List Char) : List (List Char) :=
  (Text.splitBy Text.isBlank cs).filter fun word => !word.isEmpty

/-- A block of code: its language, what stands behind the language, and its text. -/
structure Code where
  lang : Option String
  info : Option String
  value : String
  deriving DecidableEq, Inhabited

/-- Which block of code is a demo. -/
structure Marker where
  language : String
  flag : String
  deriving DecidableEq, Inhabited

/-- Whether a block of code is a demo. -/
def Marker.marks (m : Marker) (code : Code) : Bool :=
  code.lang == some m.language &&
    code.info.any fun info => (words info.toList).contains m.flag.toList

mutual

/-- The first demo in a node, in the order of the page. -/
def find? (m : Marker) : Node → Option Code
  | .code lang info value =>
    let code : Code := ⟨lang, info, value⟩
    if m.marks code then some code else none
  | .heading _ children => findIn? m children
  | .paragraph children => findIn? m children
  | .parent _ children => findIn? m children
  | _ => none

/-- The first demo in nodes in a row. -/
def findIn? (m : Marker) : List Node → Option Code
  | [] => none
  | node :: rest => (find? m node).or (findIn? m rest)

end

end DocPages.Demo
