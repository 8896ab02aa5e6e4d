import DocPages.Json.Printer
import DocPages.Yaml.Atom
import DocPages.Yaml.Node

/-!
What a YAML text means as JSON. Aliases are replaced by what they stand for, keys become strings,
and a tagged value becomes an object with its tag as the only key.
-/

namespace DocPages.Yaml

/-- The most collections that may stand inside each other. -/
def maxDepth : Nat := 128

/-- How many aliases may be replaced for each part of a text. -/
def maxRepeats : Nat := 100

/-! ## Aliases -/

/-- A node whose aliases are numbers. -/
inductive Part where
  | alias (number : Nat)
  | scalar (tag : Option (List Char)) (plain : Bool) (text : List Char)
  | sequence (tag : Option (List Char)) (items : List Part)
  | mapping (tag : Option (List Char)) (entries : List (Part × Part))
  deriving Inhabited

/-- The parts that have numbers. -/
abbrev Targets := List (Nat × Part)

/-- The names that have been given: how many different ones there are, and the number each one
stands for. -/
structure Names where
  count : Nat
  numbers : List (List Char × Nat)
  deriving Inhabited

namespace Names

/-- No name has been given. -/
def empty : Names := ⟨0, []⟩

/-- A name is given to the node that begins. It stands for the number of different names in front of
it, so where a name is given again two nodes can share a number. -/
def give (names : Names) : Option (List Char) → Names
  | none => names
  | some name =>
    ⟨if (names.numbers.lookup name).isSome then names.count else names.count + 1,
      (name, names.count) :: names.numbers⟩

/-- A part with its number, if a name has been given to it. -/
def target (names : Names) (name : Option (List Char)) (part : Part) : Targets :=
  match name with
  | none => []
  | some _ => [(names.count, part)]

end Names

mutual

/-- A node with its aliases as numbers, the names behind it, and the parts in it that have numbers,
in the order in which they begin. -/
def link? (names : Names) : Node → Option (Part × Names × Targets)
  | .alias name => (names.numbers.lookup name).map fun number => (.alias number, names, [])
  | .scalar marks plain text =>
    let part := Part.scalar marks.tag plain text
    some (part, names.give marks.name, names.target marks.name part)
  | .sequence marks items => do
    let (items, behind, inner) ← linkItems? (names.give marks.name) items
    let part := Part.sequence marks.tag items
    some (part, behind, names.target marks.name part ++ inner)
  | .mapping marks entries => do
    let (entries, behind, inner) ← linkEntries? (names.give marks.name) entries
    let part := Part.mapping marks.tag entries
    some (part, behind, names.target marks.name part ++ inner)

/-- Items in a row with their aliases as numbers. -/
def linkItems? (names : Names) : List Node → Option (List Part × Names × Targets)
  | [] => some ([], names, [])
  | item :: rest => do
    let (part, names, first) ← link? names item
    let (parts, names, others) ← linkItems? names rest
    some (part :: parts, names, first ++ others)

/-- Entries in a row with their aliases as numbers. -/
def linkEntries? (names : Names) :
    List (Node × Node) → Option (List (Part × Part) × Names × Targets)
  | [] => some ([], names, [])
  | (key, value) :: rest => do
    let (keyPart, names, first) ← link? names key
    let (valuePart, names, second) ← link? names value
    let (parts, names, others) ← linkEntries? names rest
    some ((keyPart, valuePart) :: parts, names, first ++ second ++ others)

end

/-- What an alias stands for: of the parts with its number, of which the last one stands first, the
last one. One alias less can be replaced then. -/
def follow? (targets : Targets) (left : Nat) : Part → Option (Part × Nat)
  | .alias number =>
    match left with
    | 0 => none
    | left + 1 => (targets.lookup number).map fun part => (part, left)
  | part => some (part, left)

/-! ## Tags and keys -/

/-- The tag of a value that keeps it: one that begins with a mark. Of two marks at the front one is
written, and the mark alone is a name of its own. -/
def ownTag? (tag : Option (List Char)) : Option String :=
  match tag with
  | some ['!'] => some "!!"
  | some ['!', '!'] => some "!!"
  | some ('!' :: '!' :: name) => some (String.ofList ('!' :: name))
  | some ('!' :: name) => some (String.ofList ('!' :: name))
  | _ => none

/-- What a part means: its value, and the atom that it is when it can be a key. -/
structure Meaning where
  json : Json
  atom : Option Atom
  deriving Inhabited

/-- A meaning under the tag of its part. -/
def Meaning.under (tag : Option (List Char)) (m : Meaning) : Meaning :=
  match ownTag? tag with
  | some name => ⟨.object [(name, m.json)], none⟩
  | none => m

/-- The meaning of an atom. -/
def Atom.meaning (a : Atom) : Meaning := ⟨a.toJson, some a⟩

/-- The atom of a scalar with a tag or without one. -/
def scalar? (tag : Option (List Char)) (plain : Bool) (text : List Char) : Option Atom :=
  match tag with
  | some full =>
    if (ownTag? tag).isSome then (if plain then ofPlain? text else some (.text text))
    else ofTagged? (String.ofList full) text
  | none => if plain then ofPlain? text else some (.text text)

/-- The text of a key; none if a value cannot be one. -/
def Atom.key? : Atom → Option String
  | .null => none
  | .bool b => some (if b then "true" else "false")
  | .int n => some (Json.compact (.number (.int n)))
  | .float x => some (Json.compact (.number (.float x)))
  | .notFinite => none
  | .text s => some (String.ofList s)

/-- Whether two keys are the same. Zero has two signs. -/
def Atom.same : Atom → Atom → Bool
  | .float x, .float y => x == y || (x.isZero && y.isZero)
  | a, b => a == b

/-! ## Meanings -/

section Rows

variable (inner? : Nat → Part → Option (Meaning × Nat))

/-- The values of items in a row, where `inner?` gives what a part means and how many aliases can be
replaced behind it. -/
def items? (left : Nat) : List Part → Option (List Json × Nat)
  | [] => some ([], left)
  | item :: rest => do
    let (m, left) ← inner? left item
    let (values, left) ← items? left rest
    some (m.json :: values, left)

/-- The fields of entries in a row. A key that is none of the keys in front of it, `seen`, is
required. -/
def entries? (seen : List Atom) (left : Nat) :
    List (Part × Part) → Option (List (String × Json) × Nat)
  | [] => some ([], left)
  | (key, value) :: rest => do
    let (k, left) ← inner? left key
    let atom ← k.atom
    let text ← atom.key?
    if seen.any atom.same then none
    else
      let (m, left) ← inner? left value
      let (fields, left) ← entries? (atom :: seen) left rest
      some ((text, m.json) :: fields, left)

end Rows

/-- The meaning of a part that is no alias, where `inner?` gives those of the parts inside it, if
any may stand inside it, and how many aliases can be replaced behind it. -/
def body? (inner? : Option (Nat → Part → Option (Meaning × Nat))) (left : Nat) :
    Part → Option (Meaning × Nat)
  | .alias _ => none
  | .scalar tag plain text => do
    let a ← scalar? tag plain text
    some (a.meaning.under tag, left)
  | .sequence tag items => do
    let inner? ← inner?
    let (values, left) ← items? inner? left items
    some ((⟨.array values, none⟩ : Meaning).under tag, left)
  | .mapping tag entries => do
    let inner? ← inner?
    let (fields, left) ← entries? inner? [] left entries
    some ((⟨.object (Fields.ofList fields), none⟩ : Meaning).under tag, left)

/-- The meaning of a part, when `depth` collections may still stand inside each other and `left`
aliases may still be replaced, and how many may be behind it. -/
def meaning? (targets : Targets) : Nat → Nat → Part → Option (Meaning × Nat)
  | 0, left, part => do
    let (part, left) ← follow? targets left part
    body? none left part
  | depth + 1, left, part => do
    let (part, left) ← follow? targets left part
    body? (some (meaning? targets depth)) left part

mutual

/-- How many parts a node has: its scalars and aliases, and the two ends of its collections. -/
def Node.size : Node → Nat
  | .alias _ => 1
  | .scalar .. => 1
  | .sequence _ items => sizes items + 2
  | .mapping _ entries => entrySizes entries + 2

/-- How many parts nodes in a row have. -/
def sizes : List Node → Nat
  | [] => 0
  | node :: rest => node.size + sizes rest

/-- How many parts entries in a row have. -/
def entrySizes : List (Node × Node) → Nat
  | [] => 0
  | (key, value) :: rest => key.size + value.size + entrySizes rest

end

/-- The value that a node spells; none if it spells none. -/
def Node.value? (node : Node) : Option Json := do
  let (part, _, targets) ← link? .empty node
  let (m, _) ← meaning? targets.reverse maxDepth (node.size * maxRepeats) part
  some m.json

/-- The value that a YAML text spells; none if it is no such text. -/
def read? (text : List Char) : Option Json := (Node.read? text).bind Node.value?

end DocPages.Yaml
