-- The demo of a page. A tree may hold many demos, at any depth; the search
-- gives the one that stands first in the order of the page, and gives none
-- only if the tree holds none.
import DocPages.Page.Show
import DocPages.Proofs.Text.Lines
import Mathlib.Data.List.Lex

namespace DocPages

open Markdown (Node)

namespace Markdown.Node

/-! ## Places of a tree -/

/-- The node at a place of a tree. A place tells for each level which of the children to take, so
`<` on places is the order of the page: a node stands in front of what is below it, and a child with
all below it in front of the next one. -/
def at? : List Nat → Node → Option Node
  | [], node => some node
  | i :: place, node => (node.children?.bind fun children => children[i]?).bind (at? place)

theorem at?_append (place more : List Nat) (node : Node) :
    node.at? (place ++ more) = (node.at? place).bind (at? more) := by
  induction place generalizing node with
  | nil => rfl
  | cons i place ih =>
    have hmore : at? (place ++ more) = fun child => (at? place child).bind (at? more) := funext ih
    rw [List.cons_append, at?, hmore]
    exact (Option.bind_assoc _ _ _).symm

/-- What stands in front of a place further down stands in front of a place above it, or below that
place as well. -/
theorem lt_append {place more other : List Nat} (h : other < place ++ more) :
    other < place ∨ ∃ rest, other = place ++ rest ∧ rest < more := by
  induction place generalizing other with
  | nil => exact Or.inr ⟨other, rfl, h⟩
  | cons i place ih =>
    cases other with
    | nil => exact Or.inl (List.nil_lt_cons i place)
    | cons j other =>
      rw [List.cons_append, List.cons_lt_cons_iff] at h
      rcases h with hlt | ⟨rfl, h⟩
      · exact Or.inl (List.cons_lt_cons_iff.mpr (Or.inl hlt))
      · rcases ih h with h | ⟨rest, rfl, hrest⟩
        · exact Or.inl (List.cons_lt_cons_iff.mpr (Or.inr ⟨rfl, h⟩))
        · exact Or.inr ⟨rest, rfl, hrest⟩

end Markdown.Node

namespace Demo

open Text (isBlank)

variable {m : Marker} {root node container : Node} {children rest : List Node}
  {place more : List Nat} {code : Code}

/-! ## Demos -/

/-- A text holds a word: the word stands between white space or the ends of the text, and no white
space is in it. -/
structure HoldsWord (text word : List Char) : Prop where
  ne_nil : word ≠ []
  unblank : ∀ c ∈ word, isBlank c = false
  apart : ∃ front back, text = front ++ (word ++ back) ∧ (∀ c ∈ front.getLast?, isBlank c = true) ∧
    ∀ c ∈ back.head?, isBlank c = true

theorem mem_words_iff {text word : List Char} : word ∈ words text ↔ HoldsWord text word := by
  unfold words
  rw [List.mem_filter, Text.mem_splitBy_iff]
  constructor
  · rintro ⟨⟨hunblank, hapart⟩, hne⟩
    exact ⟨by simpa using hne, hunblank, hapart⟩
  · rintro ⟨hne, hunblank, hapart⟩
    exact ⟨⟨hunblank, hapart⟩, by simpa using hne⟩

/-- The code is in the language of demos, and has an info that holds the flag as a word. -/
def IsDemo (m : Marker) (code : Code) : Prop :=
  code.lang = some m.language ∧ ∃ info ∈ code.info, HoldsWord info.toList m.flag.toList

theorem marks_iff : m.marks code = true ↔ IsDemo m code := by
  unfold Marker.marks IsDemo
  simp [Option.any_eq_true, mem_words_iff]

/-- A block of code as a node. -/
def Code.toNode (code : Code) : Node := .code code.lang code.info code.value

theorem Code.toNode_injective {a b : Code} (h : a.toNode = b.toNode) : a = b := by
  cases a
  cases b
  unfold Code.toNode at h
  injection h with hlang hinfo hvalue
  congr

/-- The demo that stands at a place of a tree. -/
def DemoAt (m : Marker) (root : Node) (place : List Nat) (code : Code) : Prop :=
  root.at? place = some code.toNode ∧ IsDemo m code

/-- The demo that stands at a place of nodes in a row. -/
def DemoIn (m : Marker) (nodes : List Node) : List Nat → Code → Prop
  | [], _ => False
  | i :: place, code => ∃ node, nodes[i]? = some node ∧ DemoAt m node place code

theorem DemoAt.unique {a b : Code} (ha : DemoAt m root place a) (hb : DemoAt m root place b) :
    a = b :=
  Code.toNode_injective (Option.some.inj (ha.1.symm.trans hb.1))

/-- A node with children is no block of code, so its demos are those of its children. -/
theorem demoAt_iff_of_children (h : node.children? = some children) :
    DemoAt m node place code ↔ DemoIn m children place code := by
  cases place with
  | nil =>
    refine iff_of_false (fun hdemo => ?_) id
    obtain rfl := Option.some.inj hdemo.1
    cases h
  | cons i place =>
    unfold DemoIn DemoAt
    rw [Node.at?, h, Option.bind_some, Option.bind_eq_some_iff]
    constructor
    · rintro ⟨⟨child, hchild, hat⟩, hdemo⟩
      exact ⟨child, hchild, hat, hdemo⟩
    · rintro ⟨child, hchild, hat, hdemo⟩
      exact ⟨⟨child, hchild, hat⟩, hdemo⟩

/-- A node without children holds a demo only if it is one. -/
theorem demoAt_iff_of_leaf (h : node.children? = none) :
    DemoAt m node place code ↔ place = [] ∧ node = code.toNode ∧ IsDemo m code := by
  cases place with
  | nil => simp [DemoAt, Node.at?]
  | cons i place => simp [DemoAt, Node.at?, h]

theorem demoAt_append (hat : root.at? place = some container) :
    DemoAt m root (place ++ more) code ↔ DemoAt m container more code := by
  unfold DemoAt
  rw [Node.at?_append, hat, Option.bind_some]

theorem demoIn_zero : DemoIn m (node :: rest) (0 :: place) code ↔ DemoAt m node place code := by
  simp [DemoIn]

theorem demoIn_succ {i : Nat} :
    DemoIn m (node :: rest) ((i + 1) :: place) code ↔ DemoIn m rest (i :: place) code := Iff.rfl

/-! ## The search -/

/-- A place holds a demo, and no place in front of it does. -/
structure First (holds : List Nat → Code → Prop) (place : List Nat) (code : Code) : Prop where
  here : holds place code
  front : ∀ other < place, ∀ c, ¬ holds other c

/-- The result of a search: the demo at the first place that holds one, and none if no place
does. -/
def Finds (holds : List Nat → Code → Prop) : Option Code → Prop
  | some code => ∃ place, First holds place code
  | none => ∀ place code, ¬ holds place code

theorem Finds.of_iff {holds holds' : List Nat → Code → Prop} {found : Option Code}
    (h : Finds holds' found) (hiff : ∀ place code, holds place code ↔ holds' place code) :
    Finds holds found := by
  have heq : holds = holds' := funext fun place => funext fun code => propext (hiff place code)
  rwa [heq]

theorem finds_nil : Finds (DemoIn m []) none := by
  rintro (_ | ⟨i, place⟩) code h
  · exact h
  · obtain ⟨node, hnode, -⟩ := h
    cases hnode

/-- A first demo in a node is the first one of a row that begins with the node. -/
theorem First.head (h : First (DemoAt m node) place code) :
    First (DemoIn m (node :: rest)) (0 :: place) code := by
  refine ⟨demoIn_zero.mpr h.here, ?_⟩
  rintro (_ | ⟨i, other⟩) hlt c hc
  · exact hc
  · rcases List.cons_lt_cons_iff.mp hlt with hi | ⟨rfl, hother⟩
    · exact absurd hi (Nat.not_lt_zero i)
    · exact h.front other hother c (demoIn_zero.mp hc)

/-- Where a node holds no demo, those of a row that begins with it stand in the rest of the row. -/
theorem exists_of_demoIn (hnode : ∀ place code, ¬ DemoAt m node place code)
    (h : DemoIn m (node :: rest) place code) :
    ∃ i below, place = (i + 1) :: below ∧ DemoIn m rest (i :: below) code := by
  match place with
  | [] => exact h.elim
  | 0 :: below => exact absurd (demoIn_zero.mp h) (hnode below code)
  | (i + 1) :: below => exact ⟨i, below, rfl, demoIn_succ.mp h⟩

theorem First.tail (hnode : ∀ place code, ¬ DemoAt m node place code)
    (h : First (DemoIn m rest) place code) :
    ∃ longer, First (DemoIn m (node :: rest)) longer code := by
  cases place with
  | nil => exact h.here.elim
  | cons j place =>
    refine ⟨(j + 1) :: place, demoIn_succ.mpr h.here, fun other hlt c hc => ?_⟩
    obtain ⟨i, below, rfl, hbelow⟩ := exists_of_demoIn hnode hc
    refine h.front (i :: below) ?_ c hbelow
    rw [List.cons_lt_cons_iff] at hlt ⊢
    exact hlt.imp Nat.lt_of_succ_lt_succ fun h => ⟨Nat.succ.inj h.1, h.2⟩

/-- A search goes through a node with all that is below it, and then through the rest of the row. -/
theorem Finds.or {a b : Option Code} (hnode : Finds (DemoAt m node) a)
    (hrest : Finds (DemoIn m rest) b) : Finds (DemoIn m (node :: rest)) (a.or b) := by
  cases a with
  | some code =>
    obtain ⟨place, hfirst⟩ := hnode
    exact ⟨0 :: place, hfirst.head⟩
  | none =>
    cases b with
    | some code =>
      obtain ⟨place, hfirst⟩ := hrest
      exact hfirst.tail hnode
    | none =>
      intro place code h
      obtain ⟨i, below, -, hbelow⟩ := exists_of_demoIn hnode h
      exact hrest (i :: below) code hbelow

/-- A node without children is searched by looking at the node alone. -/
theorem finds_leaf (h : node.children? = none) (hcode : ∀ code, node ≠ Code.toNode code) :
    Finds (DemoAt m node) none := by
  intro place code hdemo
  exact hcode code ((demoAt_iff_of_leaf h).mp hdemo).2.1

theorem finds_code (m : Marker) (code : Code) :
    Finds (DemoAt m code.toNode) (if m.marks code then some code else none) := by
  split
  · rename_i hmarks
    exact ⟨[], ⟨rfl, marks_iff.mp hmarks⟩, fun other hlt => absurd hlt (List.not_lt_nil other)⟩
  · rename_i hmarks
    intro place c hdemo
    obtain ⟨-, hnode, hc⟩ := (demoAt_iff_of_leaf rfl).mp hdemo
    obtain rfl := Code.toNode_injective hnode
    exact hmarks (marks_iff.mpr hc)

-- The induction is on the tree: a node is searched as the row of its children, and a row as its
-- first node and the rest.
mutual

theorem finds_find? (m : Marker) (node : Node) : Finds (DemoAt m node) (find? m node) := by
  cases node with
  | code lang info value => exact finds_code m ⟨lang, info, value⟩
  | heading depth children =>
    exact (finds_findIn? m children).of_iff fun _ _ => demoAt_iff_of_children rfl
  | paragraph children =>
    exact (finds_findIn? m children).of_iff fun _ _ => demoAt_iff_of_children rfl
  | parent kind children =>
    exact (finds_findIn? m children).of_iff fun _ _ => demoAt_iff_of_children rfl
  | _ => exact finds_leaf rfl fun _ => nofun

theorem finds_findIn? (m : Marker) (nodes : List Node) :
    Finds (DemoIn m nodes) (findIn? m nodes) := by
  cases nodes with
  | nil => exact finds_nil
  | cons node rest => exact (finds_find? m node).or (finds_findIn? m rest)

end

/-! ## The first demo -/

/-- No tree has two demos that are the first one. -/
theorem First.unique {a b : Code} {other : List Nat} (ha : First (DemoAt m root) place a)
    (hb : First (DemoAt m root) other b) : a = b := by
  rcases lt_trichotomy place other with hlt | rfl | hlt
  · exact absurd ha.here (hb.front place hlt a)
  · exact ha.here.unique hb.here
  · exact absurd hb.here (ha.front other hlt b)

theorem find?_eq_some_iff :
    find? m root = some code ↔ ∃ place, First (DemoAt m root) place code := by
  have hfinds := finds_find? m root
  constructor
  · intro h
    rwa [h] at hfinds
  · rintro ⟨place, hfirst⟩
    cases hfound : find? m root with
    | none =>
      rw [hfound] at hfinds
      exact absurd hfirst.here (hfinds place code)
    | some c =>
      rw [hfound] at hfinds
      obtain ⟨other, hother⟩ := hfinds
      rw [hother.unique hfirst]

theorem find?_eq_none_iff : find? m root = none ↔ ∀ place code, ¬ DemoAt m root place code := by
  have hfinds := finds_find? m root
  constructor
  · intro h
    rwa [h] at hfinds
  · intro hnone
    cases hfound : find? m root with
    | none => rfl
    | some c =>
      rw [hfound] at hfinds
      obtain ⟨place, hfirst⟩ := hfinds
      exact absurd hfirst.here (hnone place c)

/-- The first demo of a node in a tree is that of the tree, if none stands in front of the node. -/
theorem First.below (hat : root.at? place = some container)
    (hfront : ∀ other < place, ∀ c, ¬ DemoAt m root other c)
    (h : First (DemoAt m container) more code) : First (DemoAt m root) (place ++ more) code := by
  refine ⟨(demoAt_append hat).mpr h.here, fun other hlt c hc => ?_⟩
  rcases Node.lt_append hlt with hother | ⟨rest, rfl, hrest⟩
  · exact hfront other hother c hc
  · exact h.front rest hrest c ((demoAt_append hat).mp hc)

/-- The demo of a page is the block of code at the first place of its tree that holds a demo,
wherever that is, and there is none exactly if no place holds one. So a node with a demo, and with
none in front of it, gives the page its own, also if the outline does not look into the node. -/
theorem the_demo_of_a_page_is_the_first_of_its_tree (o : Options.Markdown) (root : Node) :
    (∀ code, find? o.demo root = some code ↔ ∃ place, First (DemoAt o.demo root) place code) ∧
      (find? o.demo root = none ↔ ∀ place code, ¬ DemoAt o.demo root place code) ∧
      (∀ value, (Page.collect o root).demo.map Code.value = some value ↔
        ∃ place code, First (DemoAt o.demo root) place code ∧ code.value = value) ∧
      ∀ place container code, root.at? place = some container →
        (∀ other < place, ∀ c, ¬ DemoAt o.demo root other c) →
        find? o.demo container = some code → (Page.collect o root).demo = some code := by
  have hcollect : (Page.collect o root).demo = find? o.demo root := rfl
  refine ⟨fun code => find?_eq_some_iff, find?_eq_none_iff, fun value => ?_, ?_⟩
  · rw [hcollect, Option.map_eq_some_iff]
    constructor
    · rintro ⟨code, hcode, hvalue⟩
      obtain ⟨place, hfirst⟩ := find?_eq_some_iff.mp hcode
      exact ⟨place, code, hfirst, hvalue⟩
    · rintro ⟨place, code, hfirst, hvalue⟩
      exact ⟨code, find?_eq_some_iff.mpr ⟨place, hfirst⟩, hvalue⟩
  · intro place container code hat hfront hcode
    obtain ⟨more, hfirst⟩ := find?_eq_some_iff.mp hcode
    rw [hcollect, find?_eq_some_iff]
    exact ⟨place ++ more, hfirst.below hat hfront⟩

/-- A block of code without a flag. -/
def unflaggedBlock : Code := ⟨some "vue", none, "plain"⟩

/-- A demo whose flag is one of two words. -/
def quotedBlock : Code := ⟨some "vue", some "wide demo", "quoted"⟩

/-- A quote of a list with a demo. -/
def demoQuote : Node :=
  .parent .blockquote [.paragraph [.text "see"], .parent .list [.parent .listItem
    [quotedBlock.toNode]]]

/-- A block without a flag, the quote, and a demo outside of it. -/
def quotingPage : Node :=
  .parent .root [unflaggedBlock.toNode, demoQuote, Node.code (some "vue") (some "demo") "last"]

theorem no_demo_before_demoQuote : ∀ other < [1], ∀ c,
    ¬ DemoAt Options.Markdown.standard.demo quotingPage other c := by
  intro other hlt c hc
  rw [quotingPage, demoAt_iff_of_children rfl] at hc
  cases other with
  | nil => exact hc
  | cons i place =>
    rcases List.cons_lt_cons_iff.mp hlt with hi | ⟨-, hplace⟩
    · obtain rfl := Nat.lt_one_iff.mp hi
      obtain ⟨-, hnode, hdemo⟩ := (demoAt_iff_of_leaf rfl).mp (demoIn_zero.mp hc)
      rw [← Code.toNode_injective hnode, ← marks_iff] at hdemo
      revert hdemo
      decide
    · exact List.not_lt_nil place hplace

/-- The outline reads the quote as a whole; its demo is that of the page, and the one behind the
quote, which is less deep, is not. -/
theorem quotedBlock_is_the_demo_of_its_page :
    Heading.entries demoQuote = Heading.blockEntries demoQuote ∧
      quotingPage.at? [1] = some demoQuote ∧
      (∀ other < [1], ∀ c, ¬ DemoAt Options.Markdown.standard.demo quotingPage other c) ∧
      find? Options.Markdown.standard.demo demoQuote = some quotedBlock ∧
      (Page.collect .standard quotingPage).demo = some quotedBlock := by
  obtain ⟨-, -, -, hbelow⟩ :=
    the_demo_of_a_page_is_the_first_of_its_tree .standard quotingPage
  have hquote : find? Options.Markdown.standard.demo demoQuote = some quotedBlock := by decide
  exact ⟨rfl, rfl, no_demo_before_demoQuote, hquote,
    hbelow [1] demoQuote quotedBlock rfl no_demo_before_demoQuote hquote⟩

end Demo

end DocPages
