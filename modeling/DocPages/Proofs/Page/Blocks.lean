-- Where the blocks of code of a page stand in its markup. Angles stand at the
-- front of tags, and one kind of tag opens a block, so the markup of a block
-- is found where a block has been written, and nowhere else.
import DocPages.Proofs.Page.Anchors
import DocPages.Proofs.Text.Search
import Mathlib.Data.Bool.AllAny
import Mathlib.Data.List.Infix

namespace DocPages.Page

open Markdown (Node)
open Markup (Bit StartTag)

/-! ## The blocks of a tree -/

/-- A block of code of a tree, and whether it stands in a note. -/
structure Block where
  noted : Bool
  code : Demo.Code
  deriving DecidableEq

mutual

/-- The blocks of code of a node, in order. -/
def blocks (inside : Bool) : Node → List Block
  | .code lang info value => [⟨inside, ⟨lang, info, value⟩⟩]
  | .heading _ children => blocksIn inside children
  | .paragraph children => blocksIn inside children
  | .parent kind children => blocksIn (inside || kind == .footnoteDefinition) children
  | _ => []

/-- The blocks of code of nodes in a row, in order. -/
def blocksIn (inside : Bool) : List Node → List Block
  | [] => []
  | node :: rest => blocks inside node ++ blocksIn inside rest

end

mutual

/-- The demo of a tree is the first of its blocks that is one. -/
theorem find?_blocks (m : Demo.Marker) (inside : Bool) (node : Node) :
    ((blocks inside node).find? fun b => m.marks b.code).map Block.code = Demo.find? m node := by
  cases node with
  | code lang info value =>
    unfold blocks Demo.find?
    dsimp only
    rw [List.find?_singleton]
    split <;> rfl
  | heading depth children => exact findIn?_blocks m inside children
  | paragraph children => exact findIn?_blocks m inside children
  | parent kind children => exact findIn?_blocks m _ children
  | _ => rfl

theorem findIn?_blocks (m : Demo.Marker) (inside : Bool) (nodes : List Node) :
    ((blocksIn inside nodes).find? fun b => m.marks b.code).map Block.code =
      Demo.findIn? m nodes := by
  cases nodes with
  | nil => rfl
  | cons node rest =>
    rw [blocksIn, Demo.findIn?, List.find?_append, Option.map_or, find?_blocks m inside node,
      findIn?_blocks m inside rest]

end

/-! ## Pieces of markup -/

/-- A piece of the markup of a page: a block of code with its number among the blocks of the tree, a
formula, or a part outside of both. -/
inductive Piece where
  | block (number : Nat) (content : List Char)
  | formula (content : List Char)
  | other (part : Part)

/-- The language that the markup of formulas names. -/
def formulaLanguage : List Char := "math math-display".toList

/-- The language that a piece names, as it is written. -/
def Piece.language? (list : List Block) : Piece → Option (List Char)
  | .block number _ =>
    (list[number]?.bind fun b => b.code.lang).map fun lang => Markdown.Url.encode lang.toList
  | .formula _ => some formulaLanguage
  | .other _ => none

/-- The opening of code with its language. -/
def codeTag (language : Option (List Char)) : StartTag :=
  ⟨"code".toList,
    (language.map fun language =>
      ⟨"class".toList, "class=\"language-".toList ++ language ++ ['\x22']⟩).toList, false⟩

/-- The parts of code that stands in a block of its own. -/
def codeParts (language : Option (List Char)) (content : List Char) : List Part :=
  [startPart "pre" [], .other (.start (codeTag language)), .other (.text content), stopPart "code",
    stopPart "pre"]

/-- The parts of a piece. -/
def Piece.parts (list : List Block) (p : Piece) : List Part :=
  match p with
  | .other part => [part]
  | .block _ content => codeParts (p.language? list) content
  | .formula content => codeParts (p.language? list) content

/-- What opens a block of code, where nothing else is said. -/
def preTag : List Char := ['<', 'p', 'r', 'e', '>']

/-- A part with no angle but the one that it begins with, which opens no block of code. -/
def Part.Quiet (p : Part) : Prop := '<' ∉ p.bit.chars.tail ∧ p.bit.chars ≠ preTag

instance (p : Part) : Decidable p.Quiet := inferInstanceAs (Decidable (_ ∧ _))

/-- The content of code holds no angle, and no other part opens code in a block of its own. -/
def Piece.Sound : Piece → Prop
  | .block _ content => '<' ∉ content
  | .formula content => '<' ∉ content
  | .other part => part.Quiet

instance : (p : Piece) → Decidable p.Sound
  | .block _ content => inferInstanceAs (Decidable ('<' ∉ content))
  | .formula content => inferInstanceAs (Decidable ('<' ∉ content))
  | .other part => inferInstanceAs (Decidable part.Quiet)

/-- The parts of pieces. -/
def partsOf (list : List Block) (pieces : List Piece) : List Part :=
  pieces.flatMap (Piece.parts list)

/-! ## Parts one after another -/

/-- A part as it is written if the headings from it on have the given anchors. -/
def written : List String → Part → List Char
  | id :: _, .heading _ depth => ((opening depth).add "id" id).chars
  | _, p => p.bit.chars

/-- The anchors of the headings behind a part. -/
def behind : List String → Part → List String
  | _ :: ids, .heading _ _ => ids
  | ids, _ => ids

theorem anchoredMarkup_cons (ids : List String) (p : Part) (rest : List Part) :
    anchoredMarkup ids (p :: rest) = written ids p ++ anchoredMarkup (behind ids p) rest := by
  have hnil : ∀ parts, anchoredMarkup [] parts = markup parts := by
    intro parts
    cases parts <;> rfl
  cases ids with
  | nil =>
    have hbehind : behind [] p = [] := by cases p <;> rfl
    have hwritten : written [] p = p.bit.chars := by cases p <;> rfl
    rw [hbehind, hwritten, hnil, hnil]
    rfl
  | cons id ids => cases p <;> rfl

/-- The anchors of the headings behind parts. -/
def behindAll (ids : List String) (parts : List Part) : List String := parts.foldl behind ids

theorem anchoredMarkup_append (ids : List String) (a b : List Part) :
    anchoredMarkup ids (a ++ b) = anchoredMarkup ids a ++ anchoredMarkup (behindAll ids a) b := by
  induction a generalizing ids with
  | nil => cases ids <;> rfl
  | cons p a ih =>
    rw [List.cons_append, anchoredMarkup_cons, anchoredMarkup_cons, ih, List.append_assoc]
    rfl

/-! ## Where code in a block of its own opens -/

/-- What code with a language opens with, in a block of its own. -/
def codeOpening : List Char := preTag ++ '<' :: "code class=\"language-".toList

theorem codeOpening_eq_cons : ∃ more, codeOpening = '<' :: 'p' :: more := ⟨_, rfl⟩

/-- The opening of code does not begin inside a value in quotes at the end of a tag. -/
theorem not_codeOpening_value {value : List Char} (h : '\x22' ∉ value) (rest : List Char) :
    ¬ codeOpening <+: value ++ '\x22' :: '>' :: rest := by
  rintro ⟨back, hback⟩
  have hopening : codeOpening ++ back =
      "<pre><code class=".toList ++ '\x22' :: ("language-".toList ++ back) := rfl
  -- Both texts go up to the first quote.
  have hfront : Text.before? ['\x22']
      ("<pre><code class=".toList ++ '\x22' :: ("language-".toList ++ back)) =
        some "<pre><code class=".toList :=
    Text.before?_of_not_mem (by decide) [] List.not_mem_nil _
  have hvalue : Text.before? ['\x22'] (value ++ '\x22' :: '>' :: rest) = some value :=
    Text.before?_of_not_mem h [] List.not_mem_nil _
  rw [← hopening, hback, hvalue, Option.some_inj] at hfront
  rw [hopening, hfront, List.append_cancel_left_eq] at hback
  cases hback

/-- A tag ends in an angle. -/
theorem getLast?_chars {bit : Bit} (hcalm : bit.Calm) (h : '<' ∈ bit.chars) :
    bit.chars.getLast? = some '>' := by
  cases bit with
  | text cs => exact absurd h hcalm
  | start tag =>
    have hsplit : tag.chars = '<' :: (tag.name ++ Markup.spaced tag.attributes) ++ tag.ending := rfl
    have hlast : tag.ending.getLast? = some '>' := by
      unfold StartTag.ending
      split <;> rfl
    rw [Bit.chars, hsplit, List.getLast?_append, hlast, Option.some_or]
  | stop name =>
    have hsplit : (Bit.stop name).chars = '<' :: '/' :: name ++ ['>'] := rfl
    rw [hsplit, List.getLast?_concat]

/-- Where the opening of code begins at the front of a tag, the tag is that of a block. -/
theorem eq_preTag {cs rest : List Char} (hangle : '<' ∉ cs.tail) (hlast : cs.getLast? = some '>')
    (h : codeOpening <+: cs ++ rest) : cs = preTag := by
  have hpre : preTag <+: cs ++ rest := (List.prefix_append _ _).trans h
  rcases List.prefix_or_prefix_of_prefix hpre (List.prefix_append _ _) with hlong | hshort
  · obtain ⟨back, rfl⟩ := hlong
    cases back with
    | nil => rw [List.append_nil]
    | cons c back =>
      rw [codeOpening, List.append_assoc, List.prefix_append_right_inj, List.cons_append,
        List.cons_prefix_cons] at h
      obtain ⟨rfl, -⟩ := h
      refine absurd ?_ hangle
      exact List.mem_append_right "pre>".toList List.mem_cons_self
  · have hinit : ∀ t ∈ preTag.inits, t.getLast? = some '>' → t = preTag := by decide
    exact hinit cs ((List.mem_inits _ _).mpr hshort) hlast

theorem quote_not_mem_quotedValue (value : List Char) : '\x22' ∉ Markup.quotedValue value := by
  unfold Markup.quotedValue
  rw [List.mem_flatMap]
  rintro ⟨c, -, hc⟩
  split at hc
  · revert hc
    decide
  · rename_i hne
    rw [List.mem_singleton] at hc
    exact hne (beq_iff_eq.mpr hc.symm)

/-- A heading up to the value of its anchor, behind the angle. -/
def headingFront (depth : Nat) : List Char := 'h' :: ((toString depth).toList ++ " id=\x22".toList)

/-- No opening of code begins in a heading with an anchor. -/
theorem not_codeOpening_heading {depth : Nat} (hlow : 1 ≤ depth) (hhigh : depth ≤ 6) (id : String)
    {a b : List Char} (hsplit : ((opening depth).add "id" id).chars = a ++ b) (hb : b ≠ [])
    (rest : List Char) : ¬ codeOpening <+: b ++ rest := by
  have hchars : ((opening depth).add "id" id).chars =
      '<' :: headingFront depth ++ (Markup.quotedValue id.toList ++ ['\x22', '>']) := by
    simp [StartTag.add, opening, StartTag.chars, headingFront]
  have hquote := quote_not_mem_quotedValue id.toList
  have hangle : '<' ∉ headingFront depth := by
    obtain rfl | rfl | rfl | rfl | rfl | rfl : depth = 1 ∨ depth = 2 ∨ depth = 3 ∨ depth = 4 ∨
        depth = 5 ∨ depth = 6 := by omega
    all_goals decide
  obtain ⟨inside, hopening⟩ := codeOpening_eq_cons
  rw [hchars] at hsplit
  rcases List.append_eq_append_iff.mp hsplit with ⟨front, rfl, hback⟩ | ⟨more, hfront, rfl⟩
  · rcases List.append_eq_append_iff.mp hback with ⟨front, -, hend⟩ | ⟨more, hvalue, rfl⟩
    · -- No angle opens a tag behind the value.
      intro h
      obtain ⟨c, b, rfl⟩ := List.exists_cons_of_ne_nil hb
      rw [hopening, List.cons_append] at h
      obtain ⟨rfl, -⟩ := List.cons_prefix_cons.mp h
      have hmem : '<' ∈ ['\x22', '>'] := by
        rw [hend]
        exact List.mem_append_right _ List.mem_cons_self
      revert hmem
      decide
    · rw [List.append_assoc]
      refine not_codeOpening_value (fun hmem => hquote ?_) rest
      rw [hvalue]
      exact List.mem_append_right _ hmem
  · cases more with
    | nil =>
      rw [List.nil_append, List.append_assoc]
      exact not_codeOpening_value hquote rest
    | cons c more =>
      intro h
      rw [hopening, List.cons_append, List.cons_append] at h
      obtain ⟨rfl, hnext⟩ := List.cons_prefix_cons.mp h
      cases a with
      | nil =>
        obtain ⟨-, hmore⟩ := List.cons.inj hfront
        rw [← hmore, headingFront, List.cons_append, List.cons_append] at hnext
        cases (List.cons_prefix_cons.mp hnext).1
      | cons d a =>
        obtain ⟨-, htail⟩ := List.cons.inj hfront
        rw [htail] at hangle
        exact hangle (List.mem_append_right _ List.mem_cons_self)

/-- An opening of code that begins in a part begins at its front, and the part is the tag of a
block. -/
theorem eq_preTag_of_written {headers : List Header} {p : Part} (hsound : p.Sound headers)
    (hangle : '<' ∉ p.bit.chars.tail) {ids : List String} {a b rest : List Char}
    (hwritten : written ids p = a ++ b) (hb : b ≠ []) (h : codeOpening <+: b ++ rest) :
    a = [] ∧ p.bit.chars = preTag := by
  have hbit : written ids p = p.bit.chars := by
    cases ids with
    | nil => cases p <;> rfl
    | cons id ids =>
      cases p with
      | other bit => rfl
      | heading number depth =>
        exact absurd h (not_codeOpening_heading hsound.2.1 hsound.2.2 id hwritten hb _)
  obtain ⟨c, more, rfl⟩ := List.exists_cons_of_ne_nil hb
  have hc : c = '<' := by
    obtain ⟨inside, hopening⟩ := codeOpening_eq_cons
    rw [hopening, List.cons_append] at h
    exact (List.cons_prefix_cons.mp h).1.symm
  rw [hbit] at hwritten
  cases a with
  | nil =>
    rw [List.nil_append] at hwritten
    have hmem : '<' ∈ p.bit.chars := by
      rw [hwritten, hc]
      exact List.mem_cons_self
    rw [← hwritten] at h
    exact ⟨rfl, eq_preTag hangle (getLast?_chars hsound.calm hmem) h⟩
  | cons d a =>
    refine absurd ?_ hangle
    rw [hwritten, List.cons_append, List.tail_cons, hc]
    exact List.mem_append_right _ List.mem_cons_self

/-- Where the opening of code begins in the markup of parts, a part stands that opens a block. -/
theorem exists_of_codeOpening {headers : List Header} {parts : List Part}
    (hsound : ∀ p ∈ parts, p.Sound headers) (hangle : ∀ p ∈ parts, '<' ∉ p.bit.chars.tail)
    {ids : List String} {a b : List Char} (hsplit : anchoredMarkup ids parts = a ++ b)
    (h : codeOpening <+: b) :
    ∃ front part back, parts = front ++ part :: back ∧ part.bit.chars = preTag ∧
      a = anchoredMarkup ids front ∧ b = anchoredMarkup (behindAll ids front) (part :: back) := by
  induction parts generalizing ids a with
  | nil =>
    have hnil : a ++ b = [] := by
      rw [← hsplit]
      cases ids <;> rfl
    rw [(List.append_eq_nil_iff.mp hnil).2] at h
    cases List.prefix_nil.mp h
  | cons p rest ih =>
    rw [List.forall_mem_cons] at hsound hangle
    -- The rest of the parts, if the text begins behind this one.
    have hlater : ∀ later, a = written ids p ++ later →
        anchoredMarkup (behind ids p) rest = later ++ b →
        ∃ front part back, p :: rest = front ++ part :: back ∧ part.bit.chars = preTag ∧
          a = anchoredMarkup ids front ∧
          b = anchoredMarkup (behindAll ids front) (part :: back) := by
      intro later ha hrest
      obtain ⟨front, part, back, rfl, hpart, rfl, hb⟩ := ih hsound.2 hangle.2 hrest
      refine ⟨p :: front, part, back, rfl, hpart, ?_, hb⟩
      rw [anchoredMarkup_cons, ha]
    have hwhole := hsplit
    rw [anchoredMarkup_cons] at hsplit
    rcases List.append_eq_append_iff.mp hsplit with ⟨later, ha, hrest⟩ | ⟨more, hpart, hb⟩
    · exact hlater later ha hrest
    cases more with
    | nil =>
      rw [List.append_nil] at hpart
      refine hlater [] ?_ hb.symm
      rw [hpart, List.append_nil]
    | cons c more =>
      rw [hb] at h
      obtain ⟨rfl, hpre⟩ :=
        eq_preTag_of_written hsound.1 hangle.1 hpart (List.cons_ne_nil _ _) h
      rw [List.nil_append] at hwhole
      exact ⟨[], p, rest, rfl, hpre, by cases ids <;> rfl, hwhole.symm⟩

/-! ## Pieces one after another -/

/-- The numbers of the blocks of code in the order in which the markup shows them. -/
def shownBlocks (pieces : List Piece) : List Nat :=
  pieces.filterMap fun
    | .block number _ => some number
    | _ => none

/-- What the parser promises of the blocks of code of one text. Its markup is made of the given
pieces, of which only code in a block of its own opens as such. The blocks outside of notes come
first, in the order of the tree; the notes stand at the end of the page. No block comes twice. -/
structure Shows (o : Options.Markdown) (root : Node) (html : List Char) (pieces : List Piece) :
    Prop where
  fits : Fits o root html (partsOf (blocks false root) pieces)
  sound : ∀ p ∈ pieces, p.Sound
  order : Heading.outsideFrom 0 ((blocks false root).map Block.noted) <+: shownBlocks pieces
  once : (shownBlocks pieces).Nodup

variable {list : List Block} {pieces : List Piece}

theorem partsOf_append (list : List Block) (a b : List Piece) :
    partsOf list (a ++ b) = partsOf list a ++ partsOf list b := List.flatMap_append

theorem mem_encodeChar (c : Char) :
    ∀ x ∈ Markdown.Url.encodeChar c, x ≠ '<' ∧ x ≠ '\x22' := by
  unfold Markdown.Url.encodeChar
  split
  case h_6 hangle _ hquote _ =>
    intro x h
    rw [List.mem_singleton] at h
    exact ⟨fun hx => hangle (h ▸ hx), fun hx => hquote (h ▸ hx)⟩
  all_goals exact List.all_iff_forall_prop.mp (by decide)

theorem mem_encode {x : Char} {cs : List Char} (h : x ∈ Markdown.Url.encode cs) :
    x ≠ '<' ∧ x ≠ '\x22' := by
  obtain ⟨c, -, hc⟩ := List.mem_flatMap.mp h
  exact mem_encodeChar c x hc

theorem length_le_encode (cs : List Char) : cs.length ≤ (Markdown.Url.encode cs).length := by
  induction cs with
  | nil => exact Nat.le_refl _
  | cons c cs ih =>
    have hne : 0 < (Markdown.Url.encodeChar c).length := by
      unfold Markdown.Url.encodeChar
      split <;> simp
    have hcons : Markdown.Url.encode (c :: cs) =
        Markdown.Url.encodeChar c ++ Markdown.Url.encode cs := List.flatMap_cons
    rw [hcons, List.length_append, List.length_cons]
    omega

theorem mem_language? {p : Piece} {language : List Char} (h : p.language? list = some language)
    {x : Char} (hx : x ∈ language) : x ≠ '<' ∧ x ≠ '\x22' := by
  cases p with
  | block number content =>
    obtain ⟨lang, -, rfl⟩ := Option.map_eq_some_iff.mp h
    exact mem_encode hx
  | formula content =>
    cases h
    have hplain : ∀ x ∈ formulaLanguage, x ≠ '<' ∧ x ≠ '\x22' :=
      List.all_iff_forall_prop.mp (by decide)
    exact hplain x hx
  | other part => cases h

theorem codeTag_quiet {language : Option (List Char)} (h : ∀ l ∈ language, '<' ∉ l) :
    (Part.other (.start (codeTag language))).Quiet := by
  have hchars : ∃ more, (codeTag language).chars = '<' :: 'c' :: more ∧ '<' ∉ more := by
    cases language with
    | none => exact ⟨"ode>".toList, by decide, by decide⟩
    | some l =>
      refine ⟨"ode class=\"language-".toList ++ l ++ ['\x22', '>'], ?_, ?_⟩
      · simp [codeTag, StartTag.chars]
      · simp [h l rfl]
  obtain ⟨more, hmore, hangle⟩ := hchars
  have hbit : (Part.other (.start (codeTag language))).bit.chars = (codeTag language).chars := rfl
  unfold Part.Quiet
  rw [hbit, hmore]
  constructor
  · simp [hangle]
  · simp [preTag]

/-- Of the parts of code in a block of its own, the first one opens the block, and no other. -/
theorem codeParts_quiet {language : Option (List Char)} (h : ∀ l ∈ language, '<' ∉ l)
    {content : List Char} (hcontent : '<' ∉ content) :
    ∃ rest, codeParts language content = startPart "pre" [] :: rest ∧ ∀ p ∈ rest, p.Quiet := by
  refine ⟨_, rfl, ?_⟩
  simp only [List.forall_mem_cons, List.not_mem_nil, false_implies, implies_true, and_true]
  refine ⟨codeTag_quiet h, ⟨?_, ?_⟩, by decide, by decide⟩
  · exact fun hmem => hcontent (List.mem_of_mem_tail hmem)
  · intro heq
    have hmem : '<' ∈ content := by
      have hbit : content = preTag := heq
      rw [hbit]
      decide
    exact hcontent hmem

/-- A piece is a part of its own, or it is code in a block. -/
theorem Piece.Sound.parts_cases {p : Piece} (h : p.Sound) (list : List Block) :
    (∃ part, p.parts list = [part] ∧ part.Quiet) ∨
      ∃ content, '<' ∉ content ∧ p.parts list = codeParts (p.language? list) content := by
  cases p with
  | block number content => exact Or.inr ⟨content, h, rfl⟩
  | formula content => exact Or.inr ⟨content, h, rfl⟩
  | other part => exact Or.inl ⟨part, rfl, h⟩

theorem angle_not_mem_partsOf (hsound : ∀ p ∈ pieces, p.Sound) :
    ∀ part ∈ partsOf list pieces, '<' ∉ part.bit.chars.tail := by
  intro part hpart
  obtain ⟨p, hp, hmem⟩ := List.mem_flatMap.mp hpart
  rcases (hsound p hp).parts_cases list with ⟨other, heq, hquiet⟩ | ⟨content, hc, heq⟩
  · rw [heq, List.mem_singleton] at hmem
    rw [hmem]
    exact hquiet.1
  · obtain ⟨rest, hrest, hquiet⟩ :=
      codeParts_quiet (fun l hl hx => (mem_language? hl hx).1 rfl) hc
    rw [heq, hrest, List.mem_cons] at hmem
    rcases hmem with rfl | hmem
    · decide
    · exact (hquiet part hmem).1

/-- A part that opens a block is the first one of code in a block. -/
theorem exists_of_preTag (hsound : ∀ p ∈ pieces, p.Sound) {front back : List Part} {part : Part}
    (hsplit : partsOf list pieces = front ++ part :: back) (hpre : part.bit.chars = preTag) :
    ∃ before p after content, pieces = before ++ p :: after ∧ front = partsOf list before ∧
      p.parts list = codeParts (p.language? list) content := by
  induction pieces generalizing front with
  | nil => simp [partsOf] at hsplit
  | cons q rest ih =>
    rw [List.forall_mem_cons] at hsound
    have hlater : ∀ later, front = q.parts list ++ later →
        partsOf list rest = later ++ part :: back →
        ∃ before p after content, q :: rest = before ++ p :: after ∧ front = partsOf list before ∧
          p.parts list = codeParts (p.language? list) content := by
      intro later hfront hrest
      obtain ⟨before, p, after, content, rfl, rfl, hparts⟩ := ih hsound.2 hrest
      exact ⟨q :: before, p, after, content, rfl, hfront, hparts⟩
    have hcons : partsOf list (q :: rest) = q.parts list ++ partsOf list rest := rfl
    rw [hcons] at hsplit
    rcases List.append_eq_append_iff.mp hsplit with ⟨later, hfront, hrest⟩ | ⟨more, hq, hback⟩
    · exact hlater later hfront hrest
    cases more with
    | nil =>
      rw [List.append_nil] at hq
      exact hlater [] (by rw [List.append_nil, hq]) hback.symm
    | cons first more =>
      obtain ⟨rfl, -⟩ := List.cons.inj hback
      rcases hsound.1.parts_cases list with ⟨other, heq, hquiet⟩ | ⟨content, hc, heq⟩
      · have hmem : part ∈ [other] := by
          rw [← heq, hq]
          exact List.mem_append_right _ List.mem_cons_self
        rw [List.mem_singleton] at hmem
        exact absurd (hmem ▸ hpre) hquiet.2
      · obtain ⟨inside, hinside, hquiet⟩ :=
          codeParts_quiet (fun l hl hx => (mem_language? hl hx).1 rfl) hc
        cases front with
        | nil => exact ⟨[], q, rest, content, rfl, rfl, heq⟩
        | cons f front =>
          rw [heq, hinside] at hq
          obtain ⟨-, hq⟩ := List.cons.inj hq
          refine absurd hpre (hquiet part ?_).2
          rw [hq]
          exact List.mem_append_right _ List.mem_cons_self

end DocPages.Page
