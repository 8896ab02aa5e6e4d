-- Which anchors the headings of a page get. The anchors are collected in the
-- order of the tree and handed out in the order of the markup. So each heading
-- gets its own one as long as the markup shows the headings of the tree from
-- the first one on, without moving or leaving out any in front of another.
import DocPages.Page.Show
import DocPages.Proofs.Heading.Distinct
import DocPages.Proofs.Heading.Notes
import DocPages.Proofs.Markup.Bits

namespace DocPages

open Markdown (Node)
open Markup (Bit StartTag)

namespace Page

/-! ## Headings in markup -/

/-- A part of the markup of a page: the opening of a heading, with the number that the heading has
in the outline and with its depth, or a bit that takes no anchor. -/
inductive Part where
  | heading (number depth : Nat)
  | other (bit : Bit)

/-- The opening of a heading. -/
def opening (depth : Nat) : StartTag := ⟨'h' :: (toString depth).toList, [], false⟩

/-- A part as a bit of the markup. -/
def Part.bit : Part → Bit
  | .heading _ depth => .start (opening depth)
  | .other bit => bit

/-- A bit that takes no anchor: it is no opening of a heading, or it has an `id` of its own. -/
def takesNone : Bit → Prop
  | .start tag => Heading.isHeadingName tag.name = false ∨ tag.has "id" = true
  | _ => True

instance : (bit : Bit) → Decidable (takesNone bit)
  | .start tag =>
    inferInstanceAs (Decidable (Heading.isHeadingName tag.name = false ∨ tag.has "id" = true))
  | .text _ => .isTrue trivial
  | .stop _ => .isTrue trivial

/-- A part of the markup of a page with the given headings. -/
def Part.Sound (headers : List Header) : Part → Prop
  | .heading number depth =>
    (headers[number]?.map Header.level) = some depth ∧ 1 ≤ depth ∧ depth ≤ 6
  | .other bit => bit.Calm ∧ takesNone bit

instance (headers : List Header) : (p : Part) → Decidable (p.Sound headers)
  | .heading number depth =>
    inferInstanceAs
      (Decidable ((headers[number]?.map Header.level) = some depth ∧ 1 ≤ depth ∧ depth ≤ 6))
  | .other bit => inferInstanceAs (Decidable (bit.Calm ∧ takesNone bit))

/-- The markup that parts make. -/
def markup (parts : List Part) : List Char := (parts.map Part.bit).flatMap Bit.chars

/-- The markup that parts make if their headings have the given anchors, one after another. -/
def anchoredMarkup : List String → List Part → List Char
  | _, [] => []
  | [], parts => markup parts
  | id :: ids, .heading _ depth :: rest =>
    ((opening depth).add "id" id).chars ++ anchoredMarkup ids rest
  | ids, .other bit :: rest => bit.chars ++ anchoredMarkup ids rest

/-- The numbers of the headings in the order in which the markup shows them. -/
def shown (parts : List Part) : List Nat :=
  parts.filterMap fun
    | .heading number _ => some number
    | .other _ => none

/-! ## Handing out anchors -/

theorem isTagName_opening {depth : Nat} (hlow : 1 ≤ depth) (hhigh : depth ≤ 6) :
    Markup.IsTagName (opening depth).name ∧ Heading.isHeadingName (opening depth).name = true ∧
      String.ofList (Text.asciiLower (opening depth).name) ∉ Markup.loudElements := by
  obtain rfl | rfl | rfl | rfl | rfl | rfl : depth = 1 ∨ depth = 2 ∨ depth = 3 ∨ depth = 4 ∨
      depth = 5 ∨ depth = 6 := by omega
  all_goals exact ⟨by decide, by decide, by decide⟩

theorem Part.Sound.calm {headers : List Header} {p : Part} (h : p.Sound headers) : p.bit.Calm := by
  cases p with
  | heading number depth =>
    obtain ⟨hname, -, hloud⟩ := isTagName_opening h.2.1 h.2.2
    exact ⟨⟨hname, fun a ha => by cases ha⟩, hloud⟩
  | other bit => exact h.1

theorem placeAnchor_opening {depth : Nat} (hlow : 1 ≤ depth) (hhigh : depth ≤ 6) (id : String)
    (anchors : List (Option String)) :
    Heading.placeAnchor (some id :: anchors) (opening depth) =
      (some ((opening depth).add "id" id), anchors) := by
  have hheading := (isTagName_opening hlow hhigh).2.1
  have hid : (opening depth).has "id" = false := rfl
  unfold Heading.placeAnchor
  simp only [hheading, hid, Bool.not_true, Bool.or_false, Bool.false_eq_true, if_false,
    Option.map_some]

theorem placeAnchor_nil (tag : StartTag) : Heading.placeAnchor [] tag = (none, []) := by
  unfold Heading.placeAnchor
  split <;> rfl

theorem placeAnchor_none {tag : StartTag} (h : takesNone (.start tag))
    (anchors : List (Option String)) : Heading.placeAnchor anchors tag = (none, anchors) := by
  unfold Heading.placeAnchor
  rcases h with h | h
  · simp [h]
  · simp [h]

/-- A bit that takes no anchor stays as it is. -/
theorem editBits_other {bit : Bit} (h : takesNone bit) (anchors : List (Option String))
    (rest : List Bit) :
    Markup.editBits Heading.placeAnchor anchors (bit :: rest) =
      bit.chars ++ Markup.editBits Heading.placeAnchor anchors rest := by
  cases bit with
  | start tag =>
    rw [Markup.editBits, placeAnchor_none h]
    rfl
  | text cs => rfl
  | stop name => rfl

/-- Where no anchors are left, nothing changes. -/
theorem editBits_nil (bits : List Bit) :
    Markup.editBits Heading.placeAnchor [] bits = bits.flatMap Bit.chars := by
  induction bits with
  | nil => rfl
  | cons b rest ih =>
    rw [List.flatMap_cons, ← ih]
    cases b with
    | start tag =>
      rw [Markup.editBits, placeAnchor_nil]
      rfl
    | text cs => rfl
    | stop name => rfl

/-- Each heading that the markup shows takes the next anchor. -/
theorem editBits_parts {headers : List Header} (ids : List String) (parts : List Part)
    (h : ∀ p ∈ parts, p.Sound headers) :
    Markup.editBits Heading.placeAnchor (ids.map some) (parts.map Part.bit) =
      anchoredMarkup ids parts := by
  induction parts generalizing ids with
  | nil => cases ids <;> rfl
  | cons p rest ih =>
    have hp := h p List.mem_cons_self
    have hrest := fun ids => ih ids fun x hx => h x (List.mem_cons_of_mem p hx)
    cases ids with
    | nil => exact editBits_nil _
    | cons id ids =>
      cases p with
      | heading number depth =>
        rw [List.map_cons, List.map_cons, Part.bit, Markup.editBits,
          placeAnchor_opening hp.2.1 hp.2.2, hrest]
        rfl
      | other bit =>
        have hother := editBits_other hp.2 ((id :: ids).map some) (rest.map Part.bit)
        rw [hrest] at hother
        exact hother

/-! ## Own anchors -/

theorem lt_of_mem_shown {headers : List Header} {parts : List Part}
    (h : ∀ p ∈ parts, p.Sound headers) {number : Nat} (hn : number ∈ shown parts) :
    number < headers.length := by
  obtain ⟨p, hp, heq⟩ := List.mem_filterMap.mp hn
  cases p with
  | heading n depth =>
    cases heq
    obtain ⟨header, hget, -⟩ := Option.map_eq_some_iff.mp (h _ hp).1
    exact (List.getElem?_eq_some_iff.mp hget).1
  | other bit => cases heq

/-- Of distinct slugs the one that comes is the one of the heading, for each heading shown, if and
only if the headings are shown from the first one on. -/
theorem own_iff_prefix {slugs : List String} (hnodup : slugs.Nodup) {numbers : List Nat}
    (hbound : ∀ n ∈ numbers, n < slugs.length) :
    (∀ (i n : Nat), numbers[i]? = some n → slugs[i]? = slugs[n]?) ↔
      numbers <+: List.range slugs.length := by
  constructor
  · intro hown
    have hself : ∀ i (hi : i < numbers.length), numbers[i] = i := by
      intro i hi
      have hmem := hbound numbers[i] (List.getElem_mem hi)
      have heq := hown i numbers[i] (List.getElem?_eq_getElem hi)
      rw [List.getElem?_eq_getElem hmem] at heq
      obtain ⟨hlt, hget⟩ := List.getElem?_eq_some_iff.mp heq
      exact ((List.Nodup.getElem_inj_iff hnodup).mp hget).symm
    rw [List.prefix_iff_getElem?]
    intro i hi
    rw [List.getElem?_range, hself i hi]
    rw [← hself i hi]
    exact hbound _ (List.getElem_mem hi)
  · intro hprefix i n hn
    obtain ⟨hi, hget⟩ := List.getElem?_eq_some_iff.mp hn
    have hrange := hprefix.getElem hi
    rw [List.getElem_range, hget] at hrange
    rw [hrange]

/-! ## Parsers -/

/-- A parser of pages: the tree and the markup that it makes of a text. -/
structure Parser where
  tree : Options.Markdown → String → Node
  markup : Options.Markdown → String → List Char

/-- The parser that pages are shown by. -/
def Parser.standard : Parser := ⟨Page.tree, fun o text => Markdown.Html.ofText o.flavor text.toList⟩

/-- Shows a text by a parser. -/
def renderBy (parser : Parser) (o : Options.Markdown) (text : String) : Traced Rendered := do
  let c := collect o (parser.tree o text)
  if c.demo.isSome then Traced.note (.demoFound o.demoLanguage o.demoFlag)
  let html ← Traced.answer (anchored o c (parser.markup o text))
  return ⟨String.ofList html, c.headers, c.demo.map (·.value)⟩

theorem renderBy_standard (o : Options.Markdown) (text : String) :
    renderBy .standard o text = render o text := by
  unfold renderBy render Parser.standard
  dsimp only

/-! ## The law -/

/-- The slugs of the headings of a tree, in order. -/
def slugsOf (root : Node) : List String := (Heading.outline root).headers.map Header.slug

/-- What the parser promises of the tree and the markup that it makes of one text. Where raw markup
is not in use the tree holds none. The markup is well formed and is made of the given parts, whose
headings are headings of the tree. Those outside of notes come first, in the order of the tree; the
notes stand at the end of the page, and only those that are called. -/
structure Fits (o : Options.Markdown) (root : Node) (html : List Char) (parts : List Part) :
    Prop where
  plain : o.allowRawHtml = false → Heading.anyRaw (Heading.below root) = false
  html : html = markup parts
  sound : ∀ p ∈ parts, p.Sound (Heading.outline root).headers
  order : Heading.outside root <+: shown parts

theorem anchored_parts {o : Options.Markdown} (hraw : o.allowRawHtml = false)
    (hanchors : o.headingAnchors = true) {root : Node} {html : List Char} {parts : List Part}
    (hfits : Fits o root html parts) :
    anchored o (collect o root) html = .ok (anchoredMarkup (slugsOf root) parts) := by
  have hedit : Heading.placeAnchors (Heading.outline root).anchors html =
      .ok (anchoredMarkup (slugsOf root) parts) := by
    have hids : (Heading.outline root).anchors = (slugsOf root).map some := by
      rw [Heading.outline_anchors (hfits.plain hraw), slugsOf, List.map_map]
      rfl
    have hcalm : ∀ b ∈ parts.map Part.bit, b.Calm := by
      intro b hb
      obtain ⟨p, hp, rfl⟩ := List.mem_map.mp hb
      exact (hfits.sound p hp).calm
    unfold Heading.placeAnchors
    rw [hids, hfits.html, markup, Markup.edit_bits _ _ hcalm, editBits_parts _ _ hfits.sound]
  unfold anchored collect
  dsimp only
  split
  · rw [hedit]
  · rename_i hnone
    have hslugs : slugsOf root = [] := by
      simpa [hanchors, slugsOf] using hnone
    rw [hslugs, hfits.html]
    cases parts <;> rfl

/-- A heading outside of notes is shown at its place among those, and gets its own anchor there if
and only if no heading in front of it stands in a note. -/
theorem outside_own_iff {o : Options.Markdown} {root : Node} {html : List Char} {parts : List Part}
    (hfits : Fits o root html parts) {i n : Nat} (hn : (Heading.outside root)[i]? = some n) :
    (shown parts)[i]? = some n ∧
      ((slugsOf root)[i]? = (slugsOf root)[n]? ↔
        ∀ m < n, (Heading.notedAll false (Heading.below root))[m]? = some false) := by
  obtain ⟨hlow, hhigh, hplace⟩ := Heading.outsideFrom_place hn
  rw [Heading.noted_outline] at hhigh
  have hbound : n < (slugsOf root).length := by
    rw [slugsOf, List.length_map]
    omega
  refine ⟨?_, ?_⟩
  · obtain ⟨hi, hget⟩ := List.getElem?_eq_some_iff.mp hn
    have hi' := Nat.lt_of_lt_of_le hi hfits.order.length_le
    rw [List.getElem?_eq_getElem hi', ← hfits.order.getElem hi, hget]
  · have hsame : (slugsOf root)[i]? = (slugsOf root)[n]? ↔ 0 + i = n := by
      rw [Nat.zero_add, List.getElem?_eq_getElem hbound,
        List.getElem?_eq_getElem (Nat.lt_of_le_of_lt (by omega : i ≤ n) hbound), Option.some_inj]
      exact List.Nodup.getElem_inj_iff (Heading.outline_slugs_nodup root)
    rw [hsame, hplace]
    simp only [Nat.zero_add]

/-- Whatever parser a text is shown by, its headings get the anchors of the outline one after
another, in the order of the markup. All headings shown get their own anchors if and only if they
are the headings of the tree from the first one on, in order. One outside of notes gets its own if
and only if no heading in front of it stands in a note. -/
theorem headings_have_their_own_anchors_iff_shown_in_order (parser : Parser)
    (o : Options.Markdown) (text : String) (parts : List Part) (hraw : o.allowRawHtml = false)
    (hanchors : o.headingAnchors = true)
    (hfits : Fits o (parser.tree o text) (parser.markup o text) parts) :
    (renderBy parser o text).outcome = .ok
        ⟨String.ofList (anchoredMarkup (slugsOf (parser.tree o text)) parts),
          (Heading.outline (parser.tree o text)).headers,
          (Demo.find? o.demo (parser.tree o text)).map (·.value)⟩ ∧
      ((∀ (i n : Nat), (shown parts)[i]? = some n →
          (slugsOf (parser.tree o text))[i]? = (slugsOf (parser.tree o text))[n]?) ↔
        shown parts <+: List.range (slugsOf (parser.tree o text)).length) ∧
      ∀ (i n : Nat), (Heading.outside (parser.tree o text))[i]? = some n →
        (shown parts)[i]? = some n ∧
          ((slugsOf (parser.tree o text))[i]? = (slugsOf (parser.tree o text))[n]? ↔
            ∀ m < n,
              (Heading.notedAll false (Heading.below (parser.tree o text)))[m]? = some false) := by
  refine ⟨?_, ?_, fun i n hn => outside_own_iff hfits hn⟩
  · unfold renderBy
    dsimp only
    rw [anchored_parts hraw hanchors hfits]
    unfold collect
    dsimp only
    cases Demo.find? o.demo (parser.tree o text) <;> rfl
  · refine own_iff_prefix (Heading.outline_slugs_nodup _) fun n hn => ?_
    rw [List.length_map]
    exact lt_of_mem_shown hfits.sound hn

/-- The options of a page without raw markup. -/
def plainOptions : Options.Markdown := { Options.Markdown.standard with allowRawHtml := false }

/-- A page with a heading in a quote, one in a note, and one behind the note, which is called. -/
def calledNote : String := "> # A\n\n[^n]: # Note\n\n# B\n\nx[^n]\n"

/-- A text between two tags. -/
def textPart (text : String) : Part := .other (.text text.toList)

/-- A start tag with its attributes. -/
def startPart (name : String) (attributes : List (String × String)) : Part :=
  .other (.start ⟨name.toList,
    attributes.map fun (key, value) =>
      ⟨key.toList, key.toList ++ '=' :: '\x22' :: (value.toList ++ ['\x22'])⟩,
    false⟩)

/-- An end tag. -/
def stopPart (name : String) : Part := .other (.stop name.toList)

/-- The parts of its markup. The heading of the note stands at the end. -/
def calledNoteParts : List Part :=
  [startPart "blockquote" [], textPart "\n",
    .heading 0 1, textPart "A", stopPart "h1", textPart "\n", stopPart "blockquote", textPart "\n",
    .heading 2 1, textPart "B", stopPart "h1", textPart "\n",
    startPart "p" [], textPart "x", startPart "sup" [],
    startPart "a"
      [("href", "#user-content-fn-n"), ("id", "user-content-fnref-n"), ("data-footnote-ref", ""),
        ("aria-describedby", "footnote-label")],
    textPart "1", stopPart "a", stopPart "sup", stopPart "p", textPart "\n",
    startPart "section" [("data-footnotes", ""), ("class", "footnotes")],
    startPart "h2" [("id", "footnote-label"), ("class", "sr-only")],
    textPart "Footnotes", stopPart "h2", textPart "\n", startPart "ol" [], textPart "\n",
    startPart "li" [("id", "user-content-fn-n")], textPart "\n",
    .heading 1 1, textPart "Note", stopPart "h1", textPart "\n",
    startPart "a"
      [("href", "#user-content-fnref-n"), ("data-footnote-backref", ""),
        ("aria-label", "Back to content"), ("class", "data-footnote-backref")],
    textPart "↩", stopPart "a", textPart "\n", stopPart "li", textPart "\n", stopPart "ol",
    textPart "\n", stopPart "section", textPart "\n"]

theorem calledNote_fits :
    Fits plainOptions (tree plainOptions calledNote)
      (Markdown.Html.ofText plainOptions.flavor calledNote.toList) calledNoteParts := by
  refine ⟨fun _ => ?_, ?_, ?_, ?_⟩
  · decide +kernel
  · decide +kernel
  · decide +kernel
  · decide +kernel

/-- The page is shown with the anchors in the order of the tree, so the heading behind the note does
not get its own one. -/
theorem calledNote_is_not_shown_in_order :
    (render plainOptions calledNote).outcome.toOption.map Rendered.html =
        some (String.ofList (anchoredMarkup ["a", "note", "b"] calledNoteParts)) ∧
      (¬ ∀ (i n : Nat), (shown calledNoteParts)[i]? = some n →
        (slugsOf (tree plainOptions calledNote))[i]? =
          (slugsOf (tree plainOptions calledNote))[n]?) ∧
      (slugsOf (tree plainOptions calledNote))[1]? ≠
        (slugsOf (tree plainOptions calledNote))[2]? := by
  have hfits : Fits plainOptions (Parser.standard.tree plainOptions calledNote)
      (Parser.standard.markup plainOptions calledNote) calledNoteParts := by
    dsimp only [Parser.standard]
    exact calledNote_fits
  have hlaw := headings_have_their_own_anchors_iff_shown_in_order .standard plainOptions calledNote
    calledNoteParts rfl rfl hfits
  rw [renderBy_standard] at hlaw
  dsimp only [Parser.standard] at hlaw
  obtain ⟨houtcome, hall, hone⟩ := hlaw
  have hslugs : slugsOf (tree plainOptions calledNote) = ["a", "note", "b"] := by decide +kernel
  refine ⟨?_, ?_, ?_⟩
  · rw [houtcome, ← hslugs, Except.toOption, Option.map_some]
  · rw [hall]
    decide +kernel
  · have hplace : (Heading.outside (tree plainOptions calledNote))[1]? = some 2 := by
      decide +kernel
    rw [ne_eq, (hone 1 2 hplace).2]
    decide +kernel

/-- A page with a heading in a note that is not called, and one behind the note. -/
def uncalledNote : String := "[^n]: # Note\n\n# B\n"

/-- The heading behind the note is shown alone, and has the anchor of the one in the note. -/
theorem uncalledNote_gives_a_wrong_anchor :
    (render plainOptions uncalledNote).outcome.toOption.map
        (fun page => (page.html, page.headers)) =
      some ("<h1 id=\"note\">B</h1>\n", [⟨1, "Note", "note", ""⟩, ⟨1, "B", "b", ""⟩]) := by
  decide +kernel

end Page

end DocPages
