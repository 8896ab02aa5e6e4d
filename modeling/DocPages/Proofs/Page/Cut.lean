-- The markup that a preview is given: that of the page in front of the first
-- block of code whose language is written as that of demos. It ends in front
-- of the demo if no such block stands there.
import DocPages.Proofs.Compile.Order
import DocPages.Proofs.Demo.Delivered
import DocPages.Proofs.Demo.Payload
import DocPages.Proofs.Page.Marks

namespace DocPages

open Markdown (Node)
open TemplateTokens (breakPairs)

namespace Demo

/-! ## The markup among the data -/

/-- A text is cut at a place if and only if the marker stands there, and nowhere in front of it. -/
theorem cut_eq_iff {marker : String} {front back : List Char} (hback : back ≠ []) :
    (htmlBefore? marker (String.ofList (front ++ back))).getD (String.ofList (front ++ back)) =
        String.ofList front ↔
      marker.toList <+: back ∧
        ∀ i < front.length, ¬ marker.toList <+: (front ++ back).drop i := by
  have hinj : ∀ cs, String.ofList cs = String.ofList front ↔ cs = front := by
    intro cs
    constructor
    · intro h
      rw [← String.toList_ofList (l := cs), h, String.toList_ofList]
    · exact congrArg String.ofList
  have hfound : Text.before? marker.toList (front ++ back) = some front ↔
      marker.toList <+: back ∧ ∀ i < front.length, ¬ marker.toList <+: (front ++ back).drop i := by
    rw [Text.before?_eq_some_iff, List.prefix_append_right_inj]
  rw [← hfound]
  unfold htmlBefore?
  rw [String.toList_ofList]
  cases Text.before? marker.toList (front ++ back) with
  | none =>
    rw [Option.map_none, Option.getD_none, hinj]
    simp [hback]
  | some found => rw [Option.map_some, Option.getD_some, hinj, Option.some_inj]

end Demo

namespace Page

/-! ## The page in front of its demo -/

theorem renderBy_outcome (parser : Parser) (o : Options.Markdown) (text : String) :
    (renderBy parser o text).outcome =
      (anchored o (collect o (parser.tree o text)) (parser.markup o text)).map fun html =>
        ⟨String.ofList html, (collect o (parser.tree o text)).headers,
          (Demo.find? o.demo (parser.tree o text)).map (·.value)⟩ := by
  unfold renderBy
  dsimp only
  have hdemo : (collect o (parser.tree o text)).demo = Demo.find? o.demo (parser.tree o text) := rfl
  rw [hdemo]
  cases Demo.find? o.demo (parser.tree o text) <;>
    cases anchored o (collect o (parser.tree o text)) (parser.markup o text) <;> rfl

/-- A component is the preview of a demo that is handed the given data. -/
def Previews (o : Options.Compiler) (demo : Demo.Code) (component : String) (fields : Fields) :
    Prop :=
  ∃ written shown, component = String.ofList (Demo.preview o
    (Demo.Parts.ofSource demo.value.toList) written shown (Demo.payloadText fields)).render

variable {parser : Parser} {mo : Options.Markdown} {c : Collaborators} {o : Options.Compiler}
  {r : Compile.Request} {fm : FrontMatter} {compiled : Compiled} {demo : Demo.Code}

/-- A page with a demo that has been compiled has been shown, and its preview is handed the markup
in front of the marker. -/
theorem exists_of_page (hrender : c.render = renderBy parser mo)
    (hextract : c.extract r.source = .ok fm) (hhtml : ∀ f ∈ fm.metadata, f.1 ≠ "html")
    (hdemo : Demo.find? mo.demo (parser.tree mo fm.body) = some demo)
    (hpage : (Compile.page c o r).outcome = .ok compiled) :
    ∃ html fields,
      anchored mo (collect mo (parser.tree mo fm.body)) (parser.markup mo fm.body) = .ok html ∧
        compiled.pageData.html = String.ofList (breakPairs html) ∧
        Previews o demo compiled.componentSource fields ∧
        fields.get? "html" = some (.string
          ((Demo.htmlBefore? o.marker compiled.pageData.html).getD compiled.pageData.html)) := by
  obtain ⟨fm', shown, time, hfm, hshown, -, hdata, hcomponent⟩ := Compile.page_ok c o hpage
  rw [hextract] at hfm
  obtain rfl := Except.ok.inj hfm
  rw [hrender, renderBy_outcome, hdemo] at hshown
  cases hanchored :
    anchored mo (collect mo (parser.tree mo fm.body)) (parser.markup mo fm.body) with
  | error e =>
    rw [hanchored] at hshown
    cases hshown
  | ok html =>
    rw [hanchored] at hshown
    cases hshown
    obtain ⟨written, vanilla, hcomponent⟩ := Demo.generate_ok hcomponent
    have hhtml' : compiled.pageData.html = String.ofList (breakPairs html) := by
      rw [hdata, Compile.pageData, TemplateTokens.escape_eq, String.toList_ofList]
    refine ⟨html, _, rfl, hhtml', ⟨written, vanilla, hcomponent⟩, ?_⟩
    exact Demo.get?_payload_html (hdata ▸ hhtml)

/-! ## The demo among the blocks -/

/-- The anchors that the headings of a page get, one after another. -/
def idsOf (o : Options.Markdown) (root : Node) : List String :=
  if o.headingAnchors then slugsOf root else []

theorem anchored_of_fits {root : Node} {html : List Char} {parts : List Part}
    (hraw : mo.allowRawHtml = false) (hfits : Fits mo root html parts) :
    anchored mo (collect mo root) html = .ok (anchoredMarkup (idsOf mo root) parts) := by
  unfold idsOf
  by_cases hanchors : mo.headingAnchors = true
  · rw [if_pos hanchors]
    exact anchored_parts hraw hanchors hfits
  · have hplain : anchoredMarkup [] parts = markup parts := by cases parts <;> rfl
    rw [if_neg hanchors, hplain, hfits.html]
    unfold anchored
    simp [hanchors]

/-- The number of the demo among the blocks of a tree. -/
def demoNumber? (m : Demo.Marker) (root : Node) : Option Nat :=
  (blocks false root).findIdx? fun b => m.marks b.code

theorem demo_of_number {m : Demo.Marker} {root : Node} {number : Nat}
    (h : demoNumber? m root = some number) :
    ∃ b, (blocks false root)[number]? = some b ∧ b.code.lang = some m.language ∧
      Demo.find? m root = some b.code := by
  obtain ⟨hlt, hmarks, hfirst⟩ := List.findIdx?_eq_some_iff_getElem.mp h
  have hfind : (blocks false root).find? (fun b => m.marks b.code) =
      some (blocks false root)[number] := by
    refine List.find?_eq_some_iff_getElem.mpr ⟨hmarks, number, hlt, rfl, fun j hj => ?_⟩
    simpa using hfirst j hj
  refine ⟨_, List.getElem?_eq_getElem hlt, ?_, ?_⟩
  · unfold Demo.Marker.marks at hmarks
    rw [Bool.and_eq_true, beq_iff_eq] at hmarks
    exact hmarks.1
  · rw [← find?_blocks m false root, hfind]
    rfl

theorem mem_shownBlocks_iff {pieces : List Piece} {number : Nat} :
    number ∈ shownBlocks pieces ↔ ∃ content, Piece.block number content ∈ pieces := by
  unfold shownBlocks
  rw [List.mem_filterMap]
  constructor
  · rintro ⟨p, hp, h⟩
    cases p with
    | block n content =>
      cases h
      exact ⟨content, hp⟩
    | formula content => cases h
    | other part => cases h
  · rintro ⟨content, h⟩
    exact ⟨_, h, rfl⟩

/-- The blocks in front of one outside of notes are those outside of notes that the tree has in front
of it. -/
theorem shown_before_iff {root : Node} {html : List Char} {front back : List Piece} {number : Nat}
    {content : List Char} (hshows : Shows mo root html (front ++ .block number content :: back))
    {b : Block} (hb : (blocks false root)[number]? = some b) (hnoted : b.noted = false) (m : Nat) :
    m ∈ shownBlocks front ↔
      m < number ∧ ((blocks false root).map Block.noted)[m]? = some false := by
  have hmem : ∀ k, k ∈ Heading.outsideFrom 0 ((blocks false root).map Block.noted) ↔
      ((blocks false root).map Block.noted)[k]? = some false := by
    intro k
    rw [Heading.mem_outsideFrom_iff, Nat.sub_zero]
    exact and_iff_right (Nat.zero_le k)
  have hself : number ∈ Heading.outsideFrom 0 ((blocks false root).map Block.noted) := by
    rw [hmem, List.getElem?_map, hb, Option.map_some, hnoted]
  obtain ⟨before, after, hsplit⟩ := List.append_of_mem hself
  have hsorted := Heading.outsideFrom_pairwise 0 ((blocks false root).map Block.noted)
  obtain ⟨rest, hrest⟩ := hshows.order
  have honce := hshows.once
  have hshown : shownBlocks (front ++ .block number content :: back) =
      shownBlocks front ++ number :: shownBlocks back := by
    unfold shownBlocks
    rw [List.filterMap_append, List.filterMap_cons]
  rw [hshown] at hrest honce
  rw [hsplit] at hrest hsorted
  rw [List.append_assoc, List.cons_append] at hrest
  rw [List.nodup_middle, List.nodup_cons, List.mem_append, not_or] at honce
  -- The block comes once, so what stands in front of it is the same in both rows.
  have hfront : shownBlocks front = before :=
    ((List.append_cons_inj_of_notMem honce.1.1 honce.1.2).mp hrest.symm).1
  rw [hfront]
  rw [List.pairwise_append, List.pairwise_cons] at hsorted
  obtain ⟨-, ⟨hafter, -⟩, hbefore⟩ := hsorted
  constructor
  · intro hm
    refine ⟨hbefore m hm number List.mem_cons_self, ?_⟩
    rw [← hmem, hsplit]
    exact List.mem_append_left _ hm
  · rintro ⟨hlt, hm⟩
    rw [← hmem, hsplit, List.mem_append, List.mem_cons] at hm
    rcases hm with hm | rfl | hm
    · exact hm
    · exact absurd hlt (Nat.lt_irrefl m)
    · exact absurd (hafter m hm) (Nat.not_lt.mpr hlt.le)

theorem marks_formula_iff {list : List Block} {language : String} {content : List Char} :
    (Piece.formula content).Marks list language ↔ language = "math math-display" := by
  have hplain : breakPairs formulaLanguage = "math math-display".toList := by decide
  unfold Piece.Marks Piece.language?
  simp only [Option.mem_def, Option.some_inj, exists_eq_left', hplain]
  rw [String.toList_inj]
  exact eq_comm

/-- In front of a demo outside of notes the marker marks blocks outside of notes that the tree has in
front of it, and formulas if they are written in the language of demos. -/
theorem none_marked_iff {root : Node} {html : List Char} {front back : List Piece} {number : Nat}
    {content : List Char} (hshows : Shows mo root html (front ++ .block number content :: back))
    {b : Block} (hb : (blocks false root)[number]? = some b) (hnoted : b.noted = false)
    (language : String) :
    (∀ p ∈ front, ¬ p.Marks (blocks false root) language) ↔
      (∀ m < number, ∀ d, (blocks false root)[m]? = some d → d.noted = false →
        ¬ d.Marks language) ∧
      (language = "math math-display" → ∀ text, Piece.formula text ∉ front) := by
  have hshown := shown_before_iff hshows hb hnoted
  constructor
  · intro h
    refine ⟨fun m hm d hd hout hmarks => ?_, fun hlanguage text hmem => ?_⟩
    · have hmem : m ∈ shownBlocks front := by
        rw [hshown, List.getElem?_map, hd, Option.map_some, hout]
        exact ⟨hm, rfl⟩
      obtain ⟨text, hpiece⟩ := mem_shownBlocks_iff.mp hmem
      exact h _ hpiece (marks_block_iff.mpr ⟨d, hd, hmarks⟩)
    · exact h _ hmem (marks_formula_iff.mpr hlanguage)
  · rintro ⟨hblocks, hformulas⟩ p hp hmarks
    cases p with
    | block m text =>
      obtain ⟨d, hd, hmark⟩ := marks_block_iff.mp hmarks
      obtain ⟨hlt, hout⟩ := (hshown m).mp (mem_shownBlocks_iff.mpr ⟨text, hp⟩)
      rw [List.getElem?_map, hd, Option.map_some, Option.some_inj] at hout
      exact hblocks m hlt d hd hout hmark
    | formula text => exact hformulas (marks_formula_iff.mp hmarks) text hp
    | other part =>
      obtain ⟨named, hnamed, -⟩ := hmarks
      cases hnamed

/-! ## The law -/

/-- A language that markup whose pairs of braces are broken shows as it is. -/
def WrittenAsIs (language : String) : Prop :=
  breakPairs (Markdown.Url.encode language.toList) = language.toList

/-- What a block in a language opens with. -/
def blockOpening (language : String) : List Char :=
  codeOpening ++ (Markdown.Url.encode language.toList ++ ['\x22'])

/-- The data of a preview holds the markup of its page up to a place, with its pairs of braces
broken. -/
def HandsOver (fields : Fields) (front : List Char) : Prop :=
  fields.get? "html" = some (.string (String.ofList (breakPairs front)))

/-- Markup that is cut at the first marker ends where a block in the language of demos opens if and
only if the language is written as it is, and the marker stands nowhere in front. -/
theorem handsOver_iff {fields : Fields} {language : String} {html front back : List Char}
    (hfield : fields.get? "html" = some (.string
      ((Demo.htmlBefore? (Options.Compiler.usualMarker language)
        (String.ofList (breakPairs html))).getD (String.ofList (breakPairs html)))))
    (hsplit : html = front ++ (blockOpening language ++ back)) :
    HandsOver fields front ↔
      WrittenAsIs language ∧ ∀ i < (breakPairs front).length,
        ¬ (Options.Compiler.usualMarker language).toList <+: (breakPairs html).drop i := by
  have hopening : html = front ++ (codeOpening ++
      (Markdown.Url.encode language.toList ++ '\x22' :: back)) := by
    rw [hsplit]
    simp only [blockOpening, List.append_assoc, List.cons_append, List.nil_append]
  have hne : breakPairs (codeOpening ++
      (Markdown.Url.encode language.toList ++ '\x22' :: back)) ≠ [] :=
    TemplateTokens.breakPairs_ne_nil (by simp [codeOpening])
  have hquote : '\x22' ∉ Markdown.Url.encode language.toList :=
    fun hmem => (mem_encode hmem).2 rfl
  unfold HandsOver WrittenAsIs
  rw [hfield, Option.some_inj, Json.string.injEq, hopening,
    TemplateTokens.breakPairs_append (codeOpening_head _), Demo.cut_eq_iff hne,
    usualMarker_prefix_iff hquote (Or.inr (length_le_encode _))]

/-- The markup of pieces, up to a block in a language and from there on. -/
theorem exists_blockOpening {list : List Block} {number : Nat} {b : Block} {language : String}
    (hb : list[number]? = some b) (hlang : b.code.lang = some language) (ids : List String)
    (front back : List Piece) (content : List Char) :
    ∃ rest, anchoredMarkup ids (partsOf list (front ++ .block number content :: back)) =
      anchoredMarkup ids (partsOf list front) ++ (blockOpening language ++ rest) := by
  have hnamed : (Piece.block number content).language? list =
      some (Markdown.Url.encode language.toList) := by
    unfold Piece.language?
    dsimp only
    rw [hb, Option.bind_some, hlang]
    rfl
  obtain ⟨rest, hrest⟩ := anchoredMarkup_split hnamed ids front back
  refine ⟨rest, ?_⟩
  rw [hrest]
  simp only [blockOpening, List.append_assoc, List.cons_append, List.nil_append]

/-- The marker stands nowhere in front of a piece if and only if it marks no piece there. -/
theorem no_marker_before_iff {root : Node} {html : List Char} {front back : List Piece}
    (hshows : Shows mo root html (front ++ back)) {language : String}
    (hplain : WrittenAsIs language) (ids : List String) :
    (∀ i < (breakPairs (anchoredMarkup ids (partsOf (blocks false root) front))).length,
      ¬ (Options.Compiler.usualMarker language).toList <+:
        (breakPairs (anchoredMarkup ids (partsOf (blocks false root) (front ++ back)))).drop i) ↔
      ∀ p ∈ front, ¬ p.Marks (blocks false root) language := by
  have hquote : '\x22' ∉ language.toList := by
    rw [← hplain]
    exact quote_not_mem_breakPairs fun hmem => (mem_encode hmem).2 rfl
  have hbefore := usualMarker_before_iff hshows.fits.sound hshows.sound hquote ids rfl
  simpa using not_congr hbefore

/-- A preview is handed the markup of its page up to the first marker, or all of it. That is the
markup in front of a block in the language of demos if and only if the language is written as it is
and no marker stands in front. Without raw markup, no marker stands in front of the demo that has
been found if and only if it marks no piece that is shown there; for a demo outside of notes, if and
only if it marks no block outside of notes in front of it in the tree. -/
theorem a_page_is_cut_at_its_demo_iff_no_block_in_front_is_marked (parser : Parser)
    (mo : Options.Markdown) (c : Collaborators) (o : Options.Compiler) (r : Compile.Request)
    (fm : FrontMatter) (root : Node) (compiled : Compiled) (demo : Demo.Code)
    (hrender : c.render = renderBy parser mo) (hlanguage : o.demoLanguage = mo.demoLanguage)
    (hmarker : o.demoMarker = none) (hextract : c.extract r.source = .ok fm)
    (hhtml : ∀ f ∈ fm.metadata, f.1 ≠ "html") (hroot : parser.tree mo fm.body = root)
    (hdemo : Demo.find? mo.demo root = some demo)
    (hpage : (Compile.page c o r).outcome = .ok compiled) :
    ∃ html fields,
      anchored mo (collect mo root) (parser.markup mo fm.body) = .ok html ∧
      compiled.pageData.html = String.ofList (breakPairs html) ∧
      Previews o demo compiled.componentSource fields ∧
      fields.get? "html" = some (.string
        ((Demo.htmlBefore? (Options.Compiler.usualMarker mo.demoLanguage)
          compiled.pageData.html).getD compiled.pageData.html)) ∧
      (∀ front back, html = front ++ (blockOpening mo.demoLanguage ++ back) →
        (HandsOver fields front ↔
          WrittenAsIs mo.demoLanguage ∧ ∀ i < (breakPairs front).length,
            ¬ (Options.Compiler.usualMarker mo.demoLanguage).toList <+:
              (breakPairs html).drop i)) ∧
      (mo.allowRawHtml = false → ∀ front number content back,
        Shows mo root (parser.markup mo fm.body) (front ++ .block number content :: back) →
        demoNumber? mo.demo root = some number →
        ∃ b shown rest, (blocks false root)[number]? = some b ∧ b.code = demo ∧
          shown = anchoredMarkup (idsOf mo root) (partsOf (blocks false root) front) ∧
          html = shown ++ (blockOpening mo.demoLanguage ++ rest) ∧
          (HandsOver fields shown ↔
            WrittenAsIs mo.demoLanguage ∧
              ∀ p ∈ front, ¬ p.Marks (blocks false root) mo.demoLanguage) ∧
          (b.noted = false →
            (HandsOver fields shown ↔
              WrittenAsIs mo.demoLanguage ∧
                (∀ m < number, ∀ d, (blocks false root)[m]? = some d → d.noted = false →
                  ¬ d.Marks mo.demoLanguage) ∧
                (mo.demoLanguage = "math math-display" →
                  ∀ text, Piece.formula text ∉ front)))) := by
  subst hroot
  obtain ⟨html, fields, hanchored, hpageHtml, hpreview, hfield⟩ :=
    exists_of_page hrender hextract hhtml hdemo hpage
  have husual : o.marker = Options.Compiler.usualMarker mo.demoLanguage := by
    unfold Options.Compiler.marker
    rw [hmarker, hlanguage]
    rfl
  rw [husual] at hfield
  have hcut : fields.get? "html" = some (.string
      ((Demo.htmlBefore? (Options.Compiler.usualMarker mo.demoLanguage)
        (String.ofList (breakPairs html))).getD (String.ofList (breakPairs html)))) := by
    rw [← hpageHtml]
    exact hfield
  refine ⟨html, fields, hanchored, hpageHtml, hpreview, hfield,
    fun front back => handsOver_iff hcut, ?_⟩
  intro hraw front number content back hshows hnumber
  obtain ⟨b, hb, hlang, hfind⟩ := demo_of_number hnumber
  have hcode : b.code = demo := by
    rw [hfind] at hdemo
    exact Option.some.inj hdemo
  have hwritten := anchored_of_fits hraw hshows.fits
  rw [hanchored, Except.ok.injEq] at hwritten
  obtain ⟨rest, hsplit⟩ := exists_blockOpening hb hlang (idsOf mo (parser.tree mo fm.body)) front
    back content
  rw [← hwritten] at hsplit
  have hmarked : HandsOver fields (anchoredMarkup (idsOf mo (parser.tree mo fm.body))
      (partsOf (blocks false (parser.tree mo fm.body)) front)) ↔
        WrittenAsIs mo.demoLanguage ∧
          ∀ p ∈ front, ¬ p.Marks (blocks false (parser.tree mo fm.body)) mo.demoLanguage := by
    rw [handsOver_iff hcut hsplit, hwritten]
    exact and_congr_right fun hplain => no_marker_before_iff hshows hplain _
  refine ⟨b, _, rest, hb, hcode, rfl, hsplit, hmarked, fun hnoted => ?_⟩
  rw [hmarked, none_marked_iff hshows hb hnoted]

/-- The options of a page without raw markup and without anchors. -/
def bareOptions : Options.Markdown := { plainOptions with headingAnchors := false }

/-- A text without front matter. -/
def bareMatter (source : String) : FrontMatter := ⟨source, []⟩

/-- Collaborators that show pages in this way, and leave scripts as they are. -/
def bareCollaborators : Collaborators where
  extract source := .ok (bareMatter source)
  render := renderBy .standard bareOptions
  modified _ := .ok 0
  transpile script := .ok script

theorem bareCollaborators_render :
    bareCollaborators.render = renderBy .standard bareOptions := by
  unfold bareCollaborators
  dsimp only

/-- Where no anchors are wanted, every page is compiled. -/
theorem exists_of_bare (o : Options.Compiler) (r : Compile.Request) :
    ∃ compiled, (Compile.page bareCollaborators o r).outcome = .ok compiled := by
  have hnone : ∀ q, bareCollaborators.failure? q = none := by
    intro q
    cases q with
    | render text =>
      have houtcome := renderBy_outcome .standard bareOptions text
      unfold anchored at houtcome
      have hfailure : bareCollaborators.failure? (.render text) =
          failureOf (renderBy .standard bareOptions text).outcome := rfl
      rw [hfailure, houtcome]
      rfl
    | extract source => rfl
    | stat file => rfl
    | transpile script => rfl
  have hfailed := (Compile.follows_page bareCollaborators o r).failed
  rw [List.findSome?_eq_none_iff.mpr fun q _ => hnone q] at hfailed
  cases hcase : (Compile.page bareCollaborators o r).outcome with
  | ok compiled => exact ⟨compiled, rfl⟩
  | error e =>
    rw [hcase] at hfailed
    cases hfailed

/-- The tree and the markup of a text of such a page. -/
def bareTree (source : String) : Node := Parser.standard.tree bareOptions (bareMatter source).body

@[inherit_doc bareTree]
def bareMarkup (source : String) : List Char :=
  Parser.standard.markup bareOptions (bareMatter source).body

/-- A page whose demo stands in a quote, with another block in the language of demos behind it. -/
def quotedDemoText : String := "# T\n\n> ```vue demo\n> b\n> ```\n\n```vue\na\n```\n"

/-- What the page shows in front of the demo. -/
def quotedDemoFront : List Piece :=
  [.other (.heading 0 1), .other (textPart "T"), .other (stopPart "h1"), .other (textPart "\n"),
    .other (startPart "blockquote" []), .other (textPart "\n")]

/-- What the page shows behind the demo. -/
def quotedDemoBack : List Piece :=
  [.other (textPart "\n"), .other (stopPart "blockquote"), .other (textPart "\n"),
    .block 1 "a\n".toList, .other (textPart "\n")]

theorem quotedDemoText_shows :
    Shows bareOptions (bareTree quotedDemoText) (bareMarkup quotedDemoText)
      (quotedDemoFront ++ .block 0 "b\n".toList :: quotedDemoBack) := by
  constructor
  · constructor
    · intro _
      decide +kernel
    · decide +kernel
    · decide +kernel
    · decide +kernel
  · decide +kernel
  · decide +kernel
  · decide +kernel

/-- A block behind the demo does no harm: the page is cut in front of the demo. -/
theorem quotedDemoText_is_cut_at_its_demo :
    ∃ compiled fields,
      (Compile.page bareCollaborators .standard ⟨quotedDemoText, "page.md", ""⟩).outcome =
          .ok compiled ∧
        Previews .standard ⟨some "vue", some "demo", "b"⟩ compiled.componentSource fields ∧
        HandsOver fields "<h1>T</h1>\n<blockquote>\n".toList := by
  obtain ⟨compiled, hpage⟩ := exists_of_bare .standard ⟨quotedDemoText, "page.md", ""⟩
  have hdemo : Demo.find? bareOptions.demo (bareTree quotedDemoText) =
      some ⟨some "vue", some "demo", "b"⟩ := by decide +kernel
  have hroot : Parser.standard.tree bareOptions (bareMatter quotedDemoText).body =
      bareTree quotedDemoText := rfl
  obtain ⟨html, fields, -, -, hpreview, -, -, hcut⟩ :=
    a_page_is_cut_at_its_demo_iff_no_block_in_front_is_marked .standard bareOptions
      bareCollaborators .standard ⟨quotedDemoText, "page.md", ""⟩ (bareMatter quotedDemoText)
      (bareTree quotedDemoText) compiled _ bareCollaborators_render rfl rfl rfl
      (List.forall_mem_nil _) hroot hdemo hpage
  have hnumber : demoNumber? bareOptions.demo (bareTree quotedDemoText) = some 0 := by
    decide +kernel
  have hshows := quotedDemoText_shows
  unfold bareMarkup at hshows
  obtain ⟨b, shown, rest, -, -, hshown, -, hhanded, -⟩ :=
    hcut rfl quotedDemoFront 0 "b\n".toList quotedDemoBack hshows hnumber
  have hfront : shown = "<h1>T</h1>\n<blockquote>\n".toList := by
    rw [hshown]
    decide +kernel
  refine ⟨compiled, fields, hpage, hpreview, ?_⟩
  rw [← hfront, hhanded]
  constructor
  · unfold WrittenAsIs
    decide +kernel
  · decide +kernel

/-- A page whose second block in the language of demos is its demo. -/
def twoBlocksText : String := "```vue\na\n```\n\n```vue demo\nb\n```\n"

/-- The page is cut in front of its first block, so the preview of the second one, which is the demo
that has been found, is handed nothing of what stands in front of it. -/
theorem twoBlocksText_is_cut_in_front_of_its_first_block :
    ∃ compiled fields,
      (Compile.page bareCollaborators .standard ⟨twoBlocksText, "page.md", ""⟩).outcome =
          .ok compiled ∧
        (blocks false (bareTree twoBlocksText)).map Block.code =
          [⟨some "vue", none, "a"⟩, ⟨some "vue", some "demo", "b"⟩] ∧
        Demo.find? bareOptions.demo (bareTree twoBlocksText) =
          some ⟨some "vue", some "demo", "b"⟩ ∧
        compiled.pageData.html = "<pre><code class=\"language-vue\">a\n</code></pre>\n" ++
          "<pre><code class=\"language-vue\">b\n</code></pre>\n" ∧
        Previews .standard ⟨some "vue", some "demo", "b"⟩ compiled.componentSource fields ∧
        fields.get? "html" = some (.string "") := by
  obtain ⟨compiled, hpage⟩ := exists_of_bare .standard ⟨twoBlocksText, "page.md", ""⟩
  have hdemo : Demo.find? bareOptions.demo (bareTree twoBlocksText) =
      some ⟨some "vue", some "demo", "b"⟩ := by decide +kernel
  have hblocks : (blocks false (bareTree twoBlocksText)).map Block.code =
      [⟨some "vue", none, "a"⟩, ⟨some "vue", some "demo", "b"⟩] := by decide +kernel
  have hfind := hdemo
  unfold bareTree at hfind
  have hextract : bareCollaborators.extract twoBlocksText = .ok (bareMatter twoBlocksText) := rfl
  obtain ⟨html, fields, hanchored, hhtml, hpreview, hfield⟩ :=
    exists_of_page bareCollaborators_render hextract (List.forall_mem_nil _) hfind hpage
  have hbare : ∀ collected markup, anchored bareOptions collected markup = .ok markup :=
    fun _ _ => rfl
  rw [hbare, Except.ok.injEq] at hanchored
  have hmarkup : html = ("<pre><code class=\"language-vue\">a\n</code></pre>\n" ++
      "<pre><code class=\"language-vue\">b\n</code></pre>\n").toList := by
    rw [← hanchored]
    decide +kernel
  rw [hmarkup] at hhtml
  refine ⟨compiled, fields, hpage, hblocks, hdemo, ?_, hpreview, ?_⟩
  · rw [hhtml]
    decide +kernel
  · rw [hfield, hhtml, Option.some_inj, Json.string.injEq]
    decide +kernel

end Page

end DocPages
