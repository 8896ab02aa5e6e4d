-- What the preview of a compiled page is handed of its markup. The markup is
-- escaped first and cut at the marker of the demo afterwards; as no break stands
-- inside a marker or makes one, it might as well be cut first.
import DocPages.Proofs.Compile.Tokens
import DocPages.Proofs.Demo.Payload
import DocPages.Proofs.Page.Marks
import DocPages.Proofs.Text.Escaping

namespace DocPages.Compile

open Options.Compiler (usualMarker)
open TemplateTokens (Plain breakMark breakPairs escape)

/-! ## The marker -/

theorem plain_usualMarker {language : String} (h : Plain language.toList) :
    Plain (usualMarker language).toList := by
  rw [Page.usualMarker_toList, TemplateTokens.plain_append, TemplateTokens.plain_append]
  exact ⟨Page.codeOpening_plain, h, by decide⟩

/-- The marker holds a quote, which a break does not. -/
theorem usualMarker_not_in_break (language : String) :
    ¬ (usualMarker language).toList <:+: breakMark := by
  intro h
  have hquote : '\x22' ∈ (usualMarker language).toList := by
    rw [Page.usualMarker_toList]
    simp
  exact absurd (h.subset hquote) (by decide)

/-! ## The data -/

/-- The data that the preview of a compiled page is handed. -/
def handed (c : Collaborators) (o : Options.Compiler) (compiled : Compiled) (demo : String) :
    Fields :=
  Demo.payload ((compiled.pageData.withDemo demo).payloadSource o (Demo.vanillaText c demo))

variable {c : Collaborators} {o : Options.Compiler} {compiled : Compiled} {demo html front : String}

/-- Markup that has been escaped is cut at the marker where it would have been cut before. -/
theorem cutAt_escape (hlanguage : Plain o.demoLanguage.toList)
    (h : Text.CutAt (usualMarker o.demoLanguage).toList html.toList front.toList) :
    Text.CutAt (usualMarker o.demoLanguage).toList (escape html).toList
      (escape front).toList := by
  rw [TemplateTokens.toList_escape, TemplateTokens.toList_escape]
  exact TemplateTokens.cutAt_breakPairs (plain_usualMarker hlanguage) (usualMarker_not_in_break _) h

theorem handed_html (hmarker : o.demoMarker = none) (hlanguage : Plain o.demoLanguage.toList)
    (hmetadata : ∀ f ∈ compiled.pageData.frontmatter, f.1 ≠ "html")
    (hhtml : compiled.pageData.html = escape html)
    (h : Text.CutAt (usualMarker o.demoLanguage).toList html.toList front.toList) :
    (handed c o compiled demo).get? "html" = some (.string (escape front)) := by
  have husual : o.marker = usualMarker o.demoLanguage := by
    unfold Options.Compiler.marker
    rw [hmarker]
    rfl
  have hcut := Demo.htmlBefore?_getD_iff.mpr (cutAt_escape hlanguage h)
  rw [← husual, ← hhtml] at hcut
  unfold handed
  rw [Demo.get?_payload_html hmetadata, ← hcut]
  rfl

/-! ## The law -/

/-- The preview of a compiled page is handed what stands in the markup of the page, as that has been
shown, in front of the first marker, or all of it where there is none; this is then escaped. For the
marker stands in escaped markup exactly where it stands in the markup itself. -/
theorem a_page_is_cut_where_its_own_markup_is (c : Collaborators) (o : Options.Compiler)
    (r : Request) (fm : FrontMatter) (shown : Rendered) (demo : String) (compiled : Compiled)
    (hmarker : o.demoMarker = none) (hlanguage : Plain o.demoLanguage.toList)
    (hextract : c.extract r.source = .ok fm) (hmetadata : ∀ f ∈ fm.metadata, f.1 ≠ "html")
    (hshown : (c.render fm.body).outcome = .ok shown) (hdemo : shown.demoSource = some demo)
    (hpage : (page c o r).outcome = .ok compiled) :
    (∃ written vanilla, compiled.componentSource = String.ofList (Demo.preview o
      (Demo.Parts.ofSource demo.toList) written vanilla
      (Demo.payloadText (handed c o compiled demo))).render) ∧
    (∃ front : String,
      Text.CutAt (usualMarker o.demoLanguage).toList shown.html.toList front.toList ∧
      (handed c o compiled demo).get? "html" = some (.string (escape front))) ∧
    ∀ front back,
      (escape shown.html).toList = front ++ ((usualMarker o.demoLanguage).toList ++ back) ↔
        ∃ a b, shown.html.toList = a ++ ((usualMarker o.demoLanguage).toList ++ b) ∧
          front = breakPairs a ∧ back = breakPairs b := by
  obtain ⟨fm', shown', time, hfm, hrendered, -, hdata, hcomponent⟩ := page_ok c o hpage
  rw [hextract] at hfm
  obtain rfl := Except.ok.inj hfm
  rw [hshown] at hrendered
  obtain rfl := Except.ok.inj hrendered
  rw [hdemo] at hcomponent
  refine ⟨Demo.generate_ok hcomponent, ?_, fun front back => ?_⟩
  · have hcut := Demo.htmlBefore?_getD_iff.mp
      (rfl : (Demo.htmlBefore? (usualMarker o.demoLanguage) shown.html).getD shown.html = _)
    have hfields : compiled.pageData.frontmatter = fm.metadata := by
      rw [hdata]
      rfl
    have hhtml : compiled.pageData.html = escape shown.html := by
      rw [hdata]
      rfl
    exact ⟨_, hcut, handed_html hmarker hlanguage (hfields ▸ hmetadata) hhtml hcut⟩
  · rw [TemplateTokens.toList_escape]
    exact TemplateTokens.breakPairs_eq_append_iff (plain_usualMarker hlanguage)
      (usualMarker_not_in_break _)

/-- A page whose markup holds tokens on both sides of its marker, and breaks of its own. -/
def brokenMarkup : String :=
  "<p>\x7b\x7b\x7b<wbr>\x7d</p><pre><code class=\x22language-vue\x22>\x7d\x7d</code></pre>"

/-- A renderer that shows every text as that page, whose demo is a line of text. -/
def brokenCollaborators : Collaborators where
  extract source := .ok ⟨source, [("title", .string "T")]⟩
  render _ := ⟨[], .ok ⟨brokenMarkup, [], some "<b>x</b>"⟩⟩
  modified _ := .ok 0
  transpile script := .ok script

/-- The preview is handed the markup up to the marker, with its own pairs broken. -/
theorem brokenMarkup_is_cut_at_its_marker :
    Plain Options.Compiler.standard.demoLanguage.toList ∧
      ∃ compiled, (page brokenCollaborators .standard ⟨"t", "t.md", ""⟩).outcome = .ok compiled ∧
        (handed brokenCollaborators .standard compiled "<b>x</b>").get? "html" =
          some (.string "<p>\x7b<wbr>\x7b<wbr>\x7b<wbr>\x7d</p>") := by
  have hdone : (page brokenCollaborators .standard ⟨"t", "t.md", ""⟩).outcome.isOk = true := by
    decide +kernel
  obtain ⟨compiled, hpage⟩ : ∃ compiled,
      (page brokenCollaborators .standard ⟨"t", "t.md", ""⟩).outcome = .ok compiled := by
    cases hcase : (page brokenCollaborators .standard ⟨"t", "t.md", ""⟩).outcome with
    | ok compiled => exact ⟨compiled, rfl⟩
    | error e => rw [hcase] at hdone; cases hdone
  have hplain : Plain Options.Compiler.standard.demoLanguage.toList := by decide
  obtain ⟨-, ⟨front, hcut, hfield⟩, -⟩ := a_page_is_cut_where_its_own_markup_is
    brokenCollaborators .standard ⟨"t", "t.md", ""⟩ ⟨"t", [("title", .string "T")]⟩
    ⟨brokenMarkup, [], some "<b>x</b>"⟩ "<b>x</b>" compiled rfl hplain rfl (by decide) rfl rfl hpage
  refine ⟨hplain, compiled, hpage, ?_⟩
  have hfront : front = "<p>\x7b\x7b\x7b<wbr>\x7d</p>" := by
    rw [← Demo.htmlBefore?_getD_iff.mpr hcut]
    decide +kernel
  rw [hfield, hfront, Option.some_inj, Json.string.injEq]
  decide +kernel

end DocPages.Compile
