-- Where tokens stand in what has been compiled. The markup of a page holds none,
-- and in the preview of a demo they stand only in the data, which is the value
-- of an attribute, and in the parts of the demo that are taken over as written.
import DocPages.Proofs.Demo.Delivered
import DocPages.Proofs.Demo.Fragments

namespace DocPages

open TemplateTokens (Plain Tokenless breakPairs isBrace plain_append tokenless_breakPairs tokens)

namespace Demo

/-! ## Previews -/

/-- The preview of a demo on a page, given the markup of its code in both forms. -/
def Source.preview (c : Collaborators) (o : Options.Compiler) (p : Source)
    (written vanilla : String) : Preview :=
  Demo.preview o (Parts.ofSource p.demo.toList) (breakPairs written.toList)
    (breakPairs vanilla.toList) (payloadText (payload (p.payloadSource o (vanillaText c p.demo))))

theorem tokenless_slot {name : String} {html : List Char} (hname : Plain name.toList)
    (hhtml : Tokenless html) : Tokenless (slot name html) := by
  have hopen : Plain ("<template #".toList ++ name.toList ++ ['>']) := by
    simp only [plain_append]
    exact ⟨⟨by decide, hname⟩, by decide⟩
  unfold slot
  exact (hhtml.plain_append hopen).append_plain (by decide)

variable {token front back : List Char}

/-- A token in a preview whose slots hold none lies in a fragment of another origin. -/
theorem Preview.token_lies_in {v : Preview} (hname : Plain v.component.toList)
    (hwritten : Tokenless v.writtenHtml) (hvanilla : Tokenless v.vanillaHtml)
    (htoken : token ∈ tokens) (hsplit : v.render = front ++ token ++ back) :
    ∃ f, f.origin ∈ [Origin.data, .template, .script, .style] ∧ f.text ∈ v.texts f.origin ∧
      LiesIn f v.fragments front token back := by
  rw [render_eq_textOf] at hsplit
  obtain ⟨f, hfilled, hlies⟩ := (v.framed hname).token_lies_in htoken hsplit
  have htext := Preview.text_mem_texts hlies.mem hfilled
  refine ⟨f, ?_, htext, hlies⟩
  have hholds : token <:+: f.text := hlies.infix
  cases horigin : f.origin with
  | frame => exact absurd horigin hfilled
  | written =>
    rw [horigin, Preview.texts, List.mem_singleton] at htext
    exact absurd (htext ▸ hholds) (hwritten token htoken)
  | vanilla =>
    rw [horigin, Preview.texts, List.mem_singleton] at htext
    exact absurd (htext ▸ hholds) (hvanilla token htoken)
  | _ => decide

end Demo

/-- The demo of a page, with what is told about the page. -/
def PageData.withDemo (data : PageData) (demo : String) : Demo.Source :=
  ⟨demo, data.html, data.headers, data.frontmatter, data.relativePath⟩

namespace Compile

open Demo (Origin LiesIn fence slot textOf vanillaSlot vanillaText writtenSlot)

/-! ## Pages -/

theorem tokenless_pageData (r : Request) (fm : FrontMatter) (shown : Rendered) (time : Int) :
    Tokenless (pageData r fm shown time).html.toList := by
  unfold pageData
  rw [TemplateTokens.toList_escape]
  exact tokenless_breakPairs _

theorem tokenless_pageComponent {html : String} (h : Tokenless html.toList) :
    Tokenless (Demo.pageComponent html).toList := by
  unfold Demo.pageComponent
  rw [String.toList_append, String.toList_append]
  exact (h.plain_append (by decide)).append_plain (by decide)

/-! ## The law -/

/-- The markup that is told of a page holds no token, and neither does the component of a page
without a demo. In the preview of a demo every token stands in the data, in the template, in a
script or in the style, and so in neither of the slots that show code. -/
theorem tokens_stand_only_in_the_data_and_the_demo (c : Collaborators) (o : Options.Compiler)
    (r : Request) (compiled : Compiled) (h : (page c o r).outcome = .ok compiled) :
    Tokenless compiled.pageData.html.toList ∧
      (demoOf? c r = none → Tokenless compiled.componentSource.toList) ∧
      ∀ demo, demoOf? c r = some demo → Plain o.previewComponent.toList →
        ∃ written vanilla, ∃ v : Demo.Preview,
          (c.render (fence o.demoLanguage demo)).outcome = .ok written ∧
          (c.render (fence o.demoLanguage (vanillaText c demo))).outcome = .ok vanilla ∧
          v = (compiled.pageData.withDemo demo).preview c o written.html vanilla.html ∧
          compiled.componentSource.toList = textOf v.fragments ∧
          Tokenless (slot writtenSlot v.writtenHtml) ∧
          Tokenless (slot vanillaSlot v.vanillaHtml) ∧
          ∀ token ∈ tokens, ∀ front back,
            compiled.componentSource.toList = front ++ token ++ back →
              ∃ f, f.origin ∈ [Origin.data, .template, .script, .style] ∧
                f.text ∈ v.texts f.origin ∧ LiesIn f v.fragments front token back := by
  obtain ⟨fm, shown, time, -, -, hdemo, hdata, hcomponent⟩ := page_ok c o h
  have hhtml : Tokenless compiled.pageData.html.toList := by
    rw [hdata]
    exact tokenless_pageData r fm shown time
  refine ⟨hhtml, ?_, ?_⟩
  · intro hnone
    rw [← hdemo, hnone] at hcomponent
    obtain hpage := Except.ok.inj hcomponent
    rw [← hpage]
    exact tokenless_pageComponent hhtml
  · intro demo hsome hname
    rw [← hdemo, hsome] at hcomponent
    obtain ⟨written, vanilla, hwritten, hvanilla, htext⟩ := Demo.generate_shows hcomponent
    obtain ⟨shownWritten, hshownWritten, rfl⟩ := Demo.highlight_ok hwritten
    obtain ⟨shownVanilla, hshownVanilla, rfl⟩ := Demo.highlight_ok hvanilla
    have hrender : compiled.componentSource.toList = ((compiled.pageData.withDemo demo).preview c o
        shownWritten.html shownVanilla.html).render := by
      rw [htext, String.toList_ofList]
      rfl
    refine ⟨shownWritten, shownVanilla, _, hshownWritten, hshownVanilla, rfl,
      hrender.trans (Demo.render_eq_textOf _), ?_, ?_, ?_⟩
    · exact Demo.tokenless_slot (by decide) (tokenless_breakPairs _)
    · exact Demo.tokenless_slot (by decide) (tokenless_breakPairs _)
    · intro token htoken front back hsplit
      rw [hrender] at hsplit
      exact Demo.Preview.token_lies_in hname (tokenless_breakPairs _) (tokenless_breakPairs _)
        htoken hsplit

/-- A demo with tokens in its template and in its script. -/
def bracedDemo : String :=
  "<template>\x7b\x7b a \x7d\x7d</template>\n<script>let o = \x7ba: \x7b\x7d\x7d</script>"

/-- A renderer that puts what it shows between tokens, on a page with a demo. -/
def bracedCollaborators : Collaborators where
  extract source := .ok ⟨source, []⟩
  render text := ⟨[], .ok ⟨"<p>\x7b\x7b" ++ text ++ "\x7d\x7d</p>", [], some bracedDemo⟩⟩
  modified _ := .ok 0
  transpile script := .ok script

/-- A page whose text holds a token. -/
def bracedPage : Request := ⟨"\x7b\x7b\x7b a \x7d\x7d", "a.md", ""⟩

/-- Of a page that is shown between tokens only those of its demo are left. -/
theorem bracedPage_keeps_the_tokens_of_its_demo :
    ¬ Tokenless bracedPage.source.toList ∧ ¬ Tokenless bracedDemo.toList ∧
      ∃ compiled, ∃ v : Demo.Preview,
        (page bracedCollaborators .standard bracedPage).outcome = .ok compiled ∧
        Tokenless compiled.pageData.html.toList ∧
        compiled.componentSource.toList = textOf v.fragments ∧
        ∀ token ∈ tokens, ∀ front back,
          compiled.componentSource.toList = front ++ token ++ back →
            ∃ f, f.origin ∈ [Origin.data, .template, .script, .style] ∧
              LiesIn f v.fragments front token back := by
  have hdone : (page bracedCollaborators .standard bracedPage).outcome.isOk = true := by
    decide +kernel
  obtain ⟨compiled, hpage⟩ :
      ∃ compiled, (page bracedCollaborators .standard bracedPage).outcome = .ok compiled := by
    cases hcase : (page bracedCollaborators .standard bracedPage).outcome with
    | ok compiled => exact ⟨compiled, rfl⟩
    | error e => rw [hcase] at hdone; cases hdone
  obtain ⟨hhtml, -, hdemo⟩ := tokens_stand_only_in_the_data_and_the_demo bracedCollaborators
    .standard bracedPage compiled hpage
  obtain ⟨-, -, v, -, -, -, htext, -, -, hlies⟩ := hdemo bracedDemo rfl (by decide)
  refine ⟨by decide +kernel, by decide +kernel, compiled, v, hpage, hhtml, htext, ?_⟩
  intro token htoken front back hsplit
  obtain ⟨f, horigin, -, hf⟩ := hlies token htoken front back hsplit
  exact ⟨f, horigin, hf⟩

end Compile

end DocPages
